import LedgerDesk.Constitution.Pieces

/-!
# Any interleaving

Whatever order the pieces of the calls come in, and wherever a connection is lost, the tables stay
sound.
-/
namespace LedgerDesk.Constitution

open Foundation Preparation

variable {canon : Canon} {auth : Authority} {drawn : Drawn} {now : Nat} {w w' : World}

/-- What a call reads is sound and still there, and so is what it goes on with. -/
structure Fair (canon : Canon) (w : World) : Prop where
  sound : Sound canon w.data
  ids : (w.calls.map Call.id).Nodup
  reads : ∀ c ∈ w.calls, ∀ s ∈ c.snapshot, Sound canon s ∧ Grown s w.data
  holds : ∀ c ∈ w.calls, c.stage.Holds (c.snapshot.getD w.data) c.request.command

/-! ### Steps -/

theorem mem_of_call {id : Nat} {c : Call} (found : w.call id = some c) : c ∈ w.calls ∧ c.id = id :=
  ⟨List.mem_of_find?_eq_some found, by simpa using List.find?_some found⟩

theorem finish_eq {data : Data} {outcome : Piece} {next : Data × Stage}
    (finished : finish data outcome = next) :
    (next.1 = data ∧ ∃ failure, next.2 = .answered (.error failure)) ∨
      ∃ changes, outcome = .ok (next.2, changes) ∧ data.commit changes = some next.1 := by
  rw [finish.eq_def] at finished
  split at finished
  · next failure => exact .inl (finished ▸ ⟨rfl, failure, rfl⟩)
  · next stage changes =>
    split at finished
    · exact .inl (finished ▸ ⟨rfl, _, rfl⟩)
    · next after committed =>
      subst finished
      exact .inr ⟨changes, rfl, committed⟩

/-- What the next piece of a call comes to. -/
def turnOf (canon : Canon) (auth : Authority) (drawn : Drawn) (now : Nat) (w : World) (c : Call) :
    Data × Stage :=
  finish w.data (piece canon auth drawn now (c.snapshot.getD w.data) c)

/-- A step of a call, by its next piece. -/
theorem advance_eq {id : Nat} (taken : step canon w (.advance id auth drawn now) = some w') :
    ∃ c ∈ w.calls, c.id = id ∧ (c.stage.transacts = true → c.snapshot.isSome = true) ∧
      (∀ keys, c.stage ≠ .locking keys) ∧ (∀ answer, c.stage ≠ .answered answer) ∧
      w'.data = (turnOf canon auth drawn now w c).1 ∧
      w'.calls = Rows.update (fun old => old.id = id)
        (fun old => { old with stage := (turnOf canon auth drawn now w c).2, snapshot := none })
        w.calls := by
  simp only [step, Option.bind_eq_bind, Option.bind_eq_some_iff] at taken
  obtain ⟨c, found, taken⟩ := taken
  obtain ⟨member, is_id⟩ := mem_of_call found
  refine ⟨c, member, is_id, ?_⟩
  split at taken
  · cases taken
  · cases taken
  · next stage snapshot not_answered not_locking =>
    split at taken
    · cases taken
    · next ready =>
      obtain rfl := Option.some.inj taken
      refine ⟨?_, ?_, ?_, rfl, rfl⟩
      · intro transacts
        cases at_snapshot : c.snapshot with
        | none => exact absurd (by simp [transacts, at_snapshot]) ready
        | some s => rfl
      · exact fun keys => not_locking keys
      · exact fun answer => not_answered answer

/-! ### Every step is fair -/

theorem fair_initial (canon : Canon) : Fair canon ⟨.empty, []⟩ where
  sound := sound_empty canon
  ids := List.nodup_nil
  reads := by simp
  holds := by simp

/-- Only tables change, and they go on. -/
theorem Fair.grow {data : Data} (fair : Fair canon w) (sound : Sound canon data)
    (grown : Grown w.data data) : Fair canon { w with data } where
  sound
  ids := fair.ids
  reads c member s is_snapshot :=
    have ⟨read, before⟩ := fair.reads c member s is_snapshot
    ⟨read, before.trans grown⟩
  holds c member := by
    have held := fair.holds c member
    cases at_snapshot : c.snapshot with
    | none =>
      rw [at_snapshot] at held
      exact held.grown grown
    | some s =>
      rw [at_snapshot] at held
      exact held

/-- What a call goes on with is in the tables, whenever it was read. -/
theorem Fair.held (fair : Fair canon w) {c : Call} (member : c ∈ w.calls) :
    c.stage.Holds w.data c.request.command := by
  have held := fair.holds c member
  cases at_snapshot : c.snapshot with
  | none =>
    rw [at_snapshot] at held
    exact held
  | some s =>
    rw [at_snapshot] at held
    exact held.grown (fair.reads c member s at_snapshot).2

/-- One call goes on, with what is in the tables. -/
theorem Fair.setCall {id : Nat} (fair : Fair canon w) (set : Call → Call)
    (keeps : ∀ c, (set c).id = c.id)
    (next : ∀ c ∈ w.calls, c.id = id → (∀ s ∈ (set c).snapshot, s ∈ c.snapshot ∨ s = w.data) ∧
      (set c).stage.Holds ((set c).snapshot.getD w.data) (set c).request.command) :
    Fair canon (w.setCall id set) where
  sound := fair.sound
  ids := by
    rw [World.setCall, Rows.map_update]
    · exact fair.ids
    · exact fun c _ _ => keeps c
  reads c member s is_snapshot := by
    rcases Rows.mem_update.mp member with ⟨old, -⟩ | ⟨old, there, chosen, rfl⟩
    · exact fair.reads c old s is_snapshot
    · rcases (next old there (of_decide_eq_true chosen)).1 s is_snapshot with before | rfl
      · exact fair.reads old there s before
      · exact ⟨fair.sound, Grown.refl _⟩
  holds c member := by
    rcases Rows.mem_update.mp member with ⟨old, -⟩ | ⟨old, there, chosen, rfl⟩
    · exact fair.holds c old
    · exact (next old there (of_decide_eq_true chosen)).2

/-- A new candidate goes on from the latest version of its unit. -/
def Succeeds (d d' : Data) : Prop :=
  ∀ c ∈ d'.candidates, c ∉ d.candidates → c.version = d.latest c.unit_id + 1

theorem succeeds_of_same {d d' : Data} (same : d'.candidates = d.candidates) : Succeeds d d' := by
  intro c member new
  rw [same] at member
  exact absurd member new

/-- The turn of a call keeps the tables sound, and goes on with what is in them. -/
theorem turnOf_fair (auth : Authority) (drawn : Drawn) (now : Nat) (fair : Fair canon w) {c : Call}
    (member : c ∈ w.calls) :
    Sound canon (turnOf canon auth drawn now w c).1 ∧
      Grown w.data (turnOf canon auth drawn now w c).1 ∧
      Succeeds w.data (turnOf canon auth drawn now w c).1 ∧
      (turnOf canon auth drawn now w c).2.Holds (turnOf canon auth drawn now w c).1
        c.request.command := by
  rcases finish_eq (show finish w.data _ = turnOf canon auth drawn now w c from rfl) with
    ⟨same, failure, stage⟩ | ⟨changes, done, committed⟩
  · rw [same, stage]
    exact ⟨fair.sound, Grown.refl _, succeeds_of_same rfl, trivial⟩
  · have read : Sound canon (c.snapshot.getD w.data) ∧ Grown (c.snapshot.getD w.data) w.data := by
      cases at_snapshot : c.snapshot with
      | none => exact ⟨fair.sound, Grown.refl _⟩
      | some s => exact fair.reads c member s at_snapshot
    have ⟨lawful, holds, _, _, _⟩ := piece_done read.1 (fair.holds c member) done
    have committed := commit_some committed
    have grown := committed.grown
    have lawful_now := lawful.grown read.2
    refine ⟨fair.sound.commit committed lawful_now, grown, ?_, holds.grown (read.2.trans grown)⟩
    intro candidate there new
    rw [committed.candidates, List.mem_append, Option.mem_toList] at there
    have added := there.resolve_left new
    rw [latest_eq (fair.sound.versions _)]
    exact next_version fair.sound committed lawful_now added

/-- A step keeps the tables sound, and takes nothing out of them. -/
theorem step_fair {act : Act} (taken : step canon w act = some w') (fair : Fair canon w) :
    Fair canon w' ∧ Grown w.data w'.data ∧ Succeeds w.data w'.data := by
  cases act with
  | prepare row =>
    simp only [step, Option.bind_eq_bind, Option.bind_eq_some_iff] at taken
    obtain ⟨data, inserted, done⟩ := taken
    obtain rfl := Option.some.inj done
    obtain ⟨sound, grown⟩ := fair.sound.prepare inserted
    refine ⟨fair.grow sound grown, grown, succeeds_of_same ?_⟩
    rw [(insertPreparation_some inserted).1]
  | receive id principal session request =>
    simp only [step] at taken
    split at taken
    · cases taken
    · next free =>
      obtain rfl := Option.some.inj taken
      refine ⟨⟨fair.sound, ?_, ?_, ?_⟩, Grown.refl _, succeeds_of_same rfl⟩
      · refine Rows.nodup_concat fair.ids fun old there same => ?_
        simp only [Bool.not_eq_true, Option.isSome_eq_false_iff, Option.isNone_iff_eq_none] at free
        have missing := List.find?_eq_none.mp free old there
        simp [same] at missing
      · intro c member s is_snapshot
        rcases List.mem_append.mp member with old | new
        · exact fair.reads c old s is_snapshot
        · obtain rfl := List.mem_singleton.mp new
          cases is_snapshot
      · intro c member
        rcases List.mem_append.mp member with old | new
        · exact fair.holds c old
        · obtain rfl := List.mem_singleton.mp new
          trivial
  | lock id =>
    simp only [step, Option.bind_eq_bind, Option.bind_eq_some_iff] at taken
    obtain ⟨c, found, taken⟩ := taken
    obtain ⟨member, is_id⟩ := mem_of_call found
    split at taken
    · next keys locking =>
      split at taken
      · cases taken
      · obtain rfl := Option.some.inj taken
        refine ⟨fair.setCall _ (fun _ => rfl) fun old there same => ⟨?_, trivial⟩, Grown.refl _,
          succeeds_of_same rfl⟩
        exact fun s is_snapshot => .inl is_snapshot
    · cases taken
  | begin id =>
    simp only [step, Option.bind_eq_bind, Option.bind_eq_some_iff] at taken
    obtain ⟨c, found, taken⟩ := taken
    split at taken
    · obtain rfl := Option.some.inj taken
      refine ⟨fair.setCall _ (fun _ => rfl) fun old there same => ⟨?_, ?_⟩, Grown.refl _,
        succeeds_of_same rfl⟩
      · rintro _ ⟨⟩
        exact .inr rfl
      · exact fair.held (c := old) there
    · cases taken
  | advance id auth drawn now =>
    obtain ⟨c, member, is_id, -, -, -, data, calls⟩ := advance_eq taken
    obtain ⟨sound, grown, succeeds, holds⟩ :=
      turnOf_fair auth drawn now fair member
    rw [← data] at sound grown succeeds holds
    have next := (fair.grow sound grown).setCall
      (fun old => { old with stage := (turnOf canon auth drawn now w c).2, snapshot := none })
      (fun _ => rfl) fun old there (same : old.id = id) => by
        -- No other call has the name.
        obtain rfl : old = c := Rows.eq_of_key fair.ids there member (same.trans is_id.symm)
        exact ⟨nofun, holds⟩
    refine ⟨?_, grown, succeeds⟩
    cases w'
    simp only at calls
    rw [calls]
    exact next
  | drop id =>
    simp only [step] at taken
    split at taken
    · obtain rfl := Option.some.inj taken
      refine ⟨⟨fair.sound, fair.ids.sublist (List.filter_sublist.map _), ?_, ?_⟩, Grown.refl _,
        succeeds_of_same rfl⟩
      · exact fun c member => fair.reads c (List.mem_filter.mp member).1
      · exact fun c member => fair.holds c (List.mem_filter.mp member).1
    · cases taken

theorem run_fair {ts : List (Transition World Act)} {w w' : World}
    (run : Run (step canon) w ts w') (fair : Fair canon w) :
    Fair canon w' ∧ Grown w.data w'.data ∧
      ∀ tr ∈ ts, Succeeds tr.source.data tr.target.data := by
  induction run with
  | done => exact ⟨fair, Grown.refl _, by simp⟩
  | step taken _ ih =>
    obtain ⟨next, grown, succeeds⟩ := step_fair taken fair
    obtain ⟨last, rest, later⟩ := ih next
    refine ⟨last, grown.trans rest, fun tr member => ?_⟩
    rcases List.mem_cons.mp member with rfl | tail
    · exact succeeds
    · exact later tr tail

def sharedContext : Context := ⟨"refunds", "answers", ⟨"treatment", 1, "d"⟩⟩

def sharedUnit : PreparedUnit :=
  { id := "u", elements := ["e"], conditions := [], inseparable_group := none
    classification := ⟨⟨some .factual, none⟩, ⟨some .domain_adoption, none⟩, ⟨some .situated, none⟩⟩
    examination := ⟨.classifiable, ""⟩
    coverage := ⟨[], false, ""⟩ }

/-- A revision with one unit, of one line of text. -/
def sharedPreparation : PreparationRow :=
  { reference := ⟨"prep", 1, "d"⟩, context := sharedContext, differences := []
    payload :=
      { inputs := [], elements := [⟨"e", .text "Thirty days.", []⟩], relations := [], resources := []
        resource_associations := [], conditions := [], units := [sharedUnit], components := []
        incidents := [], inventory := .known, interruptions := [], transformations := none } }

def sharedCommand : Command := .constitute ⟨"p1", 1, "d"⟩ none

/-- One digest for every record; a command is told from the shared one. -/
def sharedCanon : Canon where
  sha256 _ := "d"
  item _ := []
  proposal _ := []
  outcome _ := []
  candidate _ _ _ := []
  operation _ _ := []
  command c := if c = sharedCommand then [1] else []
  fingerprint text := if text = [1] then "shared" else "other"

/-- Everything is allowed, in the one context. -/
def openAuthority : Authority where
  beforeMetadata := .ok ()
  resolve _ context := .ok (context.getD sharedContext)
  priorAct := .ok ()
  clock := .ok ()

def sharedDrawn (n : String) : Drawn := ⟨"slot-" ++ n, "unit-" ++ n, "p" ++ n, "outcome-" ++ n, "op-" ++ n⟩

def advances (id : Nat) (n : String) : Act := .advance id openAuthority (sharedDrawn n) 0

/-- A call up to the first of its own transactions. -/
def enters (id : Nat) (principal key : String) (command : Command) : List Act :=
  [.receive id principal principal ⟨command, some key⟩, .begin id, advances id "0", .lock id, .begin id]

def proposes (id : Nat) (principal n : String) : List Act :=
  enters id principal "k"
      (.propose "prep" 1 "u" (.new "") ⟨.distinct, "", none⟩) ++
    [advances id n, advances id n, .begin id, advances id n, .drop id]

def constitutes (id : Nat) (principal n : String) (command : Command) : List Act :=
  enters id principal "k" command ++
    [advances id n, advances id n, .begin id, advances id n, advances id n, .begin id, advances id n,
      .drop id]

/-- Both propose the item, and the first constitutes it. -/
def sharedActs : List Act :=
  .prepare sharedPreparation :: (proposes 0 "ana" "1" ++ proposes 1 "bea" "2" ++
    constitutes 2 "ana" "3" sharedCommand)

theorem shared_reaches : (perform (step sharedCanon) ⟨.empty, []⟩ sharedActs).any
    (fun w => w.data.slots.length = 1 ∧ w.data.proposals.length = 2 ∧
      versions w.data "unit-1" = [1]) = true := by
  decide +kernel

end LedgerDesk.Constitution
