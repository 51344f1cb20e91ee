import LedgerDesk.Constitution.Interleaving

/-!
# The outcome an item has

An item whose slot has its outcome answers every later command of the person who constituted it with
that outcome. The effect that is told again is looked up under the caller, so the command of anybody
else who proposed the item ends in a failure of the service.
-/
namespace LedgerDesk.Constitution

open Foundation Preparation

variable {canon : Canon} {auth : Authority} {now : Nat} {w w' : World}

/-! ### Locks -/

/-- A call holds what it asked for, from its locks on. -/
def HoldsKeys (c : Call) : Prop :=
  match c.stage with
  | .probing => c.held = []
  | .locking keys => c.held = [] ∧ ∀ key ∈ openKeys c, key ∈ keys
  | .answered _ => True
  | _ => ∀ key ∈ openKeys c, key ∈ c.held

/-- No two calls hold a lock, and nobody else has used the key of a call since it began. -/
structure Locked (w : World) : Prop where
  keyed : ∀ c ∈ w.calls, HoldsKeys c
  apart : ∀ c ∈ w.calls, ∀ c' ∈ w.calls, c.id ≠ c'.id → ∀ key ∈ c.held, key ∉ c'.held
  idle : ∀ c ∈ w.calls, c.stage.transacts = false → c.snapshot = none
  own : ∀ c ∈ w.calls, ∀ s ∈ c.snapshot, ∀ key ∈ c.request.clientKey,
    LockKey.intention c.principal c.request.command.operation key ∈ c.held →
      w.data.intention c.principal c.request.command.operation key =
        s.intention c.principal c.request.command.operation key

theorem intentionKey_mem {c : Call} {key : String} (is_key : c.request.clientKey = some key) :
    LockKey.intention c.principal c.request.command.operation key ∈ openKeys c := by
  rw [openKeys, is_key]
  simp

theorem intention_append {d : Data} {i : Intention} {principal : String} {operation : Operation}
    {key : String} (other : ¬(i.principal = principal ∧ i.operation = operation ∧ i.client_key = key)) :
    ({ d with intentions := d.intentions ++ [i] } : Data).intention principal operation key =
      d.intention principal operation key := by
  have no : [i].find? (fun row : Intention => row.principal = principal && row.operation = operation &&
      row.client_key = key) = none := by
    rw [List.find?_eq_none]
    intro row member
    obtain rfl := List.mem_singleton.mp member
    simpa [and_assoc] using other
  rw [Data.intention, List.find?_append, no, Option.or_none]
  rfl

theorem locked_initial : Locked ⟨.empty, []⟩ where
  keyed := by simp
  apart := by simp
  idle := by simp
  own := by simp

/-- What a turn of a call comes to: a failure, or a piece that is committed. -/
theorem turnOf_done (auth : Authority) (drawn : Drawn) (now : Nat) (fair : Fair canon w) {c : Call}
    (member : c ∈ w.calls) :
    ((turnOf canon auth drawn now w c).1 = w.data ∧
        ∃ failure, (turnOf canon auth drawn now w c).2 = .answered (.error failure)) ∨
      ∃ changes, Done canon (c.snapshot.getD w.data) c (turnOf canon auth drawn now w c).2 changes ∧
        Committed w.data changes (turnOf canon auth drawn now w c).1 := by
  rcases finish_eq (show finish w.data _ = turnOf canon auth drawn now w c from rfl) with
    failed | ⟨changes, done, committed⟩
  · exact .inl failed
  · have read : Sound canon (c.snapshot.getD w.data) := by
      cases at_snapshot : c.snapshot with
      | none => exact fair.sound
      | some s => exact (fair.reads c member s at_snapshot).1
    exact .inr ⟨changes, piece_done read (fair.holds c member) done, commit_some committed⟩

/-- The stage a call goes on with is one for which it holds its locks. -/
theorem holdsKeys_turn (fair : Fair canon w) (locked : Locked w) {c : Call} (member : c ∈ w.calls)
    {drawn : Drawn} (not_locking : ∀ keys, c.stage ≠ .locking keys)
    (not_answered : ∀ answer, c.stage ≠ .answered answer) :
    HoldsKeys { c with stage := (turnOf canon auth drawn now w c).2, snapshot := none } := by
  have keyed := locked.keyed c member
  rcases turnOf_done auth drawn now fair member with
    ⟨-, failure, stage⟩ | ⟨changes, done, -⟩
  · rw [HoldsKeys, stage]
    trivial
  · by_cases probing : c.stage = .probing
    · obtain ⟨keys, stage⟩ := done.probed probing
      rw [HoldsKeys, probing] at keyed
      rw [HoldsKeys, stage]
      exact ⟨keyed, fun key asked => List.mem_append_left _ asked⟩
    · have held : ∀ key ∈ openKeys c, key ∈ c.held := by
        rw [HoldsKeys.eq_def] at keyed
        split at keyed
        · next probed => exact absurd probed probing
        · next keys locking => exact absurd locking (not_locking keys)
        · next answer answered => exact absurd answered (not_answered answer)
        · exact keyed
      have going := done.going probing
      rw [HoldsKeys.eq_def]
      dsimp only
      cases at_stage : (turnOf canon auth drawn now w c).2 with
      | probing | locking keys => rw [at_stage] at going; cases going
      | answered answer => trivial
      | opening | replaying | naming | choosing | reading | comparing | readingCandidate | settling =>
        exact held

/-- A turn of a call uses no key that another call holds. -/
theorem intention_turn (fair : Fair canon w) (locked : Locked w) {c : Call} (member : c ∈ w.calls)
    {drawn : Drawn} (not_locking : ∀ keys, c.stage ≠ .locking keys)
    (not_answered : ∀ answer, c.stage ≠ .answered answer) {other : Call} (among : other ∈ w.calls)
    (apart : other.id ≠ c.id) {key : String}
    (holds : LockKey.intention other.principal other.request.command.operation key ∈ other.held) :
    (turnOf canon auth drawn now w c).1.intention other.principal other.request.command.operation key =
      w.data.intention other.principal other.request.command.operation key := by
  rcases turnOf_done auth drawn now fair member with
    ⟨same, -⟩ | ⟨changes, done, committed⟩
  · rw [same]
  · cases added : changes.intention with
    | none =>
      rw [Data.intention, Data.intention, committed.intentions, added, Option.toList_none,
        List.append_nil]
    | some i =>
      obtain ⟨probed, effect_id, recorded⟩ := done.own i added
      obtain ⟨client_key, is_key, rfl⟩ := Option.map_eq_some_iff.mp recorded
      have mine : ∀ key ∈ openKeys c, key ∈ c.held := by
        have keyed := locked.keyed c member
        rw [HoldsKeys.eq_def] at keyed
        split at keyed
        · next probing => exact absurd probing probed
        · next keys locking => exact absurd locking (not_locking keys)
        · next answer answered => exact absurd answered (not_answered answer)
        · exact keyed
      rw [Data.intention, committed.intentions, added, Option.toList_some]
      refine intention_append (d := w.data) fun same => ?_
      -- The key of the new row is locked by its own call.
      obtain ⟨by_caller, of_operation, of_key⟩ := same
      dsimp only at by_caller of_operation of_key
      refine locked.apart other among c member apart _ holds ?_
      rw [← by_caller, ← of_operation, ← of_key]
      exact mine _ (intentionKey_mem is_key)

theorem step_locked {act : Act} (taken : step canon w act = some w') (fair : Fair canon w)
    (locked : Locked w) : Locked w' := by
  cases act with
  | prepare row =>
    simp only [step, Option.bind_eq_bind, Option.bind_eq_some_iff] at taken
    obtain ⟨data, inserted, done⟩ := taken
    obtain rfl := Option.some.inj done
    obtain ⟨rfl, -⟩ := insertPreparation_some inserted
    exact ⟨locked.keyed, locked.apart, locked.idle, locked.own⟩
  | receive id principal session request =>
    simp only [step] at taken
    split at taken
    · cases taken
    · obtain rfl := Option.some.inj taken
      refine ⟨?_, ?_, ?_, ?_⟩
      · intro c member
        rcases List.mem_append.mp member with old | new
        · exact locked.keyed c old
        · obtain rfl := List.mem_singleton.mp new
          rfl
      · intro c member c' member' apart key held held'
        rcases List.mem_append.mp member with old | new
        · rcases List.mem_append.mp member' with old' | new'
          · exact locked.apart c old c' old' apart key held held'
          · obtain rfl := List.mem_singleton.mp new'
            cases held'
        · obtain rfl := List.mem_singleton.mp new
          cases held
      · intro c member stands
        rcases List.mem_append.mp member with old | new
        · exact locked.idle c old stands
        · obtain rfl := List.mem_singleton.mp new
          rfl
      · intro c member s is_snapshot
        rcases List.mem_append.mp member with old | new
        · exact locked.own c old s is_snapshot
        · obtain rfl := List.mem_singleton.mp new
          cases is_snapshot
  | lock id =>
    simp only [step, Option.bind_eq_bind, Option.bind_eq_some_iff] at taken
    obtain ⟨c, found, taken⟩ := taken
    obtain ⟨member, is_id⟩ := mem_of_call found
    split at taken
    · next keys locking =>
      split at taken
      · cases taken
      · next free =>
        obtain rfl := Option.some.inj taken
        have keyed := locked.keyed c member
        rw [HoldsKeys, locking] at keyed
        have is_c : ∀ old ∈ w.calls, old.id = id → old = c := fun old there same =>
          Rows.eq_of_key fair.ids there member (same.trans is_id.symm)
        have untaken : ∀ other ∈ w.calls, other.id ≠ id → ∀ key ∈ keys, key ∉ other.held := by
          intro other there apart key asked held
          refine free (List.any_eq_true.mpr ⟨key, asked, ?_⟩)
          exact List.any_eq_true.mpr ⟨other, there, by simp [apart, held]⟩
        refine ⟨?_, ?_, ?_, ?_⟩
        · intro c' member'
          rcases Rows.mem_update.mp member' with ⟨old, -⟩ | ⟨old, there, chosen, rfl⟩
          · exact locked.keyed c' old
          · obtain rfl := is_c old there (of_decide_eq_true chosen)
            exact keyed.2
        · intro c₁ member₁ c₂ member₂ apart key held₁ held₂
          rcases Rows.mem_update.mp member₁ with ⟨old₁, kept₁⟩ | ⟨old₁, there₁, chosen₁, rfl⟩
          · rcases Rows.mem_update.mp member₂ with ⟨old₂, -⟩ | ⟨old₂, there₂, chosen₂, rfl⟩
            · exact locked.apart c₁ old₁ c₂ old₂ apart key held₁ held₂
            · exact untaken c₁ old₁ (of_decide_eq_false kept₁) key held₂ held₁
          · rcases Rows.mem_update.mp member₂ with ⟨old₂, kept₂⟩ | ⟨old₂, there₂, chosen₂, rfl⟩
            · exact untaken c₂ old₂ (of_decide_eq_false kept₂) key held₁ held₂
            · exact apart ((of_decide_eq_true chosen₁).trans (of_decide_eq_true chosen₂).symm)
        · intro c' member' stands
          rcases Rows.mem_update.mp member' with ⟨old, -⟩ | ⟨old, there, chosen, rfl⟩
          · exact locked.idle c' old stands
          · cases stands
        · intro c' member' s is_snapshot key is_key held
          rcases Rows.mem_update.mp member' with ⟨old, -⟩ | ⟨old, there, chosen, rfl⟩
          · exact locked.own c' old s is_snapshot key is_key held
          · obtain rfl := is_c old there (of_decide_eq_true chosen)
            -- It has no transaction open while it waits.
            have idle := locked.idle old there (by rw [locking]; rfl)
            rw [idle] at is_snapshot
            cases is_snapshot
    · cases taken
  | begin id =>
    simp only [step, Option.bind_eq_bind, Option.bind_eq_some_iff] at taken
    obtain ⟨c, found, taken⟩ := taken
    obtain ⟨member, is_id⟩ := mem_of_call found
    split at taken
    · next ready =>
      obtain rfl := Option.some.inj taken
      have transacts := (Bool.and_eq_true _ _ ▸ ready).1
      refine ⟨?_, ?_, ?_, ?_⟩
      · intro c' member'
        rcases Rows.mem_update.mp member' with ⟨old, -⟩ | ⟨old, there, -, rfl⟩
        · exact locked.keyed c' old
        · exact locked.keyed old there
      · intro c₁ member₁ c₂ member₂
        rcases Rows.mem_update.mp member₁ with ⟨old₁, -⟩ | ⟨old₁, there₁, -, rfl⟩
        · rcases Rows.mem_update.mp member₂ with ⟨old₂, -⟩ | ⟨old₂, there₂, -, rfl⟩
          · exact locked.apart c₁ old₁ c₂ old₂
          · exact locked.apart c₁ old₁ old₂ there₂
        · rcases Rows.mem_update.mp member₂ with ⟨old₂, -⟩ | ⟨old₂, there₂, -, rfl⟩
          · exact locked.apart old₁ there₁ c₂ old₂
          · exact locked.apart old₁ there₁ old₂ there₂
      · intro c' member' stands
        rcases Rows.mem_update.mp member' with ⟨old, -⟩ | ⟨old, there, chosen, rfl⟩
        · exact locked.idle c' old stands
        · obtain rfl : old = c :=
            Rows.eq_of_key fair.ids there member ((of_decide_eq_true chosen).trans is_id.symm)
          rw [transacts] at stands
          cases stands
      · intro c' member' s is_snapshot key is_key held
        rcases Rows.mem_update.mp member' with ⟨old, -⟩ | ⟨old, there, -, rfl⟩
        · exact locked.own c' old s is_snapshot key is_key held
        · cases is_snapshot
          rfl
    · cases taken
  | advance id auth drawn now =>
    obtain ⟨c, member, is_id, -, not_locking, not_answered, data, calls⟩ := advance_eq taken
    have is_c : ∀ old ∈ w.calls, old.id = id → old = c := fun old there same =>
      Rows.eq_of_key fair.ids there member (same.trans is_id.symm)
    refine ⟨?_, ?_, ?_, ?_⟩
    · intro c' member'
      rw [calls] at member'
      rcases Rows.mem_update.mp member' with ⟨old, -⟩ | ⟨old, there, chosen, rfl⟩
      · exact locked.keyed c' old
      · obtain rfl := is_c old there (of_decide_eq_true chosen)
        exact holdsKeys_turn fair locked there not_locking not_answered
    · intro c₁ member₁ c₂ member₂
      rw [calls] at member₁ member₂
      rcases Rows.mem_update.mp member₁ with ⟨old₁, -⟩ | ⟨old₁, there₁, -, rfl⟩
      · rcases Rows.mem_update.mp member₂ with ⟨old₂, -⟩ | ⟨old₂, there₂, -, rfl⟩
        · exact locked.apart c₁ old₁ c₂ old₂
        · exact locked.apart c₁ old₁ old₂ there₂
      · rcases Rows.mem_update.mp member₂ with ⟨old₂, -⟩ | ⟨old₂, there₂, -, rfl⟩
        · exact locked.apart old₁ there₁ c₂ old₂
        · exact locked.apart old₁ there₁ old₂ there₂
    · intro c' member' stands
      rw [calls] at member'
      rcases Rows.mem_update.mp member' with ⟨old, -⟩ | ⟨old, there, chosen, rfl⟩
      · exact locked.idle c' old stands
      · rfl
    · intro c' member' s is_snapshot key is_key held
      rw [calls] at member'
      rcases Rows.mem_update.mp member' with ⟨old, kept⟩ | ⟨old, there, chosen, rfl⟩
      · rw [data, ← locked.own c' old s is_snapshot key is_key held]
        refine intention_turn fair locked member not_locking not_answered old ?_ held
        rw [is_id]
        exact of_decide_eq_false kept
      · cases is_snapshot
  | drop id =>
    simp only [step] at taken
    split at taken
    · obtain rfl := Option.some.inj taken
      exact
        { keyed := fun c member => locked.keyed c (List.mem_filter.mp member).1
          apart := fun c member c' member' =>
            locked.apart c (List.mem_filter.mp member).1 c' (List.mem_filter.mp member').1
          idle := fun c member => locked.idle c (List.mem_filter.mp member).1
          own := fun c member => locked.own c (List.mem_filter.mp member).1 }
    · cases taken

theorem run_locked {ts : List (Transition World Act)} {w w' : World}
    (run : Run (step canon) w ts w') (fair : Fair canon w) (locked : Locked w) :
    Fair canon w' ∧ Locked w' := by
  induction run with
  | done => exact ⟨fair, locked⟩
  | step taken _ ih => exact ih (step_fair taken fair).1 (step_locked taken fair locked)

/-! ### The effect of an outcome -/

section Effect

variable {s : Data} {o : Outcome} {e : Effect}

theorem outcomeOf_eq (sound : Sound canon s) (standing : o ∈ s.outcomes) :
    s.outcomeOf o.slot_id = some o :=
  Rows.find?_of_key sound.outcomes standing

theorem effect_eq (sound : Sound canon s) (existing : e ∈ s.effects) : s.effect e.id = some e :=
  Rows.find?_of_key sound.effects existing

/-- An effect that names an outcome is of that outcome. -/
theorem effects_of_named (sound : Sound canon s) (standing : o ∈ s.outcomes) (existing : e ∈ s.effects)
    (constituting : e.operation = .constitute) (named : e.result.outcome_id? = some o.id) :
    Effects o e := by
  obtain ⟨o', held, effects⟩ := sound.effect_of e existing constituting
  obtain ⟨_, _, disposes⟩ := sound.disposes o' held
  rw [effects.result, EffectResult.outcome_id?, disposes.result] at named
  exact Rows.eq_of_key sound.outcome_ids held standing (Option.some.inj named) ▸ effects

/-- The look-up under a caller finds the effect exactly if the caller constituted. -/
theorem found_iff (principal : String) (sound : Sound canon s) (standing : o ∈ s.outcomes) :
    (∃ e, (s.effects.find? fun e => e.operation = .constitute &&
        e.result.outcome_id? = some o.id && e.principal = principal) = some e) ↔
      o.principal = principal := by
  constructor
  · rintro ⟨e, found⟩
    have row := List.find?_some found
    simp only [Bool.and_eq_true, decide_eq_true_eq] at row
    have effects := effects_of_named sound standing (List.mem_of_find?_eq_some found) row.1.1 row.1.2
    exact effects.principal.symm.trans row.2
  · intro mine
    obtain ⟨e, there, effects⟩ := sound.effected o standing
    obtain ⟨_, _, disposes⟩ := sound.disposes o standing
    refine Option.isSome_iff_exists.mp (List.find?_isSome.mpr ⟨e, there, ?_⟩)
    simp [effects.operation, effects.result, EffectResult.outcome_id?, disposes.result,
      effects.principal, mine]

end Effect

/-! ### A command about an item that has its outcome -/

/-- The authority lets the caller look the item up, and constitute. -/
structure Admits (auth : Authority) (context : Context) : Prop where
  beforeMetadata : auth.beforeMetadata = .ok ()
  lookup : ∃ current, auth.resolve .lookup_operation none = .ok current
  lookup_in : ∃ current, auth.resolve .lookup_operation (some context) = .ok current
  constitute_in : ∃ current, auth.resolve .constitute (some context) = .ok current

/-- The text of the command is told from every other. -/
def Told (canon : Canon) (command : Command) : Prop :=
  ∀ other, canon.fingerprint (canon.command other) = canon.fingerprint (canon.command command) →
    other = command

/-- The call goes on to tell the outcome, its intention is on record, and nothing else is added. -/
structure Answers (canon : Canon) (w w' : World) (c : Call) (o : Outcome) (e : Effect) : Prop where
  effects : Effects o e
  stage : ∃ c' ∈ w'.calls, c'.id = c.id ∧ c'.stage = .replaying e.id
  nothing_else : ∃ added : Option Intention,
    w'.data = { w.data with intentions := w.data.intentions ++ added.toList }
  recorded : ∀ key ∈ c.request.clientKey, ∃ i,
    w'.data.intention c.principal .constitute key = some i ∧ i.effect_id = e.id ∧
      i.fingerprint = canon.fingerprint (canon.command c.request.command)

/-- Whenever the call goes on, it is answered with the outcome, and that adds nothing. -/
def Tells (canon : Canon) (w : World) (id : Nat) (o : Outcome) (e : Effect) : Prop :=
  ∀ ts u, Run (step canon) w ts u → ∀ c ∈ u.calls, c.id = id → c.stage = .replaying e.id →
    ∀ (auth : Authority) (drawn : Drawn) (now : Nat) (u' : World), auth.clock = .ok () →
      step canon u (.advance id auth drawn now) = some u' →
        u'.data = u.data ∧ ∃ c' ∈ u'.calls, c'.id = id ∧
          c'.stage = .answered (.ok (.known e (.constituted o.result)))

/-- What a call goes on with, it is itself. -/
theorem mem_advanced {id : Nat} {drawn : Drawn} (fair : Fair canon w) {c : Call} (member : c ∈ w.calls)
    (is_id : c.id = id) (taken : step canon w (.advance id auth drawn now) = some w') :
    w'.data = (turnOf canon auth drawn now w c).1 ∧
      ∃ c' ∈ w'.calls, c'.id = id ∧ c'.stage = (turnOf canon auth drawn now w c).2 := by
  obtain ⟨found, there, same, -, -, -, data, calls⟩ := advance_eq taken
  obtain rfl : found = c := Rows.eq_of_key fair.ids there member (same.trans is_id.symm)
  refine ⟨data, { found with stage := (turnOf canon auth drawn now w found).2, snapshot := none }, ?_,
    is_id, rfl⟩
  rw [calls]
  exact Rows.mem_update.mpr (.inr ⟨found, there, decide_eq_true same, rfl⟩)

theorem commit_none (d : Data) : d.commit .none = some d := rfl

theorem replaying_tells {o : Outcome} {e : Effect} (fair : Fair canon w) (locked : Locked w)
    (id : Nat) (existing : e ∈ w.data.effects) (effects : Effects o e) : Tells canon w id o e := by
  intro ts u run c member is_id stage auth drawn now u' clock taken
  obtain ⟨later, grown, -⟩ := run_fair run fair
  have idle := (run_locked run fair locked).2.idle c member (by rw [stage]; rfl)
  obtain ⟨data, c', member', is_id', stage'⟩ := mem_advanced later member is_id taken
  have found := effect_eq later.sound (grown.effects.subset existing)
  have done : piece canon auth drawn now (c.snapshot.getD u.data) c =
      .ok (.answered (.ok (.known e e.result)), .none) := by
    simp only [piece, stage, idle, Option.getD_none, clock, found]
    rfl
  rw [turnOf, done] at data stage'
  exact ⟨data, c', member', is_id', by rw [stage', ← effects.result]; rfl⟩

section Opening

variable {principal : String} {s : Data} {request : Request} {reference : Exact}
  {prior : Option Exact} {p : Proposal} {o : Outcome}

/-- Two proposals of one item are of one context. -/
theorem context_of_slot (sound : Sound canon s) {p' : Proposal} (proposed : p ∈ s.proposals)
    (proposed' : p' ∈ s.proposals) (same : p.slot_id = p'.slot_id) : p.context = p'.context := by
  obtain ⟨item, froze⟩ := sound.froze p proposed
  obtain ⟨item', froze'⟩ := sound.froze p' proposed'
  obtain ⟨row, there, reference, context, -⟩ := froze.prepared
  obtain ⟨row', there', reference', context', -⟩ := froze'.prepared
  obtain ⟨slot, among, is_slot, id, revision, -⟩ := froze.slot
  obtain ⟨slot', among', is_slot', id', revision', -⟩ := froze'.slot
  have one : slot = slot' := Rows.eq_of_key sound.slot_ids among among'
    (is_slot.trans (same.trans is_slot'.symm))
  have row_eq : row = row' := Rows.eq_of_key sound.preparations there there'
    (by rw [reference, reference', ← id, ← id', ← revision, ← revision', one])
  rw [← context, ← context', row_eq]

theorem effect_context (sound : Sound canon s) (proposed : p ∈ s.proposals)
    (standing : o ∈ s.outcomes) (slot : o.slot_id = p.slot_id) {e : Effect} (effects : Effects o e) :
    e.context = p.context := by
  obtain ⟨p', proposed', disposes⟩ := sound.disposes o standing
  rw [effects.context, disposes.context]
  exact context_of_slot sound proposed' proposed (disposes.slot.trans slot)

theorem knownEffect_eq (sound : Sound canon s) (proposed : p ∈ s.proposals)
    (standing : o ∈ s.outcomes) (slot : o.slot_id = p.slot_id) (admits : Admits auth p.context)
    {e : Effect} (existing : e ∈ s.effects) (effects : Effects o e) (mine : e.principal = principal) :
    knownEffect auth principal s e.id = .ok e := by
  obtain ⟨current, lookup⟩ := admits.lookup
  obtain ⟨current', lookup_in⟩ := admits.lookup_in
  simp only [knownEffect, lookup, effect_eq sound existing, mine,
    effect_context sound proposed standing slot effects, lookup_in, ensure, decide_true]
  rfl

/-- The command, with its proposal and the outcome in the tables. -/
structure Standing (canon : Canon) (auth : Authority) (principal : String) (s : Data)
    (request : Request) (p : Proposal) (o : Outcome) : Prop where
  asked : ∃ prior, request.command = .constitute ⟨p.id, 1, p.sha256⟩ prior
  proposed : p ∈ s.proposals
  mine : p.principal = principal
  standing : o ∈ s.outcomes
  slot : o.slot_id = p.slot_id
  admits : Admits auth p.context

theorem open_fresh (sound : Sound canon s) (at_item : Standing canon auth principal s request p o)
    (unused : intended principal s request = none) :
    openCommand canon auth principal s request =
      match s.effects.find? fun e => e.operation = .constitute &&
          e.result.outcome_id? = some o.id && e.principal = principal with
      | none => .error .unavailable
      | some existing => do
        let effect ← knownEffect auth principal s existing.id
        return .replayed effect (recordIntention canon principal request existing.id) := by
  obtain ⟨prior, asked⟩ := at_item.asked
  obtain ⟨current, lookup⟩ := at_item.admits.lookup
  obtain ⟨current', lookup_in⟩ := at_item.admits.lookup_in
  have found : s.proposal p.id = some p := Rows.find?_of_key sound.proposals at_item.proposed
  have resolved := outcomeOf_eq sound at_item.standing
  rw [at_item.slot] at resolved
  simp only [openCommand, unused, asked, at_item.admits.beforeMetadata, openConstitute, lookup, found,
    at_item.mine, ensure, decide_true, Bool.and_self, if_true, lookup_in, resolved, bind, Except.bind]
  all_goals rfl

/-- What the person who constituted is told. -/
theorem open_mine (sound : Sound canon s) (at_item : Standing canon auth principal s request p o)
    (unused : intended principal s request = none) (mine : o.principal = principal) :
    ∃ e ∈ s.effects, Effects o e ∧ openCommand canon auth principal s request =
      .ok (.replayed e (recordIntention canon principal request e.id)) := by
  obtain ⟨e, found⟩ := (found_iff principal sound at_item.standing).mpr mine
  have row := List.find?_some found
  simp only [Bool.and_eq_true, decide_eq_true_eq] at row
  have existing := List.mem_of_find?_eq_some found
  have effects := effects_of_named sound at_item.standing existing row.1.1 row.1.2
  refine ⟨e, existing, effects, ?_⟩
  rw [open_fresh sound at_item unused, found]
  simp only [knownEffect_eq sound at_item.proposed at_item.standing at_item.slot at_item.admits existing
    effects row.2]
  rfl

/-- Nobody else is told. -/
theorem open_other (sound : Sound canon s) (at_item : Standing canon auth principal s request p o)
    (unused : intended principal s request = none) (other : o.principal ≠ principal) :
    openCommand canon auth principal s request = .error .unavailable := by
  have nothing := mt (found_iff principal sound at_item.standing).mp other
  rw [open_fresh sound at_item unused]
  split
  · rfl
  · next existing found => exact absurd ⟨existing, found⟩ nothing

/-- The command itself, under its key again. -/
theorem open_known (sound : Sound canon s) (at_item : Standing canon auth principal s request p o)
    (told : Told canon request.command) {i : Intention} (used : intended principal s request = some i)
    (same : i.fingerprint = canon.fingerprint (canon.command request.command)) :
    o.principal = principal ∧ ∃ e ∈ s.effects, Effects o e ∧ e.id = i.effect_id ∧
      openCommand canon auth principal s request = .ok (.known e) := by
  obtain ⟨prior, asked⟩ := at_item.asked
  obtain ⟨current, lookup⟩ := at_item.admits.lookup
  obtain ⟨key, is_key, found⟩ := Option.bind_eq_some_iff.mp used
  have row := List.find?_some found
  simp only [Bool.and_eq_true, decide_eq_true_eq] at row
  obtain ⟨reference', prior', p', proposed', o', standing', e, existing, intends⟩ :=
    sound.intended i (List.mem_of_find?_eq_some found) (by rw [row.1.2, asked]; rfl)
  -- One text, so one command, one proposal and one outcome.
  have command := told _ (intends.fingerprint.symm.trans same)
  obtain ⟨rfl, -⟩ := Command.constitute.inj (command.trans asked)
  obtain rfl : p = p' := Rows.eq_of_key sound.proposals at_item.proposed proposed' intends.names
  obtain rfl : o = o' := Rows.eq_of_key sound.outcomes at_item.standing standing'
    (at_item.slot.trans intends.slot.symm)
  have mine : e.principal = principal := intends.principal.trans row.1.1
  refine ⟨intends.effects.principal.symm.trans mine, e, existing, intends.effects, intends.effect, ?_⟩
  have effect := knownEffect_eq sound at_item.proposed at_item.standing at_item.slot at_item.admits
    existing intends.effects mine
  rw [intends.effect] at effect
  simp only [openCommand, at_item.admits.beforeMetadata, used, known, lookup, same, ensure, decide_true,
    if_true, effect, bind, Except.bind]
  rfl

/-- Another command, under a key that is used. -/
theorem open_conflict (at_item : Standing canon auth principal s request p o) {i : Intention}
    (used : intended principal s request = some i)
    (differs : i.fingerprint ≠ canon.fingerprint (canon.command request.command)) :
    openCommand canon auth principal s request = .error .conflict := by
  obtain ⟨current, lookup⟩ := at_item.admits.lookup
  simp only [openCommand, at_item.admits.beforeMetadata, used, known, lookup, ensure, differs,
    decide_false, Bool.false_eq_true, if_false, bind, Except.bind]

end Opening

/-- A call in an open transaction may go on. -/
theorem advance_taken (auth : Authority) (now : Nat) (fair : Fair canon w) {c : Call} (member : c ∈ w.calls)
    (opening : c.stage = .opening) {s : Data} (snapshot : c.snapshot = some s) (drawn : Drawn) :
    ∃ w', step canon w (.advance c.id auth drawn now) = some w' := by
  have found : w.call c.id = some c := Rows.find?_of_key fair.ids member
  apply Option.isSome_iff_exists.mp
  simp [step, found, opening, snapshot, Stage.transacts]

theorem turnOf_opening {c : Call} (opening : c.stage = .opening) {s : Data}
    (snapshot : c.snapshot = some s) (drawn : Drawn) :
    turnOf canon auth drawn now w c =
      match openCommand canon auth c.principal s c.request with
      | .error failure => (w.data, .answered (.error failure))
      | .ok next => finish w.data (.ok (opened next)) := by
  rw [turnOf, snapshot, Option.getD_some, piece, opening]
  dsimp only
  cases openCommand canon auth c.principal s c.request <;> rfl

theorem operation_of_standing {principal : String} {s : Data} {request : Request} {p : Proposal}
    {o : Outcome} (at_item : Standing canon auth principal s request p o) :
    request.command.operation = .constitute := by
  obtain ⟨prior, asked⟩ := at_item.asked
  rw [asked]
  rfl

/-- The transaction of the person who constituted: one more intention, of the same effect. -/
theorem answers_fresh (fair : Fair canon w) (locked : Locked w) {c : Call} (member : c ∈ w.calls)
    (opening : c.stage = .opening) {s : Data} (snapshot : c.snapshot = some s) {p : Proposal}
    {o : Outcome} (at_item : Standing canon auth c.principal s c.request p o)
    (unused : intended c.principal s c.request = none) (mine : o.principal = c.principal)
    {drawn : Drawn} (taken : step canon w (.advance c.id auth drawn now) = some w') :
    ∃ e, e ∈ w'.data.effects ∧ Answers canon w w' c o e := by
  obtain ⟨sound, grown⟩ := fair.reads c member s snapshot
  obtain ⟨e, existing, effects, opens⟩ := open_mine sound at_item unused mine
  obtain ⟨data, c', member', is_id, stage⟩ := mem_advanced fair member rfl taken
  have there : w.data.effect e.id = some e :=
    effect_eq fair.sound (grown.effects.subset existing)
  rw [turnOf_opening opening snapshot, opens] at data stage
  have operation := operation_of_standing at_item
  cases is_key : c.request.clientKey with
  | none =>
    simp only [recordIntention, is_key, Option.map_none, opened, finish] at data stage
    change w'.data = w.data at data
    refine ⟨e, by rw [data]; exact grown.effects.subset existing, effects, ⟨c', member', is_id, stage⟩,
      ⟨none, by simp [data]⟩, ?_⟩
    rw [is_key]
    simp
  | some key =>
    -- Nobody else had the lock of the key.
    have held : LockKey.intention c.principal c.request.command.operation key ∈ c.held := by
      have keyed := locked.keyed c member
      rw [HoldsKeys, opening] at keyed
      exact keyed _ (intentionKey_mem is_key)
    have free := locked.own c member s snapshot key is_key held
    rw [intended, is_key, Option.bind_some] at unused
    rw [unused] at free
    have committed : w.data.commit { Changes.none with
        intention := recordIntention canon c.principal c.request e.id } =
        some { w.data with intentions := w.data.intentions ++
          (recordIntention canon c.principal c.request e.id).toList } := by
      simp only [recordIntention, is_key, Option.map_some]
      change w.data.insertIntention _ = _
      rw [Data.insertIntention]
      simp only [free, there, Option.isSome_none, Option.isNone_some, Bool.or_self,
        Bool.false_eq_true, if_false]
      rfl
    simp only [opened, finish, committed] at data stage
    refine ⟨e, by rw [data]; exact grown.effects.subset existing, effects, ⟨c', member', is_id, stage⟩,
      ⟨_, data⟩, ?_⟩
    intro key' is_key'
    obtain rfl := Option.some.inj (is_key.symm.trans is_key')
    rw [operation, Data.intention] at free
    refine ⟨⟨c.principal, c.request.command.operation, key,
      canon.fingerprint (canon.command c.request.command), e.id⟩, ?_, rfl, rfl⟩
    rw [data, recordIntention, is_key, Option.map_some, Option.toList_some, Data.intention,
      List.find?_append, free, Option.none_or, List.find?_cons_of_pos (by simp [operation])]

/-- The same command under its key again. -/
theorem answers_known (fair : Fair canon w) (locked : Locked w) {c : Call} (member : c ∈ w.calls)
    (opening : c.stage = .opening) {s : Data} (snapshot : c.snapshot = some s) {p : Proposal}
    {o : Outcome} (at_item : Standing canon auth c.principal s c.request p o)
    (told : Told canon c.request.command) {i : Intention}
    (used : intended c.principal s c.request = some i)
    (same : i.fingerprint = canon.fingerprint (canon.command c.request.command))
    {drawn : Drawn} (taken : step canon w (.advance c.id auth drawn now) = some w') :
    o.principal = c.principal ∧ ∃ e, e ∈ w'.data.effects ∧ Answers canon w w' c o e := by
  obtain ⟨sound, grown⟩ := fair.reads c member s snapshot
  obtain ⟨mine, e, existing, effects, is_effect, opens⟩ := open_known sound at_item told used same
  obtain ⟨data, c', member', is_id, stage⟩ := mem_advanced fair member rfl taken
  rw [turnOf_opening opening snapshot, opens] at data stage
  simp only [opened, finish, commit_none] at data stage
  refine ⟨mine, e, by rw [data]; exact grown.effects.subset existing, effects,
    ⟨c', member', is_id, stage⟩, ⟨none, by simp [data]⟩, ?_⟩
  intro key is_key
  have held : LockKey.intention c.principal c.request.command.operation key ∈ c.held := by
    have keyed := locked.keyed c member
    rw [HoldsKeys, opening] at keyed
    exact keyed _ (intentionKey_mem is_key)
  have kept := locked.own c member s snapshot key is_key held
  rw [intended, Option.mem_def.mp is_key, Option.bind_some] at used
  rw [used, operation_of_standing at_item] at kept
  exact ⟨i, by rw [data]; exact kept, is_effect.symm, same⟩

/-- An item that has its outcome answers a command on any proposal of it with that outcome, and keeps
nothing but the intention, exactly if the caller is the person who constituted it and has not used the
key of the command for another one. -/
theorem standing_outcome_answers (canon : Canon) {ts : List (Transition World Act)} {w : World}
    (run : Run (step canon) ⟨.empty, []⟩ ts w) {c : Call} (member : c ∈ w.calls)
    (opening : c.stage = .opening) {s : Data} (snapshot : c.snapshot = some s) {p : Proposal}
    {o : Outcome} {auth : Authority} (at_item : Standing canon auth c.principal s c.request p o)
    (told : Told canon c.request.command) (drawn : Drawn) (now : Nat) :
    (∃ w' e, step canon w (.advance c.id auth drawn now) = some w' ∧ Answers canon w w' c o e ∧
        Tells canon w' c.id o e) ↔
      o.principal = c.principal ∧ ∀ i ∈ intended c.principal s c.request,
        i.fingerprint = canon.fingerprint (canon.command c.request.command) := by
  obtain ⟨fair, locked⟩ := run_locked run (fair_initial canon) locked_initial
  obtain ⟨w', taken⟩ := advance_taken auth now fair member opening snapshot drawn
  have fair' := (step_fair taken fair).1
  have locked' := step_locked taken fair locked
  constructor
  · rintro ⟨w'', e, taken', answers, -⟩
    obtain rfl := Option.some.inj (taken.symm.trans taken')
    obtain ⟨c', member', is_id, stage⟩ := answers.stage
    obtain ⟨-, c'', member'', is_id', stage'⟩ := mem_advanced fair member rfl taken
    obtain rfl : c' = c'' := Rows.eq_of_key fair'.ids member' member'' (is_id.trans is_id'.symm)
    rw [turnOf_opening opening snapshot] at stage'
    cases used : intended c.principal s c.request with
    | none =>
      refine ⟨?_, by simp⟩
      by_contra other
      rw [open_other (fair.reads c member s snapshot).1 at_item used other] at stage'
      cases stage.symm.trans stage'
    | some i =>
      by_cases same : i.fingerprint = canon.fingerprint (canon.command c.request.command)
      · refine ⟨(answers_known fair locked member opening snapshot at_item told used same taken).1, ?_⟩
        rintro _ ⟨⟩
        exact same
      · rw [open_conflict at_item used same] at stage'
        cases stage.symm.trans stage'
  · rintro ⟨mine, unmistaken⟩
    cases used : intended c.principal s c.request with
    | none =>
      obtain ⟨e, existing, answers⟩ :=
        answers_fresh fair locked member opening snapshot at_item used mine taken
      exact ⟨w', e, taken, answers, replaying_tells fair' locked' c.id existing answers.effects⟩
    | some i =>
      obtain ⟨-, e, existing, answers⟩ := answers_known fair locked member opening snapshot at_item told
        used (unmistaken i used) taken
      exact ⟨w', e, taken, answers, replaying_tells fair' locked' c.id existing answers.effects⟩

/-! ### Both come again -/

/-- A call is about to open a command on a proposal of its own, with the outcome of its slot. -/
def againOpens (principal proposal : String) (command : Command) (outcome : Outcome → Bool)
    (w : World) : Bool :=
  w.calls.any fun c =>
    match c.stage, c.snapshot with
    | .opening, some s =>
      c.principal = principal && c.request.command = command && intended c.principal s c.request = none &&
        s.proposals.any fun p => p.id = proposal && p.sha256 = "d" && p.principal = principal &&
          s.outcomes.any fun o => o.slot_id = p.slot_id && outcome o
    | _, _ => false

theorem standing_of_again (canon : Canon) {principal proposal : String} {prior : Option Exact} {outcome : Outcome → Bool}
    (again : againOpens principal proposal (.constitute ⟨proposal, 1, "d"⟩ prior) outcome w = true) :
    ∃ c ∈ w.calls, c.stage = .opening ∧ ∃ s, c.snapshot = some s ∧ c.principal = principal ∧
      c.request.command = .constitute ⟨proposal, 1, "d"⟩ prior ∧ intended c.principal s c.request = none ∧
      ∃ p o, Standing canon openAuthority c.principal s c.request p o ∧ outcome o = true := by
  obtain ⟨c, member, again⟩ := List.any_eq_true.mp again
  split at again
  · next s opening snapshot =>
    simp only [Bool.and_eq_true, decide_eq_true_eq] at again
    obtain ⟨⟨⟨by_principal, asked⟩, unused⟩, again⟩ := again
    obtain ⟨p, proposed, again⟩ := List.any_eq_true.mp again
    simp only [Bool.and_eq_true, decide_eq_true_eq] at again
    obtain ⟨⟨⟨is_proposal, digest⟩, mine⟩, again⟩ := again
    obtain ⟨o, standing, again⟩ := List.any_eq_true.mp again
    simp only [Bool.and_eq_true, decide_eq_true_eq] at again
    refine ⟨c, member, opening, s, snapshot, by_principal, asked, unused, p, o, ?_, again.2⟩
    exact
      { asked := ⟨prior, by rw [asked, is_proposal, digest]⟩
        proposed
        mine := mine.trans by_principal.symm
        standing
        slot := again.1
        admits := ⟨rfl, ⟨_, rfl⟩, ⟨_, rfl⟩, ⟨_, rfl⟩⟩ }
  · cases again

theorem first_again : (perform (step sharedCanon) ⟨.empty, []⟩
    (sharedActs ++ enters 3 "ana" "k2" sharedCommand)).any
    (againOpens "ana" "p1" sharedCommand fun o => o.principal = "ana") = true := by
  decide +kernel

theorem second_again : (perform (step sharedCanon) ⟨.empty, []⟩
    (sharedActs ++ enters 3 "bea" "k" (.constitute ⟨"p2", 1, "d"⟩ none))).any
    (againOpens "bea" "p2" (.constitute ⟨"p2", 1, "d"⟩ none) fun o => o.principal = "ana") = true := by
  decide +kernel

theorem told_shared : Told sharedCanon sharedCommand := by
  intro other same
  by_contra differs
  simp [sharedCanon, differs] at same

/-- Who constituted is told again, under another key. -/
theorem standing_outcome_answers_first : ∃ ts w, Run (step sharedCanon) ⟨.empty, []⟩ ts w ∧
    ∃ c ∈ w.calls, c.principal = "ana" ∧ c.request.command = sharedCommand ∧
      ∃ w' e o, step sharedCanon w (.advance c.id openAuthority (sharedDrawn "9") 0) = some w' ∧
        Answers sharedCanon w w' c o e := by
  obtain ⟨w, performed, again⟩ := (Option.any_eq_true _ _).mp first_again
  have run := run_of_perform _ _ _ _ (Option.mem_def.mp performed)
  obtain ⟨c, member, opening, s, snapshot, by_ana, asked, unused, p, o, at_item, constituted⟩ :=
    standing_of_again sharedCanon again
  obtain ⟨w', e, taken, answers, -⟩ :=
    (standing_outcome_answers sharedCanon run member opening snapshot at_item
      (by rw [asked]; exact told_shared) (sharedDrawn "9") 0).mpr
      ⟨(of_decide_eq_true constituted).trans by_ana.symm, by simp [unused]⟩
  exact ⟨_, w, run, c, member, by_ana, asked, w', e, o, taken, answers⟩

/-- Who proposed it too gets a failure of the service. -/
theorem second_proposer_fails : ∃ ts w, Run (step sharedCanon) ⟨.empty, []⟩ ts w ∧
    ∃ c ∈ w.calls, c.stage = .opening ∧ ∃ s, c.snapshot = some s ∧
      ∃ p o, Standing sharedCanon openAuthority c.principal s c.request p o ∧
        ∃ w', step sharedCanon w (.advance c.id openAuthority (sharedDrawn "9") 0) = some w' ∧
          ∃ c' ∈ w'.calls, c'.id = c.id ∧ c'.stage = .answered (.error .unavailable) := by
  obtain ⟨w, performed, again⟩ := (Option.any_eq_true _ _).mp second_again
  have run := run_of_perform _ _ _ _ (Option.mem_def.mp performed)
  obtain ⟨c, member, opening, s, snapshot, by_bea, -, unused, p, o, at_item, constituted⟩ :=
    standing_of_again sharedCanon again
  obtain ⟨fair, -⟩ := run_locked run (fair_initial sharedCanon) locked_initial
  obtain ⟨w', taken⟩ := advance_taken openAuthority 0 fair member opening snapshot
    (sharedDrawn "9")
  obtain ⟨-, c', member', is_id, stage⟩ := mem_advanced fair member rfl taken
  have other : o.principal ≠ c.principal := by
    rw [of_decide_eq_true constituted, by_bea]
    decide
  rw [turnOf_opening opening snapshot,
    open_other (fair.reads c member s snapshot).1 at_item unused other] at stage
  exact ⟨_, w, run, c, member, opening, s, snapshot, p, o, at_item, w', taken, c', member', is_id, stage⟩

end LedgerDesk.Constitution
