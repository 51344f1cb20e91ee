import LedgerDesk.Constitution.Uniqueness

/-!
# What a piece of a call does

Every piece, whatever the authority answers and whatever is drawn, goes on with rows that are there and
adds rows that are in order.
-/
namespace LedgerDesk.Constitution

open Foundation Preparation

variable {canon : Canon} {auth : Authority} {drawn : Drawn} {now : Nat} {principal : String}
  {d d' : Data}

/-! ### What is read is there -/

theorem admitPrepared_ok {reference found : Exact}
    (admitted : admitPrepared auth d reference = .ok found) : found = reference := by
  rw [admitPrepared] at admitted
  obtain ⟨context, -, admitted⟩ := except_bind_eq_ok.mp admitted
  split at admitted
  · cases admitted
  · next row known =>
    obtain ⟨-, -, admitted⟩ := except_bind_eq_ok.mp admitted
    obtain ⟨-, -, admitted⟩ := except_bind_eq_ok.mp admitted
    obtain ⟨_, same, admitted⟩ := except_bind_eq_ok.mp admitted
    have sha256 := of_decide_eq_true (ensure_eq_ok.mp same)
    have key := List.find?_some known
    simp only [Bool.and_eq_true, decide_eq_true_eq] at key
    have whole : row.reference = reference := by
      cases reference
      cases at_row : row.reference
      rw [at_row] at key sha256
      simp_all
    split at admitted
    · obtain ⟨-, -, admitted⟩ := except_bind_eq_ok.mp admitted
      rw [← Except.ok.inj admitted, whole]
    · rw [← Except.ok.inj admitted, whole]

theorem materialize_ok {reference : Exact} {row : PreparationRow}
    (read : materialize d reference = .ok row) :
    row ∈ d.preparations ∧ row.reference = reference := by
  rw [materialize] at read
  split at read
  · next found known =>
    obtain rfl := Except.ok.inj read
    exact ⟨List.mem_of_find?_eq_some known, by simpa using List.find?_some known⟩
  · cases read

theorem readCandidate_ok {found candidate : Candidate} {version : Exact}
    {retained : PreparationRow}
    (read : readCandidate canon d found version retained = .ok candidate) :
    candidate ∈ d.candidates := by
  rw [readCandidate] at read
  split at read
  · cases read
  · next row known =>
    obtain ⟨_, -, read⟩ := except_bind_eq_ok.mp read
    split at read
    · cases read
    · obtain ⟨_, -, read⟩ := except_bind_eq_ok.mp read
      obtain ⟨_, -, read⟩ := except_bind_eq_ok.mp read
      rw [← Except.ok.inj read]
      exact List.mem_of_find?_eq_some known

theorem knownEffect_ok {id : String} {effect : Effect}
    (known : knownEffect auth principal d id = .ok effect) :
    d.effect id = some effect ∧ effect.principal = principal := by
  rw [knownEffect] at known
  obtain ⟨-, -, known⟩ := except_bind_eq_ok.mp known
  split at known
  · cases known
  · next row found =>
    obtain ⟨_, same, known⟩ := except_bind_eq_ok.mp known
    obtain ⟨-, -, known⟩ := except_bind_eq_ok.mp known
    obtain rfl := Except.ok.inj known
    exact ⟨found, of_decide_eq_true (ensure_eq_ok.mp same)⟩

theorem openConstitute_ok {request : Request} {reference : Exact} {next : Opened}
    (opening : openConstitute canon auth principal d request reference = .ok next) :
    ∃ proposal ∈ d.proposals, proposal.id = reference.id ∧ proposal.principal = principal ∧
      ((∃ previous ∈ d.outcomes, previous.slot_id = proposal.slot_id ∧ ∃ existing ∈ d.effects,
          existing.operation = .constitute ∧ existing.result.outcome_id? = some previous.id ∧
            existing.principal = principal ∧ ∃ effect, effect.id = existing.id ∧
            next = .replayed effect (recordIntention canon principal request existing.id)) ∨
        next = .constituting proposal) := by
  rw [openConstitute] at opening
  obtain ⟨-, -, opening⟩ := except_bind_eq_ok.mp opening
  split at opening
  · cases opening
  · next proposal found =>
    obtain ⟨_, own, opening⟩ := except_bind_eq_ok.mp opening
    obtain ⟨-, -, opening⟩ := except_bind_eq_ok.mp opening
    obtain ⟨-, -, opening⟩ := except_bind_eq_ok.mp opening
    refine ⟨proposal, List.mem_of_find?_eq_some found, by simpa using List.find?_some found,
      of_decide_eq_true (ensure_eq_ok.mp own), ?_⟩
    split at opening
    · next previous standing =>
      split at opening
      · cases opening
      · next existing known =>
        obtain ⟨effect, is_effect, opening⟩ := except_bind_eq_ok.mp opening
        have row := List.find?_some known
        simp only [Bool.and_eq_true, decide_eq_true_eq] at row
        exact .inl ⟨previous, List.mem_of_find?_eq_some standing,
          by simpa using List.find?_some standing, existing, List.mem_of_find?_eq_some known,
          row.1.1, row.1.2, row.2, effect,
          by simpa using List.find?_some (knownEffect_ok is_effect).1,
          (Except.ok.inj opening).symm⟩
    · obtain ⟨_, -, opening⟩ := except_bind_eq_ok.mp opening
      exact .inr (Except.ok.inj opening).symm

/-! ### What a call carries -/

/-- The command is about the proposal. -/
def Named (command : Command) (p : Proposal) : Prop :=
  ∃ reference prior, command = .constitute reference prior ∧ reference.id = p.id

/-- The proposal is there, and the preparation is its. -/
def Carries (d : Data) (command : Command) (proposal : Option Proposal) (reference : Exact) : Prop :=
  ∀ p ∈ proposal, p ∈ d.proposals ∧ Named command p ∧ reference = p.body.preparation

/-- What a stage goes on with is in the tables. -/
def Stage.Holds (d : Data) (command : Command) : Stage → Prop
  | .naming p | .choosing p => p ∈ d.proposals ∧ Named command p
  | .reading proposal reference => Carries d command proposal reference
  | .comparing proposal prepared | .readingCandidate proposal prepared _ _
  | .settling proposal prepared _ _ =>
    Carries d command proposal prepared.reference ∧ prepared ∈ d.preparations
  | _ => True

theorem Carries.grown {command : Command} {proposal : Option Proposal} {reference : Exact}
    (carries : Carries d command proposal reference) (grown : Grown d d') :
    Carries d' command proposal reference := by
  intro p member
  obtain ⟨there, rest⟩ := carries p member
  exact ⟨grown.proposals.subset there, rest⟩

theorem Stage.Holds.grown {command : Command} {stage : Stage} (holds : stage.Holds d command)
    (grown : Grown d d') : stage.Holds d' command := by
  cases stage with
  | naming p | choosing p => exact ⟨grown.proposals.subset holds.1, holds.2⟩
  | reading proposal reference => exact Carries.grown holds grown
  | comparing proposal prepared | readingCandidate proposal prepared _ _
  | settling proposal prepared _ _ =>
    exact ⟨holds.1.grown grown, grown.preparations.subset holds.2⟩
  | probing | locking | opening | replaying | answered => trivial

/-! ### What a last transaction adds -/

theorem lawful_none : Lawful canon d .none where
  proposal _ := nofun
  outcome _ := nofun
  candidate _ := nofun
  effect _ := nofun
  intention _ := nofun

/-- The outcome that a slot has, for one more key. -/
theorem replayed_lawful (sound : Sound canon d) {request : Request} {reference : Exact}
    {prior : Option Exact} {p : Proposal} {o : Outcome} {e : Effect}
    (asked : request.command = .constitute reference prior) (proposed : p ∈ d.proposals)
    (named : p.id = reference.id) (standing : o ∈ d.outcomes) (slot : o.slot_id = p.slot_id)
    (existing : e ∈ d.effects) (constituting : e.operation = .constitute)
    (outcome : e.result.outcome_id? = some o.id) (mine : e.principal = principal) :
    Lawful canon d
      { Changes.none with intention := recordIntention canon principal request e.id } where
  proposal _ := nofun
  outcome _ := nofun
  candidate _ := nofun
  effect _ := nofun
  intention i is_intention _ := by
    obtain ⟨key, -, rfl⟩ := Option.map_eq_some_iff.mp is_intention
    obtain ⟨o', held, effects⟩ := sound.effect_of e existing constituting
    -- The effect names its outcome, which is the one of the slot.
    have one : o' = o := by
      obtain ⟨_, _, disposes⟩ := sound.disposes o' held
      rw [effects.result, EffectResult.outcome_id?, disposes.result] at outcome
      exact Rows.eq_of_key sound.outcome_ids held standing (Option.some.inj outcome)
    subst one
    exact ⟨reference, prior, p, proposed, o', List.mem_append_left _ held, e,
      List.mem_append_left _ existing, by rw [asked], named.symm, slot, rfl, mine, effects⟩

theorem effectOf_ok {request : Request} {context : Context} {result : EffectResult}
    {effect : Effect}
    (made : effectOf canon drawn principal request context result = .ok effect) :
    effect.principal = principal ∧ effect.context = context ∧
      effect.operation = request.command.operation ∧ effect.result = result ∧
      effect.id = drawn.operation := by
  rw [effectOf] at made
  obtain ⟨reference, -, made⟩ := except_bind_eq_ok.mp made
  rw [← Except.ok.inj made]
  exact ⟨rfl, rfl, rfl, rfl, rfl⟩

theorem slotOf_ok {prepared : PreparationRow} {item : Item} {target : Target} {slot : Slot × Bool}
    (found : slotOf drawn d prepared item target = .ok slot) :
    slot.1 ∈ d.slots ++ (if slot.2 then some slot.1 else none).toList ∧
      slot.1.preparation_id = prepared.reference.id ∧
      slot.1.preparation_revision = prepared.reference.revision ∧ slot.1.unit_key = item.key := by
  rw [slotOf] at found
  split at found
  · next row known =>
    split at found
    · obtain rfl := Except.ok.inj found
      have key := List.find?_some known
      simp only [Bool.and_eq_true, decide_eq_true_eq] at key
      exact ⟨List.mem_append_left _ (List.mem_of_find?_eq_some known), key.1.1, key.1.2, key.2⟩
    · cases found
  · obtain rfl := Except.ok.inj found
    exact ⟨by simp, rfl, rfl, rfl⟩

theorem settlePropose_lawful {request : Request} {prepared : PreparationRow} {unit : String}
    {target : Target} {judgment : Judgment} {item : Item} {existing : Option Candidate}
    {changes : Changes} {answer : Answer} (held : prepared ∈ d.preparations)
    (closed : proposalItem prepared.payload unit = .ok item)
    (proposes : request.command.operation = .propose)
    (settled : settlePropose canon auth drawn principal d request prepared unit target judgment item
      existing = .ok (changes, answer)) :
    Lawful canon d changes ∧ ∀ i ∈ changes.intention, ∃ effect_id,
      recordIntention canon principal request effect_id = some i := by
  rw [settlePropose] at settled
  obtain ⟨disposition, -, settled⟩ := except_bind_eq_ok.mp settled
  obtain ⟨slot, found, settled⟩ := except_bind_eq_ok.mp settled
  obtain ⟨_, -, settled⟩ := except_bind_eq_ok.mp settled
  obtain ⟨reference, -, settled⟩ := except_bind_eq_ok.mp settled
  obtain ⟨effect, made, settled⟩ := except_bind_eq_ok.mp settled
  obtain ⟨_, -, settled⟩ := except_bind_eq_ok.mp settled
  obtain ⟨rfl, -⟩ := Prod.mk.inj (Except.ok.inj settled)
  obtain ⟨there, preparation_id, preparation_revision, key⟩ := slotOf_ok found
  refine ⟨⟨?_, fun _ => nofun, fun _ => nofun, ?_, ?_⟩, fun i is_intention => ⟨_, is_intention⟩⟩
  · rintro _ ⟨⟩
    exact ⟨item, ⟨prepared, held, rfl, rfl, closed⟩, rfl, slot.1, there, rfl, preparation_id,
      preparation_revision, key⟩
  · rintro _ ⟨⟩ constituting
    rw [(effectOf_ok made).2.2.1, proposes] at constituting
    cases constituting
  · intro i is_intention constituting
    obtain ⟨_, -, rfl⟩ := Option.map_eq_some_iff.mp is_intention
    rw [proposes] at constituting
    cases constituting

/-- The item that is constituted is the one that was frozen. -/
theorem froze_of_prepared (sound : Sound canon d) {p : Proposal} (member : p ∈ d.proposals)
    {prepared : PreparationRow} (held : prepared ∈ d.preparations)
    (reference : prepared.reference = p.body.preparation) {item : Item}
    (closed : proposalItem prepared.payload p.body.unit = .ok item) : Froze canon d p item := by
  obtain ⟨frozen, froze⟩ := sound.froze p member
  obtain ⟨row, there, same, -, row_closed⟩ := froze.prepared
  have one : row = prepared :=
    Rows.eq_of_key sound.preparations there held (by rw [same, reference])
  rw [one, closed] at row_closed
  exact (Except.ok.inj row_closed) ▸ froze

theorem candidateReference_some {disposition : Disposition} {body : ProposalBody} {item : Item}
    {version : String × Nat} {reference : Exact}
    (made : candidateReference canon disposition body item version = .ok (some reference)) :
    disposition = .constituted := by
  rw [candidateReference] at made
  split at made
  · next constituted => exact constituted
  · cases made

theorem settleConstitute_lawful {request : Request} {reference : Exact} {p : Proposal}
    {prepared : PreparationRow} {item : Item} {existing : Option Candidate} {changes : Changes}
    {answer : Answer} (sound : Sound canon d) (member : p ∈ d.proposals)
    (held : prepared ∈ d.preparations) (is_prepared : prepared.reference = p.body.preparation)
    (closed : proposalItem prepared.payload p.body.unit = .ok item)
    (read : ∀ c ∈ existing, c ∈ d.candidates) {prior : Option Exact}
    (asked : request.command = .constitute reference prior) (named : reference.id = p.id)
    (settled : settleConstitute canon auth drawn now principal d request reference p item existing =
      .ok (changes, answer)) :
    Lawful canon d changes ∧ ∀ i ∈ changes.intention, ∃ effect_id,
      recordIntention canon principal request effect_id = some i := by
  have constitutes : request.command.operation = .constitute := by rw [asked]; rfl
  rw [settleConstitute] at settled
  obtain ⟨disposition, judged, settled⟩ := except_bind_eq_ok.mp settled
  obtain ⟨_, same, settled⟩ := except_bind_eq_ok.mp settled
  obtain rfl := of_decide_eq_true (ensure_eq_ok.mp same)
  obtain ⟨_, -, settled⟩ := except_bind_eq_ok.mp settled
  split at settled
  · cases settled
  · next slot known =>
    obtain ⟨_, -, settled⟩ := except_bind_eq_ok.mp settled
    obtain ⟨_, -, settled⟩ := except_bind_eq_ok.mp settled
    obtain ⟨_, latest, settled⟩ := except_bind_eq_ok.mp settled
    obtain ⟨candidate, referenced, settled⟩ := except_bind_eq_ok.mp settled
    obtain ⟨outcomeReference, -, settled⟩ := except_bind_eq_ok.mp settled
    obtain ⟨effect, made, settled⟩ := except_bind_eq_ok.mp settled
    obtain ⟨_, -, settled⟩ := except_bind_eq_ok.mp settled
    obtain ⟨rfl, -⟩ := Prod.mk.inj (Except.ok.inj settled)
    obtain ⟨by_caller, in_context, of_operation, of_result, -⟩ := effectOf_ok made
    have is_slot : slot.id = p.slot_id := by simpa using List.find?_some known
    have froze := froze_of_prepared sound member held is_prepared closed
    refine ⟨⟨fun _ => nofun, ?_, ?_, ?_, ?_⟩, fun i is_intention => ⟨_, is_intention⟩⟩
    · rintro _ ⟨⟩
      refine ⟨p, member, ⟨rfl, is_slot.symm, rfl, rfl, rfl, rfl⟩, ?_, ?_, effect, rfl,
        ⟨of_operation.trans constitutes, by_caller, in_context, of_result⟩⟩
      · intro c is_candidate
        obtain ⟨_, is_reference, rfl⟩ := Option.map_eq_some_iff.mp is_candidate
        have constituted := candidateReference_some (is_reference ▸ referenced)
        refine ⟨⟨rfl, constituted, rfl, rfl, rfl, ?_⟩, item, froze, rfl⟩
        rcases constituted_target (constituted ▸ judged) with ⟨declaration, target⟩ |
          ⟨unit_id, version, declaration, target⟩
        · exact .inl ⟨declaration, target, by rw [target]; rfl⟩
        · exact .inr ⟨unit_id, version, declaration, target, by rw [target]; rfl, by rw [target]; rfl⟩
      · intro recorded
        have related : p.body.disposition = .relationship_recorded := by
          revert recorded
          change outcomeKind p.body.disposition = _ → _
          cases p.body.disposition <;> decide
        obtain ⟨compared, is_compared, identity, -⟩ := relationship_same (related ▸ judged)
        obtain ⟨c, is_existing, rfl⟩ := Option.map_eq_some_iff.mp is_compared
        refine ⟨⟨drawn.outcome, c.unit_id, c.version⟩, ?_, rfl, c, read c is_existing, rfl, rfl,
          identity.symm, ?_⟩
        · rw [if_pos related, is_existing]
          rfl
        · rw [outcomeBody, if_pos related, is_existing]
          rfl
    · intro c is_candidate
      obtain ⟨_, is_reference, rfl⟩ := Option.map_eq_some_iff.mp is_candidate
      have constituted := candidateReference_some (is_reference ▸ referenced)
      refine ⟨⟨_, rfl⟩, ?_⟩
      rcases constituted_target (constituted ▸ judged) with ⟨declaration, target⟩ |
        ⟨unit_id, version, declaration, target⟩
      · exact .inl (by rw [target]; rfl)
      · rw [target] at latest ⊢
        have is_latest := of_decide_eq_true (ensure_eq_ok.mp latest)
        exact .inr ⟨d, sound, Grown.refl d, by rw [versionOf, is_latest]⟩
    · rintro _ ⟨⟩ -
      exact ⟨_, rfl, of_operation.trans constitutes, by_caller, in_context, of_result⟩
    · intro i is_intention _
      obtain ⟨_, -, rfl⟩ := Option.map_eq_some_iff.mp is_intention
      exact ⟨reference, prior, p, member, _, List.mem_append_right _ (List.mem_singleton_self _), effect,
        List.mem_append_right _ (List.mem_singleton_self _), by rw [asked], named, is_slot, rfl,
        by_caller, of_operation.trans constitutes, by_caller, in_context, of_result⟩

theorem settle_lawful {c : Call} {proposal : Option Proposal} {prepared : PreparationRow}
    {item : Item} {target : Target} {existing : Option Candidate} {stage : Stage}
    {changes : Changes} (sound : Sound canon d)
    (carries : Carries d c.request.command proposal prepared.reference)
    (held : prepared ∈ d.preparations) (read : ∀ row ∈ existing, row ∈ d.candidates)
    (closed : itemOf canon c proposal prepared = .ok (target, item))
    (settled : settle canon auth drawn now d c proposal prepared item existing =
      .ok (stage, changes)) :
    (Lawful canon d changes ∧ ∀ i ∈ changes.intention, ∃ effect_id,
      recordIntention canon c.principal c.request effect_id = some i) ∧
      ∃ answer, stage = .answered (.ok answer) := by
  rw [settle.eq_def] at settled
  rw [itemOf.eq_def] at closed
  cases asked : c.request.command with
  | propose id revision unit target judgment =>
    simp only [asked] at settled closed
    obtain ⟨row, made, done⟩ := except_bind_eq_ok.mp settled
    obtain ⟨closed_item, is_item, pair⟩ := except_bind_eq_ok.mp closed
    obtain ⟨-, rfl⟩ := Prod.mk.inj (Except.ok.inj pair)
    obtain ⟨rfl, rfl⟩ := Prod.mk.inj (Except.ok.inj done)
    exact ⟨settlePropose_lawful held is_item (by rw [asked]; rfl) made, _, rfl⟩
  | constitute reference prior =>
    cases proposal with
    | none =>
      simp only [asked] at closed
      cases closed
    | some p =>
      simp only [asked] at settled closed
      obtain ⟨row, made, done⟩ := except_bind_eq_ok.mp settled
      obtain ⟨closed_item, is_item, closed⟩ := except_bind_eq_ok.mp closed
      obtain ⟨_, -, pair⟩ := except_bind_eq_ok.mp closed
      obtain ⟨-, rfl⟩ := Prod.mk.inj (Except.ok.inj pair)
      obtain ⟨rfl, rfl⟩ := Prod.mk.inj (Except.ok.inj done)
      obtain ⟨member, ⟨reference', prior', asked', named⟩, same⟩ := carries p rfl
      obtain ⟨rfl, rfl⟩ := Command.constitute.inj (asked.symm.trans asked')
      exact ⟨settleConstitute_lawful sound member held same is_item read asked named made, _, rfl⟩

/-! ### Every piece -/

/-- The stage is past the locks. -/
def Stage.going : Stage → Bool
  | .probing | .locking _ => false
  | _ => true

/-- What a piece adds is in order and the caller's own, and what it goes on with is there. -/
structure Done (canon : Canon) (d : Data) (c : Call) (stage : Stage) (changes : Changes) : Prop where
  lawful : Lawful canon d changes
  holds : stage.Holds d c.request.command
  probed : c.stage = .probing → ∃ keys, stage = .locking (openKeys c ++ keys)
  going : c.stage ≠ .probing → stage.going = true
  own : ∀ i ∈ changes.intention, c.stage ≠ .probing ∧ ∃ effect_id,
    recordIntention canon c.principal c.request effect_id = some i

/-- A piece that only reads. -/
theorem done_reading {c : Call} {stage : Stage} (holds : stage.Holds d c.request.command)
    (probed : c.stage ≠ .probing) (going : stage.going = true) : Done canon d c stage .none where
  lawful := lawful_none
  holds
  probed probing := absurd probing probed
  going _ := going
  own _ := nofun

theorem done_settling {c : Call} {stage : Stage} {changes : Changes}
    (settled : (Lawful canon d changes ∧ ∀ i ∈ changes.intention, ∃ effect_id,
      recordIntention canon c.principal c.request effect_id = some i) ∧
      ∃ answer, stage = .answered (.ok answer)) (probed : c.stage ≠ .probing) :
    Done canon d c stage changes := by
  obtain ⟨⟨lawful, own⟩, answer, rfl⟩ := settled
  exact
    { lawful
      holds := trivial
      probed := fun probing => absurd probing probed
      going := fun _ => rfl
      own := fun i is_intention => ⟨probed, own i is_intention⟩ }

theorem piece_done {c : Call} {stage : Stage} {changes : Changes} (sound : Sound canon d)
    (holds : c.stage.Holds d c.request.command)
    (done : piece canon auth drawn now d c = .ok (stage, changes)) :
    Done canon d c stage changes := by
  rw [piece.eq_def] at done
  cases at_stage : c.stage with
  | probing =>
    simp only [at_stage] at done
    obtain ⟨keys, -, done⟩ := except_bind_eq_ok.mp done
    obtain ⟨rfl, rfl⟩ := Prod.mk.inj (Except.ok.inj done)
    exact
      { lawful := lawful_none
        holds := trivial
        probed := fun _ => ⟨keys, rfl⟩
        going := fun probed => absurd at_stage probed
        own := fun _ => nofun }
  | locking keys =>
    simp only [at_stage] at done
    cases done
  | opening =>
    have probed : c.stage ≠ .probing := by rw [at_stage]; nofun
    simp only [at_stage] at done
    obtain ⟨next, opening, done⟩ := except_bind_eq_ok.mp done
    rw [openCommand] at opening
    obtain ⟨_, -, opening⟩ := except_bind_eq_ok.mp opening
    split at opening
    · obtain ⟨effect, -, opening⟩ := except_bind_eq_ok.mp opening
      obtain rfl := Except.ok.inj opening
      obtain ⟨rfl, rfl⟩ := Prod.mk.inj (Except.ok.inj done)
      exact done_reading trivial probed rfl
    · split at opening
      · next id revision unit target judgment asked =>
        obtain ⟨reference, -, opening⟩ := except_bind_eq_ok.mp opening
        obtain rfl := Except.ok.inj opening
        obtain ⟨rfl, rfl⟩ := Prod.mk.inj (Except.ok.inj done)
        exact done_reading (by simp [Stage.Holds, Carries]) probed rfl
      · next reference prior asked =>
        obtain ⟨proposal, member, named, -, ⟨o, standing, slot, e, existing, constituting, outcome,
          mine, effect, -, rfl⟩ | rfl⟩ := openConstitute_ok opening
        · obtain ⟨rfl, rfl⟩ := Prod.mk.inj (Except.ok.inj done)
          exact
            { lawful := replayed_lawful sound asked member named standing slot existing constituting
                outcome mine
              holds := trivial
              probed := fun probing => absurd probing probed
              going := fun _ => rfl
              own := fun i is_intention => ⟨probed, _, is_intention⟩ }
        · obtain ⟨rfl, rfl⟩ := Prod.mk.inj (Except.ok.inj done)
          exact done_reading ⟨member, reference, prior, asked, named.symm⟩ probed rfl
  | replaying effect_id =>
    simp only [at_stage] at done
    obtain ⟨_, -, done⟩ := except_bind_eq_ok.mp done
    split at done
    · cases done
    · obtain ⟨rfl, rfl⟩ := Prod.mk.inj (Except.ok.inj done)
      exact done_reading trivial (by rw [at_stage]; nofun) rfl
  | naming proposal =>
    have probed : c.stage ≠ .probing := by rw [at_stage]; nofun
    simp only [at_stage] at done holds
    obtain ⟨_, -, done⟩ := except_bind_eq_ok.mp done
    split at done
    · next row reference prior found asked =>
      obtain ⟨_, -, done⟩ := except_bind_eq_ok.mp done
      obtain ⟨rfl, rfl⟩ := Prod.mk.inj (Except.ok.inj done)
      have same : row.id = proposal.id := by simpa using List.find?_some found
      obtain ⟨reference', prior', asked', named⟩ := holds.2
      exact done_reading ⟨List.mem_of_find?_eq_some found, reference', prior', asked',
        named.trans same.symm⟩ probed rfl
    · cases done
  | choosing proposal =>
    have probed : c.stage ≠ .probing := by rw [at_stage]; nofun
    simp only [at_stage] at done holds
    obtain ⟨reference, admitted, done⟩ := except_bind_eq_ok.mp done
    obtain ⟨rfl, rfl⟩ := Prod.mk.inj (Except.ok.inj done)
    refine done_reading ?_ probed rfl
    rintro _ ⟨⟩
    exact ⟨holds.1, holds.2, admitPrepared_ok admitted⟩
  | reading proposal reference =>
    have probed : c.stage ≠ .probing := by rw [at_stage]; nofun
    simp only [at_stage] at done holds
    obtain ⟨_, -, done⟩ := except_bind_eq_ok.mp done
    obtain ⟨prepared, read, done⟩ := except_bind_eq_ok.mp done
    obtain ⟨rfl, rfl⟩ := Prod.mk.inj (Except.ok.inj done)
    obtain ⟨held, same⟩ := materialize_ok read
    exact done_reading ⟨same ▸ holds, held⟩ probed rfl
  | comparing proposal prepared =>
    have probed : c.stage ≠ .probing := by rw [at_stage]; nofun
    simp only [at_stage] at done holds
    obtain ⟨⟨target, item⟩, closed, done⟩ := except_bind_eq_ok.mp done
    cases target with
    | new declaration =>
      exact done_settling (settle_lawful sound holds.1 holds.2 (by simp) closed done) probed
    | existing kind unit_id version declaration =>
      obtain ⟨⟨found, reference⟩, -, done⟩ := except_bind_eq_ok.mp done
      obtain ⟨rfl, rfl⟩ := Prod.mk.inj (Except.ok.inj done)
      exact done_reading holds probed rfl
  | readingCandidate proposal prepared found reference =>
    have probed : c.stage ≠ .probing := by rw [at_stage]; nofun
    simp only [at_stage] at done holds
    obtain ⟨_, -, done⟩ := except_bind_eq_ok.mp done
    obtain ⟨retained, -, done⟩ := except_bind_eq_ok.mp done
    obtain ⟨rfl, rfl⟩ := Prod.mk.inj (Except.ok.inj done)
    exact done_reading holds probed rfl
  | settling proposal prepared found retained =>
    have probed : c.stage ≠ .probing := by rw [at_stage]; nofun
    simp only [at_stage] at done holds
    obtain ⟨⟨target, item⟩, closed, done⟩ := except_bind_eq_ok.mp done
    cases target with
    | new declaration => cases done
    | existing kind unit_id version declaration =>
      obtain ⟨candidate, read, done⟩ := except_bind_eq_ok.mp done
      have there : ∀ row ∈ some candidate, row ∈ d.candidates := by
        rintro _ ⟨⟩
        exact readCandidate_ok read
      exact done_settling (settle_lawful sound holds.1 holds.2 there closed done) probed
  | answered answer =>
    simp only [at_stage] at done
    cases done

end LedgerDesk.Constitution
