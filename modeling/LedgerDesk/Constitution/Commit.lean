import LedgerDesk.Constitution.World

/-!
# What a commit adds

A commit appends its rows to the tables they belong to, each under a key that was free there. So the
tables only grow, and a row that was once read is still there.
-/
namespace LedgerDesk.Constitution

open Foundation Preparation

variable {d d' : Data}

/-! ### Tables that grow -/

/-- Every table goes on from what it was. -/
structure Grown (d d' : Data) : Prop where
  preparations : d.preparations <+: d'.preparations
  slots : d.slots <+: d'.slots
  proposals : d.proposals <+: d'.proposals
  outcomes : d.outcomes <+: d'.outcomes
  candidates : d.candidates <+: d'.candidates
  relationships : d.relationships <+: d'.relationships
  effects : d.effects <+: d'.effects
  intentions : d.intentions <+: d'.intentions

namespace Grown

theorem refl (d : Data) : Grown d d :=
  ⟨List.prefix_rfl, List.prefix_rfl, List.prefix_rfl, List.prefix_rfl, List.prefix_rfl,
    List.prefix_rfl, List.prefix_rfl, List.prefix_rfl⟩

theorem trans {d'' : Data} (first : Grown d d') (next : Grown d' d'') : Grown d d'' :=
  ⟨first.preparations.trans next.preparations, first.slots.trans next.slots,
    first.proposals.trans next.proposals, first.outcomes.trans next.outcomes,
    first.candidates.trans next.candidates, first.relationships.trans next.relationships,
    first.effects.trans next.effects, first.intentions.trans next.intentions⟩

end Grown

/-! ### Inserts -/

/-- A commit, table by table: what it adds, and under which free keys. -/
structure Committed (d : Data) (changes : Changes) (d' : Data) : Prop where
  preparations : d'.preparations = d.preparations
  slots : d'.slots = d.slots ++ changes.slot.toList
  proposals : d'.proposals = d.proposals ++ changes.proposal.toList
  outcomes : d'.outcomes = d.outcomes ++ changes.outcome.toList
  candidates : d'.candidates = d.candidates ++ changes.candidate.toList
  relationships : d'.relationships = d.relationships ++ changes.relationship.toList
  effects : d'.effects = d.effects ++ changes.effect.toList
  intentions : d'.intentions = d.intentions ++ changes.intention.toList
  slot_free : ∀ row ∈ changes.slot, d.slot row.id = none ∧
    d.slotFor row.preparation_id row.preparation_revision row.unit_key = none
  proposal_free : ∀ row ∈ changes.proposal, d.proposal row.id = none
  outcome_free : ∀ row ∈ changes.outcome,
    (∀ o ∈ d.outcomes, o.id ≠ row.id) ∧ d.outcomeOf row.slot_id = none
  candidate_free : ∀ row ∈ changes.candidate, row.version ≠ 0 ∧
    d.candidate row.unit_id row.version = none ∧
    ∀ c ∈ d.candidates, c.outcome_id ≠ row.outcome_id
  effect_free : ∀ row ∈ changes.effect, d.effect row.id = none
  intention_free : ∀ row ∈ changes.intention,
    d.intention row.principal row.operation row.client_key = none

theorem insertSlot_some {row : Option Slot} (inserted : d.insert? Data.insertSlot row = some d') :
    d' = { d with slots := d.slots ++ row.toList } ∧ ∀ r ∈ row, d.slot r.id = none ∧
      d.slotFor r.preparation_id r.preparation_revision r.unit_key = none := by
  cases row with
  | none =>
    obtain rfl := Option.some.inj inserted
    exact ⟨by simp, by simp⟩
  | some r =>
    simp only [Data.insert?, Data.insertSlot] at inserted
    split at inserted
    · cases inserted
    · next free =>
      simp only [Bool.or_eq_true, not_or, Bool.not_eq_true, Option.isSome_eq_false_iff,
        Option.isNone_iff_eq_none] at free
      obtain rfl := Option.some.inj inserted
      refine ⟨by rw [Option.toList_some], ?_⟩
      rintro _ ⟨⟩
      exact ⟨free.1.1, free.1.2⟩

theorem insertProposal_some {row : Option Proposal}
    (inserted : d.insert? Data.insertProposal row = some d') :
    d' = { d with proposals := d.proposals ++ row.toList } ∧
      ∀ r ∈ row, d.proposal r.id = none := by
  cases row with
  | none =>
    obtain rfl := Option.some.inj inserted
    exact ⟨by simp, by simp⟩
  | some r =>
    simp only [Data.insert?, Data.insertProposal] at inserted
    split at inserted
    · cases inserted
    · next free =>
      simp only [Bool.or_eq_true, not_or, Bool.not_eq_true, Option.isSome_eq_false_iff,
        Option.isNone_iff_eq_none] at free
      obtain rfl := Option.some.inj inserted
      refine ⟨by rw [Option.toList_some], ?_⟩
      rintro _ ⟨⟩
      exact free.1

theorem insertOutcome_some {row : Option Outcome}
    (inserted : d.insert? Data.insertOutcome row = some d') :
    d' = { d with outcomes := d.outcomes ++ row.toList } ∧
      ∀ r ∈ row, (∀ o ∈ d.outcomes, o.id ≠ r.id) ∧ d.outcomeOf r.slot_id = none := by
  cases row with
  | none =>
    obtain rfl := Option.some.inj inserted
    exact ⟨by simp, by simp⟩
  | some r =>
    simp only [Data.insert?, Data.insertOutcome] at inserted
    split at inserted
    · cases inserted
    · next free =>
      simp only [Bool.or_eq_true, not_or, Bool.not_eq_true, Option.isSome_eq_false_iff,
        Option.isNone_iff_eq_none, List.any_eq_false, decide_eq_true_eq] at free
      obtain rfl := Option.some.inj inserted
      refine ⟨by rw [Option.toList_some], ?_⟩
      rintro _ ⟨⟩
      exact ⟨free.1.1.1, free.1.1.2⟩

theorem insertCandidate_some {row : Option Candidate}
    (inserted : d.insert? Data.insertCandidate row = some d') :
    d' = { d with candidates := d.candidates ++ row.toList } ∧
      ∀ r ∈ row, r.version ≠ 0 ∧ d.candidate r.unit_id r.version = none ∧
        ∀ c ∈ d.candidates, c.outcome_id ≠ r.outcome_id := by
  cases row with
  | none =>
    obtain rfl := Option.some.inj inserted
    exact ⟨by simp, by simp⟩
  | some r =>
    simp only [Data.insert?, Data.insertCandidate] at inserted
    split at inserted
    · cases inserted
    · next free =>
      simp only [Bool.or_eq_true, not_or, Bool.not_eq_true, Option.isSome_eq_false_iff,
        Option.isNone_iff_eq_none, List.any_eq_false, decide_eq_true_eq] at free
      obtain rfl := Option.some.inj inserted
      refine ⟨by rw [Option.toList_some], ?_⟩
      rintro _ ⟨⟩
      exact ⟨free.1.1.1.1, free.1.1.1.2, free.1.1.2⟩

theorem insertRelationship_some {row : Option Relationship}
    (inserted : d.insert? Data.insertRelationship row = some d') :
    d' = { d with relationships := d.relationships ++ row.toList } := by
  cases row with
  | none =>
    obtain rfl := Option.some.inj inserted
    simp
  | some r =>
    simp only [Data.insert?, Data.insertRelationship] at inserted
    split at inserted
    · cases inserted
    · exact (Option.some.inj inserted).symm

theorem insertEffect_some {row : Option Effect}
    (inserted : d.insert? Data.insertEffect row = some d') :
    d' = { d with effects := d.effects ++ row.toList } ∧ ∀ r ∈ row, d.effect r.id = none := by
  cases row with
  | none =>
    obtain rfl := Option.some.inj inserted
    exact ⟨by simp, by simp⟩
  | some r =>
    simp only [Data.insert?, Data.insertEffect] at inserted
    split at inserted
    · cases inserted
    · next free =>
      simp only [Bool.not_eq_true, Option.isSome_eq_false_iff, Option.isNone_iff_eq_none] at free
      obtain rfl := Option.some.inj inserted
      refine ⟨by rw [Option.toList_some], ?_⟩
      rintro _ ⟨⟩
      exact free

theorem insertIntention_some {row : Option Intention}
    (inserted : d.insert? Data.insertIntention row = some d') :
    d' = { d with intentions := d.intentions ++ row.toList } ∧
      ∀ r ∈ row, d.intention r.principal r.operation r.client_key = none := by
  cases row with
  | none =>
    obtain rfl := Option.some.inj inserted
    exact ⟨by simp, by simp⟩
  | some r =>
    simp only [Data.insert?, Data.insertIntention] at inserted
    split at inserted
    · cases inserted
    · next free =>
      simp only [Bool.or_eq_true, not_or, Bool.not_eq_true, Option.isSome_eq_false_iff,
        Option.isNone_iff_eq_none] at free
      obtain rfl := Option.some.inj inserted
      refine ⟨by rw [Option.toList_some], ?_⟩
      rintro _ ⟨⟩
      exact free.1

theorem commit_some {changes : Changes} (committed : d.commit changes = some d') :
    Committed d changes d' := by
  simp only [Data.commit, Option.bind_eq_bind, Option.bind_eq_some_iff] at committed
  obtain ⟨d₁, slot, d₂, proposal, d₃, outcome, d₄, candidate, d₅, relationship, d₆, effect,
    intention⟩ := committed
  obtain ⟨rfl, slot_free⟩ := insertSlot_some slot
  obtain ⟨rfl, proposal_free⟩ := insertProposal_some proposal
  obtain ⟨rfl, outcome_free⟩ := insertOutcome_some outcome
  obtain ⟨rfl, candidate_free⟩ := insertCandidate_some candidate
  obtain rfl := insertRelationship_some relationship
  obtain ⟨rfl, effect_free⟩ := insertEffect_some effect
  obtain ⟨rfl, intention_free⟩ := insertIntention_some intention
  -- Each insert looks only at its own table, which no insert before it changed.
  simp only [Data.proposal, Data.outcomeOf, Data.candidate, Data.effect, Data.intention]
    at proposal_free outcome_free candidate_free effect_free intention_free
  exact
    { preparations := rfl, slots := rfl, proposals := rfl, outcomes := rfl, candidates := rfl
      relationships := rfl, effects := rfl, intentions := rfl
      slot_free, proposal_free, outcome_free, candidate_free, effect_free, intention_free }

theorem Committed.grown {changes : Changes} (committed : Committed d changes d') : Grown d d' where
  preparations := committed.preparations ▸ List.prefix_rfl
  slots := by rw [committed.slots]; exact List.prefix_append _ _
  proposals := by rw [committed.proposals]; exact List.prefix_append _ _
  outcomes := by rw [committed.outcomes]; exact List.prefix_append _ _
  candidates := by rw [committed.candidates]; exact List.prefix_append _ _
  relationships := by rw [committed.relationships]; exact List.prefix_append _ _
  effects := by rw [committed.effects]; exact List.prefix_append _ _
  intentions := by rw [committed.intentions]; exact List.prefix_append _ _

theorem insertPreparation_some {row : PreparationRow}
    (inserted : d.insertPreparation row = some d') :
    d' = { d with preparations := d.preparations ++ [row] } ∧
      d.preparation row.reference.id row.reference.revision = none := by
  rw [Data.insertPreparation] at inserted
  split at inserted
  · cases inserted
  · next free =>
    simp only [Bool.not_eq_true, Option.isSome_eq_false_iff, Option.isNone_iff_eq_none] at free
    exact ⟨(Option.some.inj inserted).symm, free⟩

end LedgerDesk.Constitution
