import LedgerDesk.Constitution.Commit

/-!
# One outcome for an item, one line of versions for a unit

What the tables say of each other whenever nothing is being committed, and that every commit keeps it.
-/
namespace LedgerDesk.Constitution

open Foundation Preparation

variable {canon : Canon} {d d' : Data}

/-! ### What the rows are of -/

/-- A proposal froze its item, as its slot and its preparation have it. -/
structure Froze (canon : Canon) (d : Data) (p : Proposal) (item : Item) : Prop where
  prepared : ∃ row ∈ d.preparations, row.reference = p.body.preparation ∧ row.context = p.context ∧
    proposalItem row.payload p.body.unit = .ok item
  identity : p.body.identity = itemIdentity canon item p.context
  slot : ∃ s ∈ d.slots, s.id = p.slot_id ∧ s.preparation_id = p.body.preparation.id ∧
    s.preparation_revision = p.body.preparation.revision ∧ s.unit_key = item.key

/-- The outcome disposes of its proposal as the proposal says. -/
structure Disposes (p : Proposal) (o : Outcome) : Prop where
  names : p.id = o.proposal_id
  slot : p.slot_id = o.slot_id
  outcome : o.outcome = outcomeKind p.body.disposition
  block_kind : o.block_kind = blockKind? p.body.disposition
  context : o.context = p.context
  result : o.result.outcome_id = o.id

/-- A candidate is of the item of its proposal. -/
structure Constitutes (p : Proposal) (o : Outcome) (c : Candidate) : Prop where
  outcome : o.id = c.outcome_id
  disposed : p.body.disposition = .constituted
  preparation_id : c.preparation_id = p.body.preparation.id
  preparation_revision : c.preparation_revision = p.body.preparation.revision
  identity : c.content_identity = p.body.identity
  /-- A new unit starts at one, and a successor goes on from the version it names. -/
  version : (∃ declaration, p.body.target = .new declaration ∧ c.version = 1) ∨
    (∃ unit_id version declaration, p.body.target = .existing .successor unit_id version declaration ∧
      c.unit_id = unit_id ∧ c.version = version.revision + 1)

/-- An effect is of its outcome. -/
structure Effects (o : Outcome) (e : Effect) : Prop where
  operation : e.operation = .constitute
  principal : e.principal = o.principal
  context : e.context = o.context
  result : e.result = .constituted o.result

/-- An intention to constitute is of a command about a proposal whose item has its outcome. -/
structure Intends (canon : Canon) (i : Intention) (reference : Exact) (prior : Option Exact)
    (p : Proposal) (o : Outcome) (e : Effect) : Prop where
  fingerprint : i.fingerprint = canon.fingerprint (canon.command (.constitute reference prior))
  names : reference.id = p.id
  slot : o.slot_id = p.slot_id
  effect : e.id = i.effect_id
  principal : e.principal = i.principal
  effects : Effects o e

/-- The versions of a unit, in the order they were made. -/
def versions (d : Data) (unit_id : String) : List Nat :=
  (d.candidates.filter fun c => c.unit_id = unit_id).map Candidate.version

structure Sound (canon : Canon) (d : Data) : Prop where
  preparations :
    (d.preparations.map fun p => (p.reference.id, p.reference.revision)).Nodup
  slot_ids : (d.slots.map Slot.id).Nodup
  slots : (d.slots.map fun s => (s.preparation_id, s.preparation_revision, s.unit_key)).Nodup
  proposals : (d.proposals.map Proposal.id).Nodup
  outcome_ids : (d.outcomes.map Outcome.id).Nodup
  outcomes : (d.outcomes.map Outcome.slot_id).Nodup
  effects : (d.effects.map Effect.id).Nodup
  froze : ∀ p ∈ d.proposals, ∃ item, Froze canon d p item
  disposes : ∀ o ∈ d.outcomes, ∃ p ∈ d.proposals, Disposes p o
  constitutes : ∀ c ∈ d.candidates, ∃ o ∈ d.outcomes, ∃ p ∈ d.proposals, Disposes p o ∧
    Constitutes p o c ∧ ∃ item, Froze canon d p item ∧ c.unit_key = item.key
  versions : ∀ unit_id, versions d unit_id = List.range' 1 (versions d unit_id).length
  related : ∀ o ∈ d.outcomes, o.outcome = .relationship_recorded →
    ∃ r ∈ d.relationships, r.outcome_id = o.id ∧ ∃ c ∈ d.candidates, c.unit_id = r.unit_id ∧
      c.version = r.version ∧ ∃ p ∈ d.proposals, Disposes p o ∧
        c.content_identity = p.body.identity ∧
        o.result.relationships = [(c.reference, p.body.preparation)]
  effected : ∀ o ∈ d.outcomes, ∃ e ∈ d.effects, Effects o e
  effect_of : ∀ e ∈ d.effects, e.operation = .constitute → ∃ o ∈ d.outcomes, Effects o e
  intended : ∀ i ∈ d.intentions, i.operation = .constitute → ∃ reference prior,
    ∃ p ∈ d.proposals, ∃ o ∈ d.outcomes, ∃ e ∈ d.effects, Intends canon i reference prior p o e

theorem sound_empty (canon : Canon) : Sound canon .empty where
  preparations := List.nodup_nil
  slot_ids := List.nodup_nil
  slots := List.nodup_nil
  proposals := List.nodup_nil
  outcome_ids := List.nodup_nil
  outcomes := List.nodup_nil
  effects := List.nodup_nil
  froze := by simp [Data.empty]
  disposes := by simp [Data.empty]
  constitutes := by simp [Data.empty]
  versions := by simp [Data.empty, Constitution.versions]
  related := by simp [Data.empty]
  effected := by simp [Data.empty]
  effect_of := by simp [Data.empty]
  intended := by simp [Data.empty]

/-! ### Rows that may be added -/

/-- What a transaction adds is in order, of the tables it read. -/
structure Lawful (canon : Canon) (d : Data) (changes : Changes) : Prop where
  proposal : ∀ p ∈ changes.proposal, ∃ item,
    (∃ row ∈ d.preparations, row.reference = p.body.preparation ∧ row.context = p.context ∧
      proposalItem row.payload p.body.unit = .ok item) ∧
    p.body.identity = itemIdentity canon item p.context ∧
    ∃ s ∈ d.slots ++ changes.slot.toList, s.id = p.slot_id ∧
      s.preparation_id = p.body.preparation.id ∧
      s.preparation_revision = p.body.preparation.revision ∧ s.unit_key = item.key
  outcome : ∀ o ∈ changes.outcome, ∃ p ∈ d.proposals, Disposes p o ∧
    (∀ c ∈ changes.candidate, Constitutes p o c ∧
      ∃ item, Froze canon d p item ∧ c.unit_key = item.key) ∧
    (o.outcome = .relationship_recorded → ∃ r ∈ changes.relationship, r.outcome_id = o.id ∧
      ∃ c ∈ d.candidates, c.unit_id = r.unit_id ∧ c.version = r.version ∧
        c.content_identity = p.body.identity ∧
        o.result.relationships = [(c.reference, p.body.preparation)]) ∧
    ∃ e ∈ changes.effect, Effects o e
  candidate : ∀ c ∈ changes.candidate, (∃ o, o ∈ changes.outcome) ∧
    (c.version = 1 ∨ ∃ s, Sound canon s ∧ Grown s d ∧ c.version = s.latest c.unit_id + 1)
  effect : ∀ e ∈ changes.effect, e.operation = .constitute → ∃ o ∈ changes.outcome, Effects o e
  intention : ∀ i ∈ changes.intention, i.operation = .constitute → ∃ reference prior,
    ∃ p ∈ d.proposals, ∃ o ∈ d.outcomes ++ changes.outcome.toList,
      ∃ e ∈ d.effects ++ changes.effect.toList, Intends canon i reference prior p o e

theorem Froze.grown {p : Proposal} {item : Item} (froze : Froze canon d p item)
    (grown : Grown d d') : Froze canon d' p item := by
  obtain ⟨⟨row, member, rest⟩, identity, s, among, others⟩ := froze
  exact ⟨⟨row, grown.preparations.subset member, rest⟩, identity, s, grown.slots.subset among, others⟩

theorem Lawful.grown {changes : Changes} (lawful : Lawful canon d changes) (grown : Grown d d') :
    Lawful canon d' changes where
  proposal p member := by
    obtain ⟨item, ⟨row, among, prepared⟩, identity, s, there, slot⟩ := lawful.proposal p member
    refine ⟨item, ⟨row, grown.preparations.subset among, prepared⟩, identity, s, ?_, slot⟩
    rw [List.mem_append] at there ⊢
    exact there.imp (fun old => grown.slots.subset old) id
  outcome o member := by
    obtain ⟨p, among, disposes, candidate, related, effected⟩ := lawful.outcome o member
    refine ⟨p, grown.proposals.subset among, disposes, ?_, ?_, effected⟩
    · intro c is_candidate
      obtain ⟨constitutes, item, froze, key⟩ := candidate c is_candidate
      exact ⟨constitutes, item, froze.grown grown, key⟩
    · intro recorded
      obtain ⟨r, is_related, of_outcome, c, existing, rest⟩ := related recorded
      exact ⟨r, is_related, of_outcome, c, grown.candidates.subset existing, rest⟩
  candidate c member := by
    obtain ⟨outcome, version⟩ := lawful.candidate c member
    refine ⟨outcome, version.imp id ?_⟩
    rintro ⟨s, sound, before, next⟩
    exact ⟨s, sound, before.trans grown, next⟩
  effect := lawful.effect
  intention i member constituting := by
    obtain ⟨reference, prior, p, among, o, held, e, there, intends⟩ :=
      lawful.intention i member constituting
    refine ⟨reference, prior, p, grown.proposals.subset among, o, ?_, e, ?_, intends⟩
    · rw [List.mem_append] at held ⊢
      exact held.imp (fun old => grown.outcomes.subset old) id
    · rw [List.mem_append] at there ⊢
      exact there.imp (fun old => grown.effects.subset old) id

/-! #### Keys that were free -/

theorem nodup_add {ρ κ : Type} [DecidableEq κ] {rows : List ρ} {row : Option ρ} (key : ρ → κ)
    (apart : (rows.map key).Nodup) (free : ∀ r ∈ row, ∀ old ∈ rows, key old ≠ key r) :
    ((rows ++ row.toList).map key).Nodup := by
  cases row with
  | none => simpa using apart
  | some r => exact Rows.nodup_concat apart (free r rfl)

theorem greatest_range' (n b : Nat) : (List.range' 1 n).foldr max b = max n b := by
  induction n generalizing b with
  | zero => simp
  | succ n ih =>
    rw [List.range'_concat, List.foldr_append, ih]
    simp only [List.foldr_cons, List.foldr_nil]
    omega

/-- The latest of an unbroken line is its length. -/
theorem latest_eq {unit_id : String}
    (line : versions d unit_id = List.range' 1 (versions d unit_id).length) :
    d.latest unit_id = (versions d unit_id).length := by
  rw [Data.latest]
  change (versions d unit_id).foldr max 0 = _
  rw [line, greatest_range', List.length_range', Nat.max_zero]

theorem mem_versions {unit_id : String} {version : Nat} :
    version ∈ versions d unit_id ↔
      ∃ c ∈ d.candidates, c.unit_id = unit_id ∧ c.version = version := by
  simp only [versions, List.mem_map, List.mem_filter, decide_eq_true_eq, and_assoc]

theorem versions_grown (grown : Grown d d') (unit_id : String) :
    versions d unit_id <+: versions d' unit_id :=
  (grown.candidates.filter _).map _

/-- A version that was free, next to the latest of what was read, is next to the latest. -/
theorem length_of_next {s : Data} {c : Candidate} (sound : Sound canon d) (read : Sound canon s)
    (grown : Grown s d) (free : d.candidate c.unit_id c.version = none)
    (next : c.version = s.latest c.unit_id + 1) :
    c.version = (versions d c.unit_id).length + 1 := by
  rw [latest_eq (read.versions _)] at next
  have longer := (versions_grown grown c.unit_id).length_le
  by_contra other
  have short : (versions s c.unit_id).length < (versions d c.unit_id).length := by omega
  -- The version after what was read is there already.
  have taken : c.version ∈ versions d c.unit_id := by
    rw [sound.versions c.unit_id, List.mem_range'_1]
    omega
  obtain ⟨old, member, unit, version⟩ := mem_versions.mp taken
  have missing := List.find?_eq_none.mp free old member
  simp [unit, version] at missing

theorem length_of_first {c : Candidate} (sound : Sound canon d)
    (free : d.candidate c.unit_id c.version = none) (first : c.version = 1) :
    c.version = (versions d c.unit_id).length + 1 := by
  by_contra other
  have taken : c.version ∈ versions d c.unit_id := by
    rw [sound.versions c.unit_id, List.mem_range'_1]
    omega
  obtain ⟨old, member, unit, version⟩ := mem_versions.mp taken
  have missing := List.find?_eq_none.mp free old member
  simp [unit, version] at missing

/-- A candidate goes on from the versions its unit had. -/
theorem next_version {changes : Changes} (sound : Sound canon d)
    (committed : Committed d changes d') (lawful : Lawful canon d changes) {c : Candidate}
    (member : c ∈ changes.candidate) : c.version = (versions d c.unit_id).length + 1 := by
  obtain ⟨-, free, -⟩ := committed.candidate_free c member
  rcases (lawful.candidate c member).2 with first | ⟨s, read, grown, next⟩
  · exact length_of_first sound free first
  · exact length_of_next sound read grown free next

theorem versions_committed {changes : Changes} (sound : Sound canon d)
    (committed : Committed d changes d') (lawful : Lawful canon d changes) (unit_id : String) :
    versions d' unit_id = List.range' 1 (versions d' unit_id).length := by
  have whole : versions d' unit_id =
      versions d unit_id ++
        ((changes.candidate.toList.filter fun c => c.unit_id = unit_id).map Candidate.version) := by
    rw [versions, versions, committed.candidates, List.filter_append, List.map_append]
  cases added : changes.candidate with
  | none =>
    rw [added] at whole
    simp only [Option.toList_none, List.filter_nil, List.map_nil, List.append_nil] at whole
    rw [whole]
    exact sound.versions unit_id
  | some c =>
    rw [added] at whole
    by_cases same : c.unit_id = unit_id
    · have next := next_version sound committed lawful (c := c) (by rw [added]; rfl)
      subst same
      simp only [Option.toList_some, List.filter_cons, decide_true, if_true, List.filter_nil,
        List.map_cons, List.map_nil] at whole
      rw [whole, List.length_append, List.length_singleton, List.range'_concat,
        ← sound.versions c.unit_id, next]
      simp [Nat.add_comm]
    · simp only [Option.toList_some, List.filter_cons, same, decide_false, Bool.false_eq_true,
        if_false, List.filter_nil, List.map_nil, List.append_nil] at whole
      rw [whole]
      exact sound.versions unit_id

/-! ### Every commit keeps it -/

theorem Sound.commit {changes : Changes} (sound : Sound canon d)
    (committed : Committed d changes d') (lawful : Lawful canon d changes) : Sound canon d' where
  preparations := by
    rw [committed.preparations]
    exact sound.preparations
  slot_ids := by
    rw [committed.slots]
    refine nodup_add Slot.id sound.slot_ids fun r member old there same => ?_
    have missing := List.find?_eq_none.mp (committed.slot_free r member).1 old there
    simp [same] at missing
  slots := by
    rw [committed.slots]
    refine nodup_add _ sound.slots fun r member old there same => ?_
    have missing := List.find?_eq_none.mp (committed.slot_free r member).2 old there
    simp only [Prod.mk.injEq] at same
    simp [same] at missing
  proposals := by
    rw [committed.proposals]
    refine nodup_add Proposal.id sound.proposals fun r member old there same => ?_
    have missing := List.find?_eq_none.mp (committed.proposal_free r member) old there
    simp [same] at missing
  outcome_ids := by
    rw [committed.outcomes]
    exact nodup_add Outcome.id sound.outcome_ids fun r member =>
      (committed.outcome_free r member).1
  outcomes := by
    rw [committed.outcomes]
    refine nodup_add Outcome.slot_id sound.outcomes fun r member old there same => ?_
    have missing := List.find?_eq_none.mp (committed.outcome_free r member).2 old there
    simp [same] at missing
  effects := by
    rw [committed.effects]
    refine nodup_add Effect.id sound.effects fun r member old there same => ?_
    have missing := List.find?_eq_none.mp (committed.effect_free r member) old there
    simp [same] at missing
  froze p member := by
    rw [committed.proposals, List.mem_append, Option.mem_toList] at member
    rcases member with old | new
    · obtain ⟨item, froze⟩ := sound.froze p old
      exact ⟨item, froze.grown committed.grown⟩
    · obtain ⟨item, ⟨row, among, prepared⟩, identity, s, there, slot⟩ := lawful.proposal p new
      refine ⟨item, ⟨row, committed.grown.preparations.subset among, prepared⟩, identity, s, ?_, slot⟩
      rw [committed.slots]
      exact there
  disposes o member := by
    rw [committed.outcomes, List.mem_append, Option.mem_toList] at member
    rcases member with old | new
    · obtain ⟨p, among, disposes⟩ := sound.disposes o old
      exact ⟨p, committed.grown.proposals.subset among, disposes⟩
    · obtain ⟨p, among, disposes, -⟩ := lawful.outcome o new
      exact ⟨p, committed.grown.proposals.subset among, disposes⟩
  constitutes c member := by
    rw [committed.candidates, List.mem_append, Option.mem_toList] at member
    rcases member with old | new
    · obtain ⟨o, held, p, among, disposes, constitutes, item, froze, key⟩ := sound.constitutes c old
      exact ⟨o, committed.grown.outcomes.subset held, p, committed.grown.proposals.subset among,
        disposes, constitutes, item, froze.grown committed.grown, key⟩
    · obtain ⟨⟨o, is_outcome⟩, -⟩ := lawful.candidate c new
      obtain ⟨p, among, disposes, candidate, -⟩ := lawful.outcome o is_outcome
      obtain ⟨constitutes, item, froze, key⟩ := candidate c new
      refine ⟨o, ?_, p, committed.grown.proposals.subset among, disposes, constitutes, item,
        froze.grown committed.grown, key⟩
      rw [committed.outcomes]
      exact List.mem_append_right _ (Option.mem_toList.mpr is_outcome)
  versions := versions_committed sound committed lawful
  related o member recorded := by
    rw [committed.outcomes, List.mem_append, Option.mem_toList] at member
    rcases member with old | new
    · obtain ⟨r, is_related, of_outcome, c, existing, unit, version, p, among, rest⟩ :=
        sound.related o old recorded
      exact ⟨r, committed.grown.relationships.subset is_related, of_outcome, c,
        committed.grown.candidates.subset existing, unit, version, p,
        committed.grown.proposals.subset among, rest⟩
    · obtain ⟨p, among, disposes, -, related, -⟩ := lawful.outcome o new
      obtain ⟨r, is_related, of_outcome, c, existing, unit, version, same⟩ := related recorded
      refine ⟨r, ?_, of_outcome, c, committed.grown.candidates.subset existing, unit, version, p,
        committed.grown.proposals.subset among, disposes, same⟩
      rw [committed.relationships]
      exact List.mem_append_right _ (Option.mem_toList.mpr is_related)
  effected o member := by
    rw [committed.outcomes, List.mem_append, Option.mem_toList] at member
    rcases member with old | new
    · obtain ⟨e, there, effects⟩ := sound.effected o old
      exact ⟨e, committed.grown.effects.subset there, effects⟩
    · obtain ⟨-, -, -, -, -, e, is_effect, effects⟩ := lawful.outcome o new
      refine ⟨e, ?_, effects⟩
      rw [committed.effects]
      exact List.mem_append_right _ (Option.mem_toList.mpr is_effect)
  effect_of e member constituting := by
    rw [committed.effects, List.mem_append, Option.mem_toList] at member
    rcases member with old | new
    · obtain ⟨o, there, effects⟩ := sound.effect_of e old constituting
      exact ⟨o, committed.grown.outcomes.subset there, effects⟩
    · obtain ⟨o, is_outcome, effects⟩ := lawful.effect e new constituting
      refine ⟨o, ?_, effects⟩
      rw [committed.outcomes]
      exact List.mem_append_right _ (Option.mem_toList.mpr is_outcome)
  intended i member constituting := by
    rw [committed.intentions, List.mem_append, Option.mem_toList] at member
    rcases member with old | new
    · obtain ⟨reference, prior, p, among, o, held, e, there, intends⟩ :=
        sound.intended i old constituting
      exact ⟨reference, prior, p, committed.grown.proposals.subset among, o,
        committed.grown.outcomes.subset held, e, committed.grown.effects.subset there, intends⟩
    · obtain ⟨reference, prior, p, among, o, held, e, there, intends⟩ :=
        lawful.intention i new constituting
      rw [← committed.outcomes] at held
      rw [← committed.effects] at there
      exact ⟨reference, prior, p, committed.grown.proposals.subset among, o, held, e, there, intends⟩

theorem Sound.prepare {row : PreparationRow} (sound : Sound canon d)
    (inserted : d.insertPreparation row = some d') : Sound canon d' ∧ Grown d d' := by
  obtain ⟨rfl, free⟩ := insertPreparation_some inserted
  have grown : Grown d { d with preparations := d.preparations ++ [row] } :=
    { Grown.refl d with preparations := List.prefix_append _ _ }
  refine ⟨?_, grown⟩
  exact
    { sound with
      preparations := by
        refine Rows.nodup_concat sound.preparations fun old there same => ?_
        have missing := List.find?_eq_none.mp free old there
        simp only [Prod.mk.injEq] at same
        simp [same] at missing
      froze := fun p member => by
        obtain ⟨item, froze⟩ := sound.froze p member
        exact ⟨item, froze.grown grown⟩
      constitutes := fun c member => by
        obtain ⟨o, held, p, among, disposes, constitutes, item, froze, key⟩ :=
          sound.constitutes c member
        exact ⟨o, held, p, among, disposes, constitutes, item, froze.grown grown, key⟩ }

end LedgerDesk.Constitution
