import LedgerDesk.Foundation.Checks
import LedgerDesk.Kb.Gap

/-!
# One record for each question

Two identities bound the records of a ticket: one for a query, in whatever state, and one
standing for a question. Both are indexes, so they hold over every interleaving; what a call
returns is what it reads, and it may read a closed record by the query.
-/
namespace LedgerDesk.Kb

open Foundation

/-! ### What an update leaves as it was -/

structure SameRecord (g h : KbGap) : Prop where
  id : h.id = g.id
  org : h.org_id = g.org_id
  ticket : h.ticket_id = g.ticket_id
  query : h.query_sha256 = g.query_sha256
  question : h.question_sha256 = g.question_sha256
  closed : g.state = .CLOSED → h.state = .CLOSED

theorem SameRecord.refl (g : KbGap) : SameRecord g g := ⟨rfl, rfl, rfl, rfl, rfl, fun closed => closed⟩

theorem closeRow_same (gap : String) (now witness : Nat) (g : KbGap) :
    SameRecord g (closeRow gap now witness g) := by
  rw [closeRow]
  split
  · exact ⟨rfl, rfl, rfl, rfl, rfl, fun _ => rfl⟩
  · exact .refl g

theorem markRow_same (gap reason : String) (g : KbGap) :
    SameRecord g (markRow gap reason g) := by
  rw [markRow]
  split
  · next marked =>
    refine ⟨rfl, rfl, rfl, rfl, rfl, fun closed => ?_⟩
    rw [marked.2] at closed
    cases closed
  · exact .refl g

theorem clashes_symm (a b : KbGap) : clashes a b = clashes b a := by
  simp only [clashes, Bool.beq_comm (a := a.id), Bool.beq_comm (a := a.ticket_id),
    Bool.beq_comm (a := a.query_sha256), Bool.beq_comm (a := a.question_sha256), Bool.and_assoc,
    Bool.and_comm (a.state != .CLOSED)]

theorem clashes_same {g h k l : KbGap} (same : SameRecord g h) (same' : SameRecord k l)
    (apart : clashes g k = false) : clashes h l = false := by
  have closed := same.closed
  have closed' := same'.closed
  simp only [clashes, same.id, same.ticket, same.query, same.question, same'.id, same'.ticket,
    same'.query, same'.question] at apart ⊢
  grind

/-! ### What a statement finds -/

/-- A record of the question that is not closed. -/
def StandsAs (rows : List KbGap) (ticket question id : String) : Prop :=
  ∃ g ∈ rows, g.id = id ∧ g.ticket_id = ticket ∧ g.question_sha256 = question ∧ g.state ≠ .CLOSED

/-- The record of the query. -/
def RecordedAs (rows : List KbGap) (ticket query id : String) : Prop :=
  ∃ g ∈ rows, g.id = id ∧ g.ticket_id = ticket ∧ g.query_sha256 = query

theorem standingRecord_some {rows : List KbGap} {row : KbGap} {id : String}
    (found : standingRecord rows row = some id) :
    StandsAs rows row.ticket_id row.question_sha256 id := by
  simp only [standingRecord, Option.map_eq_some_iff] at found
  obtain ⟨g, first, rfl⟩ := found
  have meets := List.find?_some first
  simp only [Bool.and_eq_true, beq_iff_eq, bne_iff_ne] at meets
  exact ⟨g, List.mem_of_find?_eq_some first, rfl, meets.1.1, meets.1.2, meets.2⟩

theorem standingRecord_none {rows : List KbGap} {row : KbGap}
    (nothing : standingRecord rows row = none) (id : String) :
    ¬ StandsAs rows row.ticket_id row.question_sha256 id := by
  rintro ⟨g, member, -, ticket, question, stands⟩
  simp only [standingRecord, Option.map_eq_none_iff, List.find?_eq_none] at nothing
  refine nothing g member ?_
  simp [ticket, question, stands]

theorem queryRecord_some {rows : List KbGap} {row : KbGap} {id : String}
    (found : queryRecord rows row = some id) :
    RecordedAs rows row.ticket_id row.query_sha256 id := by
  simp only [queryRecord, Option.map_eq_some_iff] at found
  obtain ⟨g, first, rfl⟩ := found
  have meets := List.find?_some first
  simp only [Bool.and_eq_true, beq_iff_eq] at meets
  exact ⟨g, List.mem_of_find?_eq_some first, rfl, meets.1, meets.2⟩

theorem queryRecord_none {rows : List KbGap} {row : KbGap} (nothing : queryRecord rows row = none)
    (id : String) : ¬ RecordedAs rows row.ticket_id row.query_sha256 id := by
  rintro ⟨g, member, -, ticket, query⟩
  simp only [queryRecord, Option.map_eq_none_iff, List.find?_eq_none] at nothing
  refine nothing g member ?_
  simp [ticket, query]

/-- One record of a question stands at most, and one record of a query. -/
theorem standsAs_unique {rows : List KbGap} (unique : rows.Pairwise fun a b => clashes a b = false)
    {ticket question id id' : String} (stands : StandsAs rows ticket question id)
    (stands' : StandsAs rows ticket question id') : id = id' := by
  obtain ⟨g, member, rfl, in_ticket, asks, is_open⟩ := stands
  obtain ⟨h, member', rfl, in_ticket', asks', is_open'⟩ := stands'
  have clash : clashes g h = true := by
    simp [clashes, in_ticket, in_ticket', asks, asks', is_open, is_open']
  rw [OpenTable.eq_of_clash clashes_symm unique member member' clash]

theorem recordedAs_unique {rows : List KbGap}
    (unique : rows.Pairwise fun a b => clashes a b = false) {ticket query id id' : String}
    (recorded : RecordedAs rows ticket query id) (recorded' : RecordedAs rows ticket query id') :
    id = id' := by
  obtain ⟨g, member, rfl, in_ticket, asks⟩ := recorded
  obtain ⟨h, member', rfl, in_ticket', asks'⟩ := recorded'
  have clash : clashes g h = true := by simp [clashes, in_ticket, in_ticket', asks, asks']
  rw [OpenTable.eq_of_clash clashes_symm unique member member' clash]

/-! ### What a step does to the table -/

section Steps

variable {isSpace : Char → Bool} {ι : Type*} [DecidableEq ι] {calls : ι → GapCall}
variable {s t : KbState ι} {act : KbAct ι}

/-- The transaction is over and left nothing. -/
def GapPhase.lost : GapPhase → Bool
  | .raised _ | .rolledBack => true
  | _ => false

/-- The call may hold a row that is not committed. -/
def GapPhase.holds : GapPhase → Bool
  | .inserted _ | .noneStands _ | .returned _ _ => true
  | _ => false

/-- `h` is what became of `g`; if it is not `g`, both are committed. -/
def Became (s t : OpenTable ι KbGap) (g h : KbGap) : Prop :=
  SameRecord g h ∧ (h = g ∨ g ∈ s.committed ∧ h ∈ t.committed)

omit [DecidableEq ι] in
theorem Became.refl (s t : OpenTable ι KbGap) (g : KbGap) : Became s t g g :=
  ⟨.refl g, .inl rfl⟩

/-- What a call sees stays in its sight, unless the call lost it. -/
theorem CallMove.sight {i : ι} {old p : GapPhase} {gaps : OpenTable ι KbGap}
    (move : CallMove isSpace calls s i act old p gaps) (j : ι) {g : KbGap}
    (seen : g ∈ s.gaps.visible j) :
    (∃ h ∈ gaps.visible j, Became s.gaps gaps g h) ∨ (j = i ∧ p.lost = true) := by
  have rollback : p.lost = true → (∃ h ∈ (s.gaps.rollback i).visible j,
      Became s.gaps (s.gaps.rollback i) g h) ∨ (j = i ∧ p.lost = true) := by
    intro lost
    by_cases same : j = i
    · exact .inr ⟨same, lost⟩
    · refine .inl ⟨g, ?_, .refl _ _ g⟩
      rwa [OpenTable.visible, OpenTable.own_rollback_of_ne same, OpenTable.committed_rollback]
  cases move with
  | inserted =>
    refine .inl ⟨g, ?_, .refl _ _ g⟩
    rcases OpenTable.mem_visible.mp seen with standing | mine
    · exact OpenTable.mem_visible.mpr (.inl standing)
    · refine OpenTable.mem_visible.mpr (.inr ?_)
      by_cases same : j = i
      · subst same
        rw [OpenTable.own_insert_self]
        exact List.mem_append_left _ mine
      · rwa [OpenTable.own_insert_of_ne same]
  | committed => exact .inl ⟨g, OpenTable.visible_commit_of_visible seen, .refl _ _ g⟩
  | raised => exact rollback rfl
  | rolledBack => exact rollback rfl
  | @closed _ started gap _ witness =>
    rcases OpenTable.mem_visible.mp seen with standing | mine
    · have closed := List.mem_map_of_mem (f := closeRow gap started witness) standing
      exact .inl ⟨_, OpenTable.mem_visible.mpr (.inl closed), closeRow_same _ _ _ g,
        .inr ⟨standing, closed⟩⟩
    · exact .inl ⟨g, OpenTable.mem_visible.mpr (.inr mine), .refl _ _ g⟩
  | _ => exact .inl ⟨g, seen, .refl _ _ g⟩

theorem kbStep_sight (taken : kbStep isSpace calls s act = some t) (j : ι) {g : KbGap}
    (seen : g ∈ s.gaps.visible j) :
    (∃ h ∈ t.gaps.visible j, Became s.gaps t.gaps g h) ∨ (t.phase j).lost = true := by
  rcases kbStep_cases taken with
    ⟨i, p, gaps, move, left, -, phase⟩ | ⟨gap, reason, -, rfl⟩ | ⟨tables, -, -, rfl⟩
  · rw [left]
    rcases move.sight j seen with kept | ⟨rfl, lost⟩
    · exact .inl kept
    · rw [phase, Function.update_self]
      exact .inr lost
  · rcases OpenTable.mem_visible.mp seen with standing | mine
    · have marked := List.mem_map_of_mem (f := markRow gap reason) standing
      exact .inl ⟨_, OpenTable.mem_visible.mpr (.inl marked), markRow_same _ _ g,
        .inr ⟨standing, marked⟩⟩
    · exact .inl ⟨g, OpenTable.mem_visible.mpr (.inr mine), .refl _ _ g⟩
  · exact .inl ⟨g, seen, .refl _ _ g⟩

/-- What is committed is never taken away. -/
theorem kbStep_committed (taken : kbStep isSpace calls s act = some t) {g : KbGap}
    (member : g ∈ s.gaps.committed) :
    ∃ h ∈ t.gaps.committed, SameRecord g h := by
  rcases kbStep_cases taken with
    ⟨i, p, gaps, move, left, -, -⟩ | ⟨gap, reason, -, rfl⟩ | ⟨tables, -, -, rfl⟩
  · rw [left]
    generalize s.phase i = old at move
    cases move with
    | committed => exact ⟨g, List.mem_append_left _ member, .refl g⟩
    | closed => exact ⟨_, List.mem_map_of_mem member, closeRow_same _ _ _ g⟩
    | _ => exact ⟨g, member, .refl g⟩
  · exact ⟨_, List.mem_map_of_mem member, markRow_same _ _ g⟩
  · exact ⟨g, member, .refl g⟩

/-- The rows a call has not committed are its insert's. -/
theorem kbStep_own (taken : kbStep isSpace calls s act = some t) (j : ι)
    (kept : (s.phase j).holds = false → s.gaps.own j = [])
    (unheld : (t.phase j).holds = false) : t.gaps.own j = [] := by
  rcases kbStep_cases taken with
    ⟨i, p, gaps, move, left, -, phase⟩ | ⟨gap, reason, -, rfl⟩ | ⟨tables, -, -, rfl⟩
  · rw [left]
    by_cases same : j = i
    · subst same
      rw [phase, Function.update_self] at unheld
      generalize s.phase j = old at move kept
      cases move with
      | committed => exact OpenTable.own_commit_self
      | raised => exact OpenTable.own_rollback_self
      | rolledBack => exact OpenTable.own_rollback_self
      | inserted | conflict | standingAfter | noneStands | recordedAfter => cases unheld
      | standing | recorded => cases unheld
      | _ => exact kept rfl
    · rw [phase, Function.update_of_ne same] at unheld
      have before := kept unheld
      generalize s.phase i = old at move
      cases move with
      | inserted => rwa [OpenTable.own_insert_of_ne same]
      | committed => rwa [OpenTable.own_commit_of_ne same]
      | raised => rwa [OpenTable.own_rollback_of_ne same]
      | rolledBack => rwa [OpenTable.own_rollback_of_ne same]
      | _ => exact before
  · exact kept unheld
  · exact kept unheld

/-! ### What every interleaving keeps -/

/-- The row the call of a phase would write. -/
def GapPhase.record : GapPhase → Option KbGap
  | .noStanding row | .noRecord row | .inserted row | .noneStands row => some row
  | .returned row _ | .committed row _ => some row
  | _ => none

/-- A record of the ticket, by the question or by the query of the row. -/
def Names (rows : List KbGap) (row : KbGap) (id : String) : Prop :=
  ∃ g ∈ rows, g.id = id ∧ g.ticket_id = row.ticket_id ∧
    (g.question_sha256 = row.question_sha256 ∨ g.query_sha256 = row.query_sha256)

theorem StandsAs.names {rows : List KbGap} {row : KbGap} {id : String}
    (stands : StandsAs rows row.ticket_id row.question_sha256 id) : Names rows row id := by
  obtain ⟨g, member, named, ticket, question, -⟩ := stands
  exact ⟨g, member, named, ticket, .inl question⟩

theorem RecordedAs.names {rows : List KbGap} {row : KbGap} {id : String}
    (recorded : RecordedAs rows row.ticket_id row.query_sha256 id) : Names rows row id := by
  obtain ⟨g, member, named, ticket, query⟩ := recorded
  exact ⟨g, member, named, ticket, .inr query⟩

/-- What a call has returned names a record it sees, and then one that is committed. -/
def Answered (t : OpenTable ι KbGap) (i : ι) : GapPhase → Prop
  | .returned row id => Names (t.visible i) row id
  | .committed row id => Names t.committed row id
  | _ => True

variable (isSpace calls) in
structure KbInvariant (s : KbState ι) : Prop where
  unique : s.gaps.Unique clashes
  own : ∀ i, (s.phase i).holds = false → s.gaps.own i = []
  records : ∀ i row, (s.phase i).record = some row → ∃ session started args,
    calls i = .opening session started args ∧ kbGapRecord isSpace session started args = .ok row
  answers : ∀ i, Answered s.gaps i (s.phase i)

theorem kbStart_invariant (tables : KbTables) : KbInvariant isSpace calls (kbStart tables) where
  unique := List.Pairwise.nil
  own _ _ := rfl
  records _ _ recorded := by cases recorded
  answers _ := trivial

theorem kbStep_unique (taken : kbStep isSpace calls s act = some t)
    (unique : s.gaps.Unique clashes) : t.gaps.Unique clashes := by
  have updated : ∀ set : KbGap → KbGap, (∀ g, SameRecord g (set g)) →
      (s.gaps.update set).Unique clashes := fun set same =>
    OpenTable.unique_update (fun a _ b _ apart => clashes_same (same a) (same b) apart)
      (fun a _ b apart => clashes_same (same a) (.refl b) apart) unique
  rcases kbStep_cases taken with
    ⟨i, p, gaps, move, left, -, -⟩ | ⟨gap, reason, -, rfl⟩ | ⟨tables, -, -, rfl⟩
  · rw [left]
    generalize s.phase i = old at move
    cases move with
    | inserted free => exact OpenTable.unique_insert clashes_symm unique free
    | committed => exact OpenTable.unique_commit clashes_symm unique
    | raised => exact OpenTable.unique_rollback unique
    | rolledBack => exact OpenTable.unique_rollback unique
    | closed => exact updated _ (closeRow_same _ _ _)
    | _ => exact unique
  · exact updated _ (markRow_same gap reason)
  · exact unique

theorem CallMove.record {i : ι} {old p : GapPhase} {gaps : OpenTable ι KbGap}
    (move : CallMove isSpace calls s i act old p gaps) {row : KbGap} (record : p.record = some row) :
    old.record = some row ∨ ∃ session started args, calls i = .opening session started args ∧
      kbGapRecord isSpace session started args = .ok row := by
  cases move with
  | standing opens checked =>
    cases record
    exact .inr ⟨_, _, _, opens, checked⟩
  | unasked opens checked =>
    cases record
    exact .inr ⟨_, _, _, opens, checked⟩
  | raised | rolledBack => cases record
  | sawGap | sawResponse | sawHead | sawCitation | closed => cases record
  | _ => exact .inl record

theorem kbStep_records (taken : kbStep isSpace calls s act = some t)
    (records : ∀ i row, (s.phase i).record = some row → ∃ session started args,
      calls i = .opening session started args ∧
        kbGapRecord isSpace session started args = .ok row) :
    ∀ i row, (t.phase i).record = some row → ∃ session started args,
      calls i = .opening session started args ∧
        kbGapRecord isSpace session started args = .ok row := by
  intro j row record
  rcases kbStep_cases taken with
    ⟨i, p, gaps, move, -, -, phase⟩ | ⟨gap, reason, -, rfl⟩ | ⟨tables, -, -, rfl⟩
  · by_cases same : j = i
    · subst same
      rw [phase, Function.update_self] at record
      rcases move.record record with before | checked
      · exact records j row before
      · exact checked
    · rw [phase, Function.update_of_ne same] at record
      exact records j row record
  · exact records j row record
  · exact records j row record

/-- A record that became another is named as it was. -/
theorem Names.became {rows rows' : List KbGap} {row : KbGap} {id : String}
    (kept : ∀ g ∈ rows, ∃ h ∈ rows', SameRecord g h) (names : Names rows row id) :
    Names rows' row id := by
  obtain ⟨g, member, rfl, ticket, asks⟩ := names
  obtain ⟨h, member', same⟩ := kept g member
  refine ⟨h, member', same.id, same.ticket.trans ticket, ?_⟩
  rwa [same.question, same.query]

theorem kbStep_answers (taken : kbStep isSpace calls s act = some t) (j : ι)
    (answers : Answered s.gaps j (s.phase j)) : Answered t.gaps j (t.phase j) := by
  have committed : ∀ row id, Names s.gaps.committed row id → Names t.gaps.committed row id :=
    fun row id => Names.became fun g member => kbStep_committed taken (g := g) member
  have visible : (t.phase j).lost = false → ∀ row id, Names (s.gaps.visible j) row id →
      Names (t.gaps.visible j) row id := by
    intro found row id
    refine Names.became fun g seen => ?_
    rcases kbStep_sight taken j seen with ⟨h, member, same, -⟩ | lost
    · exact ⟨h, member, same⟩
    · rw [found] at lost
      cases lost
  -- a call that does not move is answered as it was
  have stay : t.phase j = s.phase j → Answered t.gaps j (t.phase j) := by
    intro same
    rw [same] at visible ⊢
    generalize s.phase j = p at answers visible
    cases p with
    | returned row id => exact visible rfl row id answers
    | committed row id => exact committed row id answers
    | _ => trivial
  rcases kbStep_cases taken with
    ⟨i, p, gaps, move, left, -, phase⟩ | ⟨gap, reason, -, rfl⟩ | ⟨tables, -, -, rfl⟩
  · by_cases same : j = i
    · subst same
      rw [phase, Function.update_self, left]
      generalize s.phase j = old at move answers
      cases move with
      | standing _ _ found => exact (standingRecord_some found).names
      | standingAfter found => exact (standingRecord_some found).names
      | recorded found => exact (queryRecord_some found).names
      | recordedAfter found => exact (queryRecord_some found).names
      | committed => exact answers
      | _ => trivial
    · exact stay (by rw [phase, Function.update_of_ne same])
  · exact stay rfl
  · exact stay rfl

theorem kbStep_invariant (taken : kbStep isSpace calls s act = some t)
    (inv : KbInvariant isSpace calls s) : KbInvariant isSpace calls t where
  unique := kbStep_unique taken inv.unique
  own i := kbStep_own taken i (inv.own i)
  records := kbStep_records taken inv.records
  answers i := kbStep_answers taken i (inv.answers i)

/-! ### A call made again -/

/-- The step closes a record of the question. -/
def ClosesQuestion (ticket question : String) (tr : Transition (KbState ι) (KbAct ι)) : Prop :=
  ∃ g ∈ tr.source.gaps.committed, g.ticket_id = ticket ∧ g.question_sha256 = question ∧
    g.state ≠ .CLOSED ∧ ∃ h ∈ tr.target.gaps.committed, h.id = g.id ∧ h.state = .CLOSED

variable {tr : Transition (KbState ι) (KbAct ι)} {ticket question query id : String}

theorem StandsAs.step (taken : kbStep isSpace calls tr.source tr.act = some tr.target)
    (unclosed : ¬ ClosesQuestion ticket question tr)
    (stands : StandsAs tr.source.gaps.committed ticket question id) :
    StandsAs tr.target.gaps.committed ticket question id := by
  obtain ⟨g, member, rfl, in_ticket, asks, is_open⟩ := stands
  obtain ⟨h, member', same⟩ := kbStep_committed taken member
  refine ⟨h, member', same.id, same.ticket.trans in_ticket, same.question.trans asks, ?_⟩
  intro closed
  exact unclosed ⟨g, member, in_ticket, asks, is_open, h, member', same.id, closed⟩

theorem RecordedAs.step (taken : kbStep isSpace calls tr.source tr.act = some tr.target)
    (recorded : RecordedAs tr.source.gaps.committed ticket query id) :
    RecordedAs tr.target.gaps.committed ticket query id := by
  obtain ⟨g, member, rfl, in_ticket, asks⟩ := recorded
  obtain ⟨h, member', same⟩ := kbStep_committed taken member
  exact ⟨h, member', same.id, same.ticket.trans in_ticket, same.query.trans asks⟩

theorem StandsAs.sight (taken : kbStep isSpace calls tr.source tr.act = some tr.target)
    (unclosed : ¬ ClosesQuestion ticket question tr) (i : ι)
    (stands : StandsAs (tr.source.gaps.visible i) ticket question id) :
    StandsAs (tr.target.gaps.visible i) ticket question id ∨
      (tr.target.phase i).lost = true := by
  obtain ⟨g, seen, rfl, in_ticket, asks, is_open⟩ := stands
  refine (kbStep_sight taken i seen).imp_left fun ⟨h, seen', same, became⟩ => ?_
  refine ⟨h, seen', same.id, same.ticket.trans in_ticket, same.question.trans asks, ?_⟩
  rcases became with rfl | ⟨member, member'⟩
  · exact is_open
  · exact fun closed => unclosed ⟨g, member, in_ticket, asks, is_open, h, member', same.id, closed⟩

theorem RecordedAs.sight (taken : kbStep isSpace calls tr.source tr.act = some tr.target) (i : ι)
    (recorded : RecordedAs (tr.source.gaps.visible i) ticket query id) :
    RecordedAs (tr.target.gaps.visible i) ticket query id ∨ (tr.target.phase i).lost = true := by
  obtain ⟨g, seen, rfl, in_ticket, asks⟩ := recorded
  refine (kbStep_sight taken i seen).imp_left fun ⟨h, seen', same, _⟩ => ?_
  exact ⟨h, seen', same.id, same.ticket.trans in_ticket, same.query.trans asks⟩

theorem lost_for_good (taken : kbStep isSpace calls s act = some t) {i : ι}
    (lost : (s.phase i).lost = true) : (t.phase i).lost = true := by
  rcases kbStep_cases taken with
    ⟨j, p, gaps, move, -, -, phase⟩ | ⟨gap, reason, -, rfl⟩ | ⟨tables, -, -, rfl⟩
  · by_cases same : i = j
    · subst same
      rw [phase, Function.update_self]
      generalize s.phase i = old at move lost
      cases move with
      | raised | rolledBack => rfl
      | _ => cases lost
    · rw [phase, Function.update_of_ne same]
      exact lost
  · exact lost
  · exact lost

/-- The step returns the id to the call. -/
def Returns (tr : Transition (KbState ι) (KbAct ι)) (i : ι) (row : KbGap) (id : String) : Prop :=
  tr.act = .statement i ∧ tr.target.phase i = .returned row id

/-- A call returns the record that stands for its question, or that of its query. -/
theorem Returns.found {i : ι} {row : KbGap}
    (taken : kbStep isSpace calls tr.source tr.act = some tr.target)
    (returns : Returns tr i row id) :
    tr.target.gaps = tr.source.gaps ∧
      (StandsAs (tr.source.gaps.visible i) row.ticket_id row.question_sha256 id ∨
        RecordedAs (tr.source.gaps.visible i) row.ticket_id row.query_sha256 id) := by
  obtain ⟨acting, returned⟩ := returns
  rcases kbStep_cases taken with
    ⟨j, p, gaps, move, left, -, phase⟩ | ⟨gap, reason, other, -⟩ | ⟨tables, other, -, -⟩
  · rw [acting] at move
    by_cases same : i = j
    · subst same
      rw [phase, Function.update_self] at returned
      subst returned
      rw [left]
      generalize tr.source.phase i = old at move
      cases move with
      | standing _ _ found => exact ⟨rfl, .inl (standingRecord_some found)⟩
      | standingAfter found => exact ⟨rfl, .inl (standingRecord_some found)⟩
      | recorded found => exact ⟨rfl, .inr (queryRecord_some found)⟩
      | recordedAfter found => exact ⟨rfl, .inr (queryRecord_some found)⟩
    · -- the statement is the call's own
      generalize tr.source.phase j = old at move
      cases move <;> exact absurd rfl same
  · rw [acting] at other
    cases other
  · rw [acting] at other
    cases other

/-- The call asks the question of the row, with its query, on its ticket. -/
def Asks (call : GapCall) (row : KbGap) : Prop :=
  ∃ session started args, call = .opening session started args ∧ args.p_ticket = row.ticket_id ∧
    args.p_query_sha256 = some row.query_sha256 ∧
    args.p_question_sha256 = some row.question_sha256

theorem digest_eq_ok {text : Option String} {value : String} (passed : digest text = .ok value) :
    text = some value := by
  simp only [digest] at passed
  split at passed
  · cases passed
  · split at passed
    · cases passed
      rfl
    · cases passed

theorem kbGapRecord_keys {session : Option String} {started : Nat} {args : GapOpenArgs}
    {row : KbGap} (checked : kbGapRecord isSpace session started args = .ok row) :
    row.ticket_id = args.p_ticket ∧ args.p_query_sha256 = some row.query_sha256 ∧
      args.p_question_sha256 = some row.question_sha256 := by
  simp only [kbGapRecord] at checked
  split at checked
  · cases checked
  · simp only [except_bind_eq_ok] at checked
    obtain ⟨_, -, _, -, _, -, query, by_query, question, by_question, _, -, _, -, _, -, written⟩ :=
      checked
    cases written
    exact ⟨rfl, digest_eq_ok by_query, digest_eq_ok by_question⟩

/-- Where the repeated call stands, over a table in which the first call's id is held. -/
def RepeatPhase (rows : List KbGap) (row : KbGap) (id : String) (stood : Prop) : GapPhase → Prop
  | .begun | .raised _ | .rolledBack => True
  | .noStanding again =>
    again.ticket_id = row.ticket_id ∧ again.query_sha256 = row.query_sha256 ∧
      RecordedAs rows row.ticket_id row.query_sha256 id
  | .returned _ id' | .committed _ id' =>
    id' = id ∨ ¬ stood ∧ StandsAs rows row.ticket_id row.question_sha256 id'
  | _ => False

/-- While no record of the question is closed, the repeated call writes nothing. -/
structure Repeated (j : ι) (row : KbGap) (id : String) (stood : Prop) (s : KbState ι) : Prop where
  own : s.gaps.own j = []
  stands : stood → StandsAs s.gaps.committed row.ticket_id row.question_sha256 id
  held : StandsAs s.gaps.committed row.ticket_id row.question_sha256 id ∨
    RecordedAs s.gaps.committed row.ticket_id row.query_sha256 id
  phase : RepeatPhase s.gaps.committed row id stood (s.phase j)

theorem RepeatPhase.step {row : KbGap} {stood : Prop} {p : GapPhase}
    (taken : kbStep isSpace calls tr.source tr.act = some tr.target)
    (unclosed : ¬ ClosesQuestion row.ticket_id row.question_sha256 tr)
    (repeats : RepeatPhase tr.source.gaps.committed row id stood p) :
    RepeatPhase tr.target.gaps.committed row id stood p := by
  cases p with
  | noStanding again => exact ⟨repeats.1, repeats.2.1, repeats.2.2.step taken⟩
  | returned _ id' => exact repeats.imp_right fun ⟨never, stands⟩ => ⟨never, stands.step taken unclosed⟩
  | committed _ id' =>
    exact repeats.imp_right fun ⟨never, stands⟩ => ⟨never, stands.step taken unclosed⟩
  | _ => exact repeats

/-- The repeated call itself takes a step. -/
theorem CallMove.repeats {j : ι} {row : KbGap} {stood : Prop} {old p : GapPhase}
    {gaps : OpenTable ι KbGap} (move : CallMove isSpace calls s j act old p gaps)
    (asks : Asks (calls j) row) (unique : s.gaps.Unique clashes) (own : s.gaps.own j = [])
    (stands : stood → StandsAs s.gaps.committed row.ticket_id row.question_sha256 id)
    (held : StandsAs s.gaps.committed row.ticket_id row.question_sha256 id ∨
      RecordedAs s.gaps.committed row.ticket_id row.query_sha256 id)
    (repeats : RepeatPhase s.gaps.committed row id stood old) :
    RepeatPhase s.gaps.committed row id stood p ∧ gaps.own j = [] := by
  obtain ⟨session, started, args, call, ticket, query, question⟩ := asks
  have sees : s.gaps.visible j = s.gaps.committed := by rw [OpenTable.visible, own, List.append_nil]
  have keys : ∀ {session started args again}, calls j = .opening session started args →
      kbGapRecord isSpace session started args = .ok again →
      again.ticket_id = row.ticket_id ∧ again.query_sha256 = row.query_sha256 ∧
        again.question_sha256 = row.question_sha256 := by
    intro session' started' args' again opens checked
    rw [call] at opens
    cases opens
    obtain ⟨in_ticket, by_query, by_question⟩ := kbGapRecord_keys checked
    rw [query, Option.some.injEq] at by_query
    rw [question, Option.some.injEq] at by_question
    exact ⟨in_ticket.trans ticket, by_query.symm, by_question.symm⟩
  cases move with
  | standing opens checked found =>
    obtain ⟨in_ticket, -, by_question⟩ := keys opens checked
    have read := standingRecord_some found
    rw [sees, in_ticket, by_question] at read
    refine ⟨?_, own⟩
    by_cases still : stood
    · exact .inl (standsAs_unique unique.committed read (stands still))
    · exact .inr ⟨still, read⟩
  | unasked opens checked nothing =>
    obtain ⟨in_ticket, by_query, by_question⟩ := keys opens checked
    have none_stands := standingRecord_none nothing
    rw [sees, in_ticket, by_question] at none_stands
    exact ⟨⟨in_ticket, by_query, held.resolve_left (none_stands id)⟩, own⟩
  | recorded found =>
    obtain ⟨in_ticket, by_query, recorded⟩ := repeats
    have read := queryRecord_some found
    rw [sees, in_ticket, by_query] at read
    exact ⟨.inl (recordedAs_unique unique.committed read recorded), own⟩
  | missing nothing =>
    obtain ⟨in_ticket, by_query, recorded⟩ := repeats
    have none_recorded := queryRecord_none nothing id
    rw [sees, in_ticket, by_query] at none_recorded
    exact absurd recorded none_recorded
  | committed => exact ⟨repeats, OpenTable.own_commit_self⟩
  | raised => exact ⟨trivial, OpenTable.own_rollback_self⟩
  | rolledBack => exact ⟨trivial, OpenTable.own_rollback_self⟩
  | sawGap closes =>
    rw [call] at closes
    cases closes
  | _ => cases repeats

theorem Repeated.step {j : ι} {row : KbGap} {stood : Prop}
    (taken : kbStep isSpace calls tr.source tr.act = some tr.target) (asks : Asks (calls j) row)
    (unclosed : ¬ ClosesQuestion row.ticket_id row.question_sha256 tr)
    (unique : tr.source.gaps.Unique clashes) (repeats : Repeated j row id stood tr.source) :
    Repeated j row id stood tr.target := by
  have stands : stood →
      StandsAs tr.target.gaps.committed row.ticket_id row.question_sha256 id :=
    fun still => (repeats.stands still).step taken unclosed
  have held := repeats.held.imp (StandsAs.step taken unclosed) (RecordedAs.step taken)
  rcases kbStep_cases taken with
    ⟨i, p, gaps, move, left, tables, phase⟩ | ⟨gap, reason, acting, marked⟩ |
      ⟨tables, acting, -, kept⟩
  · by_cases same : j = i
    · subst same
      obtain ⟨at_phase, own⟩ := move.repeats asks unique repeats.own repeats.stands repeats.held
        repeats.phase
      refine ⟨by rw [left]; exact own, stands, held, ?_⟩
      rw [phase, Function.update_self]
      exact at_phase.step taken unclosed
    · refine ⟨?_, stands, held, ?_⟩
      · rw [left]
        generalize tr.source.phase i = old at move
        generalize tr.act = acted at move
        cases move with
        | inserted => rw [OpenTable.own_insert_of_ne same, repeats.own]
        | committed => rw [OpenTable.own_commit_of_ne same, repeats.own]
        | raised => rw [OpenTable.own_rollback_of_ne same, repeats.own]
        | rolledBack => rw [OpenTable.own_rollback_of_ne same, repeats.own]
        | _ => exact repeats.own
      · rw [phase, Function.update_of_ne same]
        exact repeats.phase.step taken unclosed
  · have phase := repeats.phase.step taken unclosed
    refine ⟨?_, stands, held, ?_⟩
    · rw [marked]
      exact repeats.own
    · rw [marked] at phase ⊢
      exact phase
  · have phase := repeats.phase.step taken unclosed
    refine ⟨?_, stands, held, ?_⟩
    · rw [kept]
      exact repeats.own
    · rw [kept] at phase ⊢
      exact phase

/-- What the first call returned is held until it is committed. -/
theorem held_until_committed {i : ι} {row : KbGap} {m : KbState ι}
    {us : List (Transition (KbState ι) (KbAct ι))}
    (taken : kbStep isSpace calls tr.source tr.act = some tr.target)
    (returns : Returns tr i row id) (inv : KbInvariant isSpace calls tr.target)
    (run : Run (kbStep isSpace calls) tr.target us m)
    (unclosed : ∀ next ∈ us, ¬ ClosesQuestion row.ticket_id row.question_sha256 next)
    (committed : m.phase i = .committed row id) :
    (StandsAs (tr.target.gaps.visible i) row.ticket_id row.question_sha256 id →
      StandsAs m.gaps.committed row.ticket_id row.question_sha256 id) ∧
    (StandsAs m.gaps.committed row.ticket_id row.question_sha256 id ∨
      RecordedAs m.gaps.committed row.ticket_id row.query_sha256 id) := by
  have own : m.gaps.own i = [] :=
    (run.invariant (fun _ _ _ taken => kbStep_invariant taken) inv).1.own i (by rw [committed]; rfl)
  have sees : m.gaps.visible i = m.gaps.committed := by rw [OpenTable.visible, own, List.append_nil]
  have unlost : (m.phase i).lost = false := by
    rw [committed]
    rfl
  have stood : StandsAs (tr.target.gaps.visible i) row.ticket_id row.question_sha256 id →
      StandsAs m.gaps.committed row.ticket_id row.question_sha256 id := by
    intro stands
    have kept := (run.invariant_of
      (P := fun s => StandsAs (s.gaps.visible i) row.ticket_id row.question_sha256 id ∨
        (s.phase i).lost = true)
      (fun next => ¬ ClosesQuestion row.ticket_id row.question_sha256 next)
      (fun next taken unclosed held => held.elim (fun stands => stands.sight taken unclosed i)
        fun lost => .inr (lost_for_good taken lost)) unclosed (.inl stands)).1
    rw [sees, unlost] at kept
    exact kept.resolve_right Bool.false_ne_true
  refine ⟨stood, ?_⟩
  obtain ⟨same, found⟩ := returns.found taken
  rw [← same] at found
  rcases found with stands | recorded
  · exact .inl (stood stands)
  · have kept := (run.invariant
      (P := fun s => RecordedAs (s.gaps.visible i) row.ticket_id row.query_sha256 id ∨
        (s.phase i).lost = true)
      (fun s a t taken held => by
        let next : Transition (KbState ι) (KbAct ι) := ⟨s, a, t⟩
        have moved : kbStep isSpace calls next.source next.act = some next.target := taken
        exact held.elim (fun recorded => recorded.sight moved i)
          fun lost => .inr (lost_for_good taken lost)) (.inl recorded)).1
    rw [sees, unlost] at kept
    exact .inr (kept.resolve_right Bool.false_ne_true)

/-- The id a call has returned, committed or not. -/
def GapPhase.answer : GapPhase → Option String
  | .returned _ id | .committed _ id => some id
  | _ => none

omit [DecidableEq ι] in
theorem count_le_one {rows : List KbGap} (unique : rows.Pairwise fun a b => clashes a b = false)
    {chosen : KbGap → Bool} (clash : ∀ g h, chosen g = true → chosen h = true →
      clashes g h = true) : (rows.filter chosen).length ≤ 1 := by
  have apart := unique.filter chosen
  cases split : rows.filter chosen with
  | nil => exact Nat.zero_le 1
  | cons g rest =>
    cases rest with
    | nil => exact le_rfl
    | cons h rest =>
      have first : chosen g = true := List.of_mem_filter (by rw [split]; simp)
      have second : chosen h = true := List.of_mem_filter (by rw [split]; simp)
      rw [split] at apart
      have free := List.rel_of_pairwise_cons apart List.mem_cons_self
      rw [clash g h first second] at free
      cases free

/-- Over every interleaving one record of a query is committed at most, and one standing record
of a question. An id is that of a record of the ticket, standing for the question or recorded
for the query. A call made again while no record of the question is closed writes nothing; it
returns the same id, unless that was no standing record and one has come to stand. -/
theorem gap_unique {tables : KbTables} {s : KbState ι}
    {ts : List (Transition (KbState ι) (KbAct ι))}
    (run : Run (kbStep isSpace calls) (kbStart tables) ts s) :
    (∀ ticket question, (s.gaps.committed.filter fun g => g.ticket_id == ticket &&
      g.question_sha256 == question && g.state != .CLOSED).length ≤ 1) ∧
    (∀ ticket query, (s.gaps.committed.filter fun g => g.ticket_id == ticket &&
      g.query_sha256 == query).length ≤ 1) ∧
    (∀ i row id, s.phase i = .committed row id →
      Asks (calls i) row ∧ Names s.gaps.committed row id) ∧
    ∀ tr ∈ ts, ∀ i row id, Returns tr i row id →
      (StandsAs (tr.source.gaps.visible i) row.ticket_id row.question_sha256 id ∨
        RecordedAs (tr.source.gaps.visible i) row.ticket_id row.query_sha256 id) ∧
      ∀ us m vs v j, Run (kbStep isSpace calls) tr.target us m →
        m.phase i = .committed row id → m.phase j = .begun → Asks (calls j) row →
        Run (kbStep isSpace calls) m vs v →
        (∀ next ∈ us ++ vs, ¬ ClosesQuestion row.ticket_id row.question_sha256 next) →
        v.gaps.own j = [] ∧ ∀ id', (v.phase j).answer = some id' → id' = id ∨
          ¬ StandsAs (tr.target.gaps.visible i) row.ticket_id row.question_sha256 id ∧
            StandsAs v.gaps.committed row.ticket_id row.question_sha256 id' := by
  have steps := run.invariant (P := KbInvariant isSpace calls)
    (fun _ _ _ taken => kbStep_invariant taken) (kbStart_invariant tables)
  have unique := steps.1.unique.committed
  refine ⟨fun ticket question => count_le_one unique ?_, fun ticket query =>
    count_le_one unique ?_, fun i row id committed => ⟨?_, ?_⟩, fun tr member i row id returns => ?_⟩
  · intro g h first second
    simp only [Bool.and_eq_true, beq_iff_eq] at first second
    simp [clashes, first, second]
  · intro g h first second
    simp only [Bool.and_eq_true, beq_iff_eq] at first second
    simp [clashes, first, second]
  · obtain ⟨session, started, args, call, checked⟩ := steps.1.records i row (by rw [committed]; rfl)
    obtain ⟨ticket, query, question⟩ := kbGapRecord_keys checked
    exact ⟨session, started, args, call, ticket.symm, query, question⟩
  · have answers := steps.1.answers i
    rw [committed] at answers
    exact answers
  · have taken := run.steps tr member
    refine ⟨(returns.found taken).2, fun us m vs v j first committed begun asks again unclosed => ?_⟩
    have after := (steps.2 tr member).2
    have at_m := (first.invariant (fun _ _ _ taken => kbStep_invariant taken) after).1
    obtain ⟨stood, held⟩ := held_until_committed taken returns after first
      (fun next listed => unclosed next (List.mem_append_left vs listed)) committed
    have start : Repeated j row id
        (StandsAs (tr.target.gaps.visible i) row.ticket_id row.question_sha256 id) m := by
      refine ⟨at_m.own j (by rw [begun]; rfl), stood, held, ?_⟩
      rw [begun]
      trivial
    have repeats := (again.invariant_of
      (P := fun s => KbInvariant isSpace calls s ∧ Repeated j row id
        (StandsAs (tr.target.gaps.visible i) row.ticket_id row.question_sha256 id) s)
      (fun next => ¬ ClosesQuestion row.ticket_id row.question_sha256 next)
      (fun next taken unclosed kept => ⟨kbStep_invariant taken kept.1,
        kept.2.step taken asks unclosed kept.1.unique⟩)
      (fun next listed => unclosed next (List.mem_append_right us listed)) ⟨at_m, start⟩).1.2
    refine ⟨repeats.own, fun id' answer => ?_⟩
    have at_phase := repeats.phase
    generalize v.phase j = p at answer at_phase
    cases p with
    | returned _ found =>
      cases answer
      exact at_phase
    | committed _ found =>
      cases answer
      exact at_phase
    | _ => cases answer

end Steps

/-! ### A closed record returned, and then another -/

def hexText (c : Char) : String := String.ofList (List.replicate 64 c)

/-- One question, asked under the corpus `snapshot`. -/
def reaskArgs (gap snapshot : String) (query : Char) : GapOpenArgs where
  p_gap := gap
  p_org := "org"
  p_ticket := "t"
  p_query_terms := some "q"
  p_kb_snapshot := some snapshot
  p_zero_match := some true
  p_query_sha256 := some (hexText query)
  p_question_sha256 := some (hexText 'f')
  p_owner := some "u"
  p_committed_date := some 1
  p_null_rule := some "n"
  p_divergent := none
  p_ledger := none

/-- The first call opens `g1`, the second closes it, and the third and the fifth are the first
again. The fourth asks the question under the next corpus. -/
def reaskCalls : Fin 5 → GapCall
  | 0 => .opening (some "org") 0 (reaskArgs "g1" "s1" 'a')
  | 1 => .closing (some "org") 0 "g1" "r"
  | 2 => .opening (some "org") 0 (reaskArgs "g3" "s1" 'a')
  | 3 => .opening (some "org") 0 (reaskArgs "g2" "s2" 'b')
  | 4 => .opening (some "org") 0 (reaskArgs "g3" "s1" 'a')

def reaskTables : KbTables where
  orgs := ["org"]
  users := [⟨"u", "org"⟩]
  ledger_refs := [1]
  heads := [⟨"org", "s2"⟩]
  tickets := [⟨"t", "org"⟩]
  articles := [⟨"a", "org", "s2", "k"⟩]
  admissions := [⟨"org", "g1", some "a", "s2"⟩]
  responses := [⟨"r", "t", some "s2", some true, some 1⟩]
  citations := [⟨"r", "a", "s2"⟩]

def reaskStep : KbState (Fin 5) → KbAct (Fin 5) → Option (KbState (Fin 5)) :=
  kbStep (· == ' ') reaskCalls

def reaskBefore : List (KbAct (Fin 5)) :=
  List.replicate 4 (.statement 0) ++ [.commit 0] ++ List.replicate 5 (.statement 1) ++
    [.statement 2, .statement 2, .commit 2]

def reaskAfter : List (KbAct (Fin 5)) :=
  List.replicate 4 (.statement 3) ++ [.commit 3, .statement 4, .commit 4]

def gapState (s : KbState (Fin 5)) (id : String) : Option KbGapState :=
  (s.gaps.committed.find? fun g => g.id == id).map KbGap.state

private theorem reask_outcome :
    ((perform reaskStep (kbStart reaskTables) reaskBefore).bind fun m =>
      (perform reaskStep m reaskAfter).map fun v =>
        (((m.phase 2).answer, gapState m "g1"), (v.phase 4).answer)) =
      some ((some "g1", some .CLOSED), some "g2") := by
  decide +kernel

/-- A call returns a closed record; made again while nothing is closed, it returns another. -/
theorem reask_returns_another :
    ∃ m ts v us, Run reaskStep (kbStart reaskTables) ts m ∧ Run reaskStep m us v ∧
      reaskCalls 2 = reaskCalls 4 ∧ (m.phase 2).answer = some "g1" ∧
      gapState m "g1" = some .CLOSED ∧
      (∀ tr ∈ us, ∀ i, tr.act = .statement i →
        ∃ session started args, reaskCalls i = .opening session started args) ∧
      (v.phase 4).answer = some "g2" := by
  have outcome := reask_outcome
  simp only [Option.bind_eq_some_iff, Option.map_eq_some_iff, Prod.mk.injEq] at outcome
  obtain ⟨m, before, v, after, ⟨returned, closed⟩, again⟩ := outcome
  refine ⟨m, _, v, _, run_of_perform _ _ _ _ before, run_of_perform _ _ _ _ after, rfl, returned,
    closed, fun tr member i acting => ?_, again⟩
  have listed := act_mem_of_transitions member
  rw [acting] at listed
  simp only [reaskAfter, List.mem_append, List.mem_replicate, List.mem_cons, KbAct.statement.injEq,
    reduceCtorEq, List.not_mem_nil, or_false, false_or] at listed
  rcases listed with ⟨-, rfl⟩ | rfl
  · exact ⟨_, _, _, rfl⟩
  · exact ⟨_, _, _, rfl⟩

private theorem reask_first :
    (perform reaskStep (kbStart reaskTables)
      (List.replicate 4 (.statement 0) ++ [.commit 0])).map (fun s =>
        ((s.phase 0).answer, (s.phase 0).holds)) = some (some "g1", false) := by
  decide +kernel

theorem first_ask_names_its_record :
    ∃ s ts, Run reaskStep (kbStart reaskTables) ts s ∧
      ∃ row, s.phase 0 = .committed row "g1" ∧ Names s.gaps.committed row "g1" := by
  obtain ⟨s, performed, outcome⟩ := Option.map_eq_some_iff.mp reask_first
  obtain ⟨answer, settled⟩ := Prod.mk.inj outcome
  have run := run_of_perform _ _ _ _ performed
  refine ⟨s, _, run, ?_⟩
  cases phase : s.phase 0 with
  | committed row id =>
    rw [phase, GapPhase.answer, Option.some.injEq] at answer
    subst answer
    exact ⟨row, rfl, ((gap_unique run).2.2.1 0 row "g1" phase).2⟩
  | _ =>
    rw [phase] at answer settled
    cases answer <;> cases settled

end LedgerDesk.Kb
