import LedgerDesk.Tickets.Acknowledged

/-!
# The collapse, against the fold

While nothing is closed and no key is met on another's row, what the transactions admit and
what they fold of each customer's submissions is what `collapseDuplicates` makes of them in
the order in which they took their locks.
-/
namespace LedgerDesk.Tickets

open Foundation LedgerDesk.Queue

/-! ### The latest of rows that grow -/

theorem newest_map {set : Ticket → Ticket} (id : ∀ row, (set row).id = row.id)
    (created : ∀ row, (set row).created_at = row.created_at) (rows : List Ticket) :
    newest (rows.map set) = (newest rows).map set := by
  induction rows with
  | nil => rfl
  | cons row rest ih =>
    rw [List.map_cons, newest, ih, newest]
    cases newest rest with
    | none => rfl
    | some best =>
      have same : later (set row) (set best) = later row best := by
        simp only [later, id, created]
      simp only [Option.map_some, same]
      split <;> rfl

theorem newest_concat {rows : List Ticket} {last : Ticket}
    (after : ∀ row ∈ rows, row.created_at < last.created_at) :
    newest (rows ++ [last]) = some last := by
  induction rows with
  | nil => rfl
  | cons row rest ih =>
    have before := after row List.mem_cons_self
    have not_later : later row last = false := by
      simp only [later, Bool.or_eq_false_iff, Bool.and_eq_false_iff, decide_eq_false_iff_not,
        beq_eq_false_iff_ne]
      omega
    rw [List.cons_append, newest, ih fun r member => after r (List.mem_cons_of_mem _ member)]
    simp only [not_later]
    rfl

section Collapse

variable {sha256Hex : String → String} {hashtextextended : String → Int}
variable {org : String} {accounts : List Account}
variable {ι : Type*} [DecidableEq ι] {calls : ι → Intake}
variable {s t : IntakeState ι} {act : IntakeAct ι}

/-- An open ticket is closed. -/
def Closes (s : IntakeState ι) : IntakeAct ι → Prop
  | .move ticket target => ∃ row ∈ s.tickets.committed,
      row.status.closed = false ∧ (moveRow ticket target row).status.closed = true
  | _ => False

/-- The group open for the content of the call, as the rows have it. -/
def latestOf (sha256Hex : String → String) (org : String) (calls : ι → Intake)
    (s : IntakeState ι) (i : ι) : Option DedupeIncumbent :=
  (incumbentOn sha256Hex org calls i s.tickets.committed).map incumbentOf

/-- What the transaction has decided is what the rows would still have it decide. -/
def Current (latest : Option DedupeIncumbent) : IntakePhase → Prop
  | .sought _ held | .timed _ held _ => held.map incumbentOf = latest
  | .filed row => ∀ group, latest = some group →
      group.anchorCreatedAt + defaultDedupeWindowMs ≤ row.created_at
  | .folded held createdMs => latest = some (incumbentOf held) ∧ Duplicates held createdMs
  | _ => True

theorem Current.of_free {latest : Option DedupeIncumbent} {p : IntakePhase}
    (free : p.holds = false) : Current latest p := by
  cases p <;> trivial

structure Undisturbed (sha256Hex : String → String) (org : String) (calls : ι → Intake)
    (s : IntakeState ι) : Prop where
  live_rows : ∀ row ∈ s.tickets.committed, row.body_sha256.isSome = true →
    row.status.closed = false
  current : ∀ i, Current (latestOf sha256Hex org calls s i) (s.phase i)

omit [DecidableEq ι] in
theorem latestOf_move {ticket : String} {target : TicketState}
    (undisturbed : Undisturbed sha256Hex org calls s) (unclosed : ¬ Closes s (.move ticket target))
    (i : ι) :
    latestOf sha256Hex org calls
        { s with tickets := s.tickets.update (moveRow ticket target) } i =
      latestOf sha256Hex org calls s i := by
  have alive : ∀ row ∈ s.tickets.committed,
      live (claimsOf org calls i) (digestOf sha256Hex calls i) (moveRow ticket target row) =
        live (claimsOf org calls i) (digestOf sha256Hex calls i) row := by
    intro row member
    obtain ⟨status, moved⟩ := moveRow_status ticket target row
    rw [Bool.eq_iff_iff, live_iff, live_iff]
    have kept : (moveRow ticket target row).org_id = row.org_id ∧
        (moveRow ticket target row).customer_id = row.customer_id ∧
        (moveRow ticket target row).body_sha256 = row.body_sha256 := by
      rw [moved]
      exact ⟨rfl, rfl, rfl⟩
    rw [kept.1, kept.2.1, kept.2.2]
    refine and_congr_right fun _ => and_congr_right fun _ => and_congr_right fun digest => ?_
    have was := undisturbed.live_rows row member (by rw [digest]; rfl)
    refine iff_of_true ?_ was
    by_contra closed
    exact unclosed ⟨row, member, was, Bool.not_eq_false _ ▸ closed⟩
  have filtered : (s.tickets.committed.map (moveRow ticket target)).filter
        (live (claimsOf org calls i) (digestOf sha256Hex calls i)) =
      (s.tickets.committed.filter (live (claimsOf org calls i) (digestOf sha256Hex calls i))).map
        (moveRow ticket target) := by
    rw [List.filter_map]
    exact congrArg _ (List.filter_congr alive)
  have created : ∀ row, (moveRow ticket target row).created_at = row.created_at := by
    intro row
    obtain ⟨status, moved⟩ := moveRow_status ticket target row
    rw [moved]
  rw [latestOf, latestOf, incumbentOn, incumbentOn, incumbent, incumbent,
    OpenTable.committed_update, filtered, newest_map (moveRow_id ticket target) created,
    Option.map_map]
  refine congrFun (congrArg Option.map (funext fun row => ?_)) _
  simp only [Function.comp_apply, incumbentOf, moveRow_id, created]

omit [DecidableEq ι] in
/-- A row of another customer or another body is no incumbent. -/
theorem incumbentOn_other {i : ι} {rows : List Ticket} {row : Ticket}
    (other : live (claimsOf org calls i) (digestOf sha256Hex calls i) row = false) :
    incumbentOn sha256Hex org calls i (rows ++ [row]) = incumbentOn sha256Hex org calls i rows := by
  simp [incumbentOn, incumbent, List.filter_append, other]

omit [DecidableEq ι] in
/-- A row of the content that is behind none is the incumbent. -/
theorem incumbentOn_filed {i : ι} {rows : List Ticket} {row : Ticket}
    (alive : live (claimsOf org calls i) (digestOf sha256Hex calls i) row = true)
    (after : ∀ held, incumbentOn sha256Hex org calls i rows = some held →
      held.created_at < row.created_at) :
    incumbentOn sha256Hex org calls i (rows ++ [row]) = some row := by
  have split : (rows ++ [row]).filter (live (claimsOf org calls i) (digestOf sha256Hex calls i)) =
      rows.filter (live (claimsOf org calls i) (digestOf sha256Hex calls i)) ++ [row] := by
    simp [List.filter_append, alive]
  rw [incumbentOn, incumbent, split]
  refine newest_concat fun r member => ?_
  obtain ⟨held, found, before⟩ := newest_latest member
  exact lt_of_le_of_lt before (after held found)

omit [DecidableEq ι] in
theorem latestOf_congr (same : t.tickets.committed = s.tickets.committed) (i : ι) :
    latestOf sha256Hex org calls t i = latestOf sha256Hex org calls s i := by
  rw [latestOf, latestOf, same]

theorem IntakeMove.current {i : ι} {old p : IntakePhase} {tickets : OpenTable ι Ticket}
    {locks : List (ι × Int)}
    (move : IntakeMove sha256Hex hashtextextended org accounts calls s i act old p tickets locks)
    (own : s.tickets.own i = old.rows) (timely : Timely (createdMs s.clock) old)
    (current : Current (latestOf sha256Hex org calls s i) old) :
    Current (latestOf sha256Hex org calls s i) p := by
  cases move with
  | sought =>
    have seen : s.tickets.visible i = s.tickets.committed := by
      rw [OpenTable.visible, own]
      exact List.append_nil _
    rw [seen]
    rfl
  | timed => exact current
  | folded absorbs => exact ⟨current.symm, absorbs⟩
  | filed fresh =>
    intro group latest
    rw [← current] at latest
    obtain ⟨h, rfl, rfl⟩ := Option.map_eq_some_iff.mp latest
    have after := timely.2 h rfl
    by_contra inside
    exact fresh h rfl ⟨rfl, after, not_le.mp inside⟩
  | _ => trivial

theorem intakeStep_undisturbed
    (taken : intakeStep sha256Hex hashtextextended org accounts calls s act = some t)
    (held : LocksKept sha256Hex hashtextextended org calls s)
    (rows : RowsKept sha256Hex org calls s) (spaced : Spaced sha256Hex org calls s)
    (undisturbed : Undisturbed sha256Hex org calls s) (unclosed : ¬ Closes s act) :
    Undisturbed sha256Hex org calls t := by
  rcases intakeStep_cases taken with ⟨i, p, move, -, phase⟩ | elsewhere
  · have self : t.phase i = p := by rw [phase, Function.update_self]
    rcases move.committed_cases (rows.own i) with stays | ⟨filed, was, ends, grown⟩
    · refine ⟨fun row member digest => ?_, fun j => ?_⟩
      · rw [stays] at member
        exact undisturbed.live_rows row member digest
      · rw [latestOf_congr stays]
        by_cases same : j = i
        · subst same
          rw [self]
          exact move.current (rows.own j) (spaced.timely j) (undisturbed.current j)
        · rw [phase, Function.update_of_ne same]
          exact undisturbed.current j
    · have filed_row := rows.pending i filed was
      refine ⟨fun row member digest => ?_, fun j => ?_⟩
      · rw [grown] at member
        rcases List.mem_append.mp member with stood | last
        · exact undisturbed.live_rows row stood digest
        · rw [List.mem_singleton.mp last, filed_row.2]
          rfl
      · by_cases same : j = i
        · subst same
          rw [self, ends]
          trivial
        · rw [phase, Function.update_of_ne same]
          cases holds : (s.phase j).holds with
          | false => exact Current.of_free holds
          | true =>
            -- the content of `j` is locked, so the row is of another
            have other : live (claimsOf org calls j) (digestOf sha256Hex calls j) filed = false := by
              rw [Bool.eq_false_iff, ne_eq, live_iff, filed_row.1.digest]
              rintro ⟨-, -, digest, -⟩
              exact same (held.alone holds (by rw [was]; rfl) (Option.some.inj digest.symm))
            rw [latestOf, grown, incumbentOn_other other]
            exact undisturbed.current j
  · cases elsewhere with
    | tick => exact ⟨undisturbed.live_rows, undisturbed.current⟩
    | @move ticket target =>
      refine ⟨fun row member digest => ?_, fun j => ?_⟩
      · obtain ⟨row, stood, rfl⟩ := List.mem_map.mp member
        have was : row.status.closed = false := by
          refine undisturbed.live_rows row stood ?_
          obtain ⟨status, moved⟩ := moveRow_status ticket target row
          rwa [moved] at digest
        by_contra closed
        exact unclosed ⟨row, stood, was, Bool.not_eq_false _ ▸ closed⟩
      · rw [latestOf_move undisturbed unclosed]
        exact undisturbed.current j

/-! ### The order of the locks -/

/-- The call whose lock the step takes. -/
def locking (tr : Transition (IntakeState ι) (IntakeAct ι)) : Option ι :=
  match tr.act with
  | .statement i _ =>
    match tr.source.phase i with
    | .counted _ => some i
    | _ => none
  | _ => none

def lockOrder (ts : List (Transition (IntakeState ι) (IntakeAct ι))) : List ι :=
  ts.filterMap locking

/-- The call has yet to take its lock. -/
def IntakePhase.early : IntakePhase → Bool
  | .begun | .counted _ => true
  | _ => false

/-- The call has had its lock, and has not failed since. -/
def IntakePhase.queued (p : IntakePhase) : Bool :=
  match p with
  | .answered _ _ | .conflicted _ => true
  | _ => p.holds

structure Ordered (sha256Hex : String → String) (calls : ι → Intake) (order : List ι)
    (s : IntakeState ι) : Prop where
  early : ∀ i, (s.phase i).early = true → i ∉ order
  queued : ∀ i, (s.phase i).queued = true → i ∈ order
  /-- Whoever holds a lock was the last to take it for the content. -/
  last : ∀ i, (s.phase i).holds = true → ∃ before after, order = before ++ i :: after ∧
    i ∉ before ∧ ∀ j ∈ after, digestOf sha256Hex calls j ≠ digestOf sha256Hex calls i

/-- A step of a call takes its lock, or goes on from what it held. -/
theorem IntakeMove.order {i : ι} {old p : IntakePhase} {tickets : OpenTable ι Ticket}
    {locks : List (ι × Int)}
    (move : IntakeMove sha256Hex hashtextextended org accounts calls s i act old p tickets locks)
    (phase : s.phase i = old) :
    (old.early = true ∧ p.early = false ∧ p.holds = true ∧ locking ⟨s, act, t⟩ = some i) ∨
      ((p.early = true → old.early = true) ∧ (p.holds = true → old.holds = true) ∧
        (p.queued = true → old.queued = true) ∧ locking ⟨s, act, t⟩ = none) := by
  cases move with
  | locked => exact .inl ⟨rfl, rfl, rfl, by simp [locking, phase]⟩
  | _ =>
    refine .inr ⟨?_, ?_, ?_, ?_⟩
    · simp [IntakePhase.early]
    · simp [IntakePhase.holds]
    · simp [IntakePhase.queued, IntakePhase.holds]
    · simp [locking, phase]

omit [DecidableEq ι] in
theorem lockOrder_concat (before : List (Transition (IntakeState ι) (IntakeAct ι)))
    (tr : Transition (IntakeState ι) (IntakeAct ι)) :
    lockOrder (before ++ [tr]) = lockOrder before ++ (locking tr).toList := by
  simp only [lockOrder, List.filterMap_append, List.filterMap_cons, List.filterMap_nil]
  cases locking tr <;> rfl

theorem intakeStep_ordered {before : List (Transition (IntakeState ι) (IntakeAct ι))}
    (taken : intakeStep sha256Hex hashtextextended org accounts calls s act = some t)
    (held : LocksKept sha256Hex hashtextextended org calls t)
    (ordered : Ordered sha256Hex calls (lockOrder before) s) :
    Ordered sha256Hex calls (lockOrder (before ++ [⟨s, act, t⟩])) t := by
  rw [lockOrder_concat]
  rcases intakeStep_cases taken with ⟨i, p, move, -, phase⟩ | elsewhere
  · have self : t.phase i = p := by rw [phase, Function.update_self]
    have others : ∀ j, j ≠ i → t.phase j = s.phase j := fun j other => by
      rw [phase, Function.update_of_ne other]
    rcases move.order (t := t) rfl with ⟨was, early, holds, locks⟩ | ⟨early, holds, queued, none_locks⟩
    · rw [locks, Option.toList_some]
      refine ⟨fun j is_early => ?_, fun j is_queued => ?_, fun j is_held => ?_⟩
      · have other : j ≠ i := by
          rintro rfl
          rw [self, early] at is_early
          cases is_early
        rw [others j other] at is_early
        simp [ordered.early j is_early, other]
      · by_cases same : j = i
        · simp [same]
        · rw [others j same] at is_queued
          exact List.mem_append_left _ (ordered.queued j is_queued)
      · by_cases same : j = i
        · subst same
          exact ⟨_, [], rfl, ordered.early j was, by simp⟩
        · obtain ⟨first, after, order, fresh, apart⟩ :=
            ordered.last j (others j same ▸ is_held)
          refine ⟨first, after ++ [i], by simp [order], fresh, fun k member => ?_⟩
          rcases List.mem_append.mp member with earlier | last
          · exact apart k earlier
          · rw [List.mem_singleton.mp last]
            -- the lock of `j` is held, so the one taken is of another content
            exact fun digest => same (held.alone is_held (by rw [self, holds]) digest.symm)
    · rw [none_locks, Option.toList_none, List.append_nil]
      refine ⟨fun j is_early => ?_, fun j is_queued => ?_, fun j is_held => ?_⟩
      · by_cases same : j = i
        · subst same
          exact ordered.early j (early (self ▸ is_early))
        · exact ordered.early j (others j same ▸ is_early)
      · by_cases same : j = i
        · subst same
          exact ordered.queued j (queued (self ▸ is_queued))
        · exact ordered.queued j (others j same ▸ is_queued)
      · by_cases same : j = i
        · subst same
          exact ordered.last j (holds (self ▸ is_held))
        · exact ordered.last j (others j same ▸ is_held)
  · cases elsewhere <;>
    · change Ordered sha256Hex calls (lockOrder before ++ []) _
      rw [List.append_nil]
      exact ⟨ordered.early, ordered.queued, ordered.last⟩

/-! ### The fold of one content -/

def IntakePhase.isAnswered : IntakePhase → Bool
  | .answered _ _ => true
  | _ => false

/-- An answered submission as `collapseDuplicates` takes it. -/
def submissionOf (sha256Hex : String → String) (org : String) (calls : ι → Intake)
    (s : IntakeState ι) (i : ι) : Submission :=
  match s.phase i with
  | .answered outcome createdMs =>
    ⟨outcome.acknowledgement.tracking_id, org, digestOf sha256Hex calls i, createdMs⟩
  | _ => ⟨"", org, digestOf sha256Hex calls i, 0⟩

/-- The submission opened a ticket, under the key of its own instant. -/
def admission (sha256Hex : String → String) (org : String) (calls : ι → Intake)
    (s : IntakeState ι) (i : ι) : Option (ι × String) :=
  match s.phase i with
  | .answered outcome createdMs =>
    if outcome.collapsed then none
    else some (i, dedupeKey org (digestOf sha256Hex calls i) createdMs)
  | _ => none

/-- The submission folded into a ticket. -/
def absorption (s : IntakeState ι) (i : ι) : Option (ι × String) :=
  match s.phase i with
  | .answered outcome _ =>
    if outcome.collapsed then some (i, outcome.acknowledgement.tracking_id) else none
  | _ => none

/-- The submissions of the customer and the body of `i` answered so far. -/
def group (sha256Hex : String → String) (calls : ι → Intake) (order : List ι)
    (s : IntakeState ι) (i : ι) : List ι :=
  order.filter fun j => (calls j).customer = (calls i).customer &&
    decide (digestOf sha256Hex calls j = digestOf sha256Hex calls i) && (s.phase j).isAnswered

structure Folds (sha256Hex : String → String) (org : String) (calls : ι → Intake) (order : List ι)
    (s : IntakeState ι) (i : ι) : Prop where
  latest : (collapseDuplicates (submissionOf sha256Hex org calls s) defaultDedupeWindowMs
    (group sha256Hex calls order s i)).openGroups (content (submissionOf sha256Hex org calls s i)) =
      latestOf sha256Hex org calls s i
  admitted : (collapseDuplicates (submissionOf sha256Hex org calls s) defaultDedupeWindowMs
    (group sha256Hex calls order s i)).admitted =
      (group sha256Hex calls order s i).filterMap (admission sha256Hex org calls s)
  collapsed : (collapseDuplicates (submissionOf sha256Hex org calls s) defaultDedupeWindowMs
    (group sha256Hex calls order s i)).collapsed =
      (group sha256Hex calls order s i).filterMap (absorption s)

/-- The two calls are of one customer and one body. -/
def SameContent (sha256Hex : String → String) (calls : ι → Intake) (i j : ι) : Prop :=
  (calls j).customer = (calls i).customer ∧ digestOf sha256Hex calls j = digestOf sha256Hex calls i

omit [DecidableEq ι] in
theorem mem_group {order : List ι} {i j : ι} :
    j ∈ group sha256Hex calls order s i ↔
      j ∈ order ∧ SameContent sha256Hex calls i j ∧ (s.phase j).isAnswered = true := by
  simp [group, SameContent, and_assoc]

omit [DecidableEq ι] in
theorem latestOf_sameContent {i j : ι} (same : SameContent sha256Hex calls i j) :
    latestOf sha256Hex org calls s j = latestOf sha256Hex org calls s i := by
  simp only [latestOf, incumbentOn, claimsOf, same.1, same.2]

omit [DecidableEq ι] in
theorem content_submissionOf (i : ι) :
    content (submissionOf sha256Hex org calls s i) = org ++ ":" ++ digestOf sha256Hex calls i := by
  rw [submissionOf]
  split <;> rfl

omit [DecidableEq ι] in
/-- What is answered stays as it was answered, and the fold reads nothing else. -/
theorem group_kept (sha256Hex : String → String) (org : String) (calls : ι → Intake)
    (order : List ι) (i : ι)
    (kept : ∀ j, (s.phase j).isAnswered = true → t.phase j = s.phase j) :
    collapseDuplicates (submissionOf sha256Hex org calls t) defaultDedupeWindowMs
        (group sha256Hex calls order s i) =
      collapseDuplicates (submissionOf sha256Hex org calls s) defaultDedupeWindowMs
        (group sha256Hex calls order s i) ∧
    (group sha256Hex calls order s i).filterMap (admission sha256Hex org calls t) =
      (group sha256Hex calls order s i).filterMap (admission sha256Hex org calls s) ∧
    (group sha256Hex calls order s i).filterMap (absorption t) =
      (group sha256Hex calls order s i).filterMap (absorption s) := by
  have phases : ∀ j ∈ group sha256Hex calls order s i, t.phase j = s.phase j :=
    fun j member => kept j (mem_group.mp member).2.2
  refine ⟨?_, ?_, ?_⟩
  · exact collapseDuplicates_congr fun j member => by simp only [submissionOf, phases j member]
  · exact List.filterMap_congr fun j member => by simp only [admission, phases j member]
  · exact List.filterMap_congr fun j member => by simp only [absorption, phases j member]

omit [DecidableEq ι] in
theorem Folds.of_same {order order' : List ι} {i : ι}
    (folds : Folds sha256Hex org calls order s i)
    (kept : ∀ j, (s.phase j).isAnswered = true → t.phase j = s.phase j)
    (group_same : group sha256Hex calls order' t i = group sha256Hex calls order s i)
    (latest : latestOf sha256Hex org calls t i = latestOf sha256Hex org calls s i) :
    Folds sha256Hex org calls order' t i := by
  obtain ⟨fold, admitted, collapsed⟩ := group_kept sha256Hex org calls order i kept
  refine ⟨?_, ?_, ?_⟩
  · rw [group_same, fold, content_submissionOf, latest, ← content_submissionOf (s := s)]
    exact folds.latest
  · rw [group_same, fold, admitted, folds.admitted]
  · rw [group_same, fold, collapsed, folds.collapsed]

omit [DecidableEq ι] in
/-- The group of a call about to be answered grows by it, at its end. -/
theorem Ordered.group_concat {order : List ι} (ordered : Ordered sha256Hex calls order s) {i j : ι}
    (held : (s.phase i).holds = true) (answered : (t.phase i).isAnswered = true)
    (others : ∀ k, k ≠ i → t.phase k = s.phase k) (same : SameContent sha256Hex calls j i) :
    group sha256Hex calls order t j = group sha256Hex calls order s j ++ [i] := by
  obtain ⟨first, after, rfl, fresh, apart⟩ := ordered.last i held
  have unanswered : (s.phase i).isAnswered = false := by
    generalize s.phase i = p at held
    cases p <;> first | rfl | cases held
  have head : group sha256Hex calls first t j = group sha256Hex calls first s j := by
    refine List.filter_congr fun k member => ?_
    have other : k ≠ i := by
      rintro rfl
      exact fresh member
    simp only [others k other]
  have tail : ∀ u : IntakeState ι, group sha256Hex calls after u j = [] := by
    intro u
    refine List.filter_eq_nil_iff.mpr fun k member => ?_
    have digest := apart k member
    rw [same.2] at digest
    simp [digest]
  have split : ∀ u : IntakeState ι, group sha256Hex calls (first ++ i :: after) u j =
      group sha256Hex calls first u j ++ group sha256Hex calls [i] u j := by
    intro u
    have whole : first ++ i :: after = first ++ ([i] ++ after) := rfl
    have cut := tail u
    simp only [group] at cut ⊢
    rw [whole, List.filter_append, List.filter_append, cut, List.append_nil]
  rw [split, split, head]
  have last_t : group sha256Hex calls [i] t j = [i] := by simp [group, same.1, same.2, answered]
  have last_s : group sha256Hex calls [i] s j = [] := by simp [group, unanswered]
  rw [last_t, last_s, List.append_nil]

omit [DecidableEq ι] in
/-- A row filed opens the group of its content in the fold too. -/
theorem Folds.filed {order order' : List ι} {i j : ι} {row : Ticket}
    (folds : Folds sha256Hex org calls order s j)
    (kept : ∀ k, (s.phase k).isAnswered = true → t.phase k = s.phase k)
    (grown : group sha256Hex calls order' t j = group sha256Hex calls order s j ++ [i])
    (same : SameContent sha256Hex calls j i)
    (current : Current (latestOf sha256Hex org calls s i) (.filed row))
    (answer : t.phase i = .answered (acknowledge row false) row.created_at)
    (filed : FiledBy sha256Hex org calls i row) (is_open : row.status.closed = false)
    (committed : t.tickets.committed = s.tickets.committed ++ [row]) :
    Folds sha256Hex org calls order' t j := by
  obtain ⟨fold, admitted, collapsed⟩ := group_kept sha256Hex org calls order j kept
  have submission : submissionOf sha256Hex org calls t i =
      ⟨row.id, org, digestOf sha256Hex calls i, row.created_at⟩ := by
    rw [submissionOf, answer]
    rfl
  have key : ∀ u : IntakeState ι, content (submissionOf sha256Hex org calls t i) =
      content (submissionOf sha256Hex org calls u j) := by
    intro u
    rw [content_submissionOf, content_submissionOf, same.2]
  have none_absorbs : ∀ g, (collapseDuplicates (submissionOf sha256Hex org calls t)
      defaultDedupeWindowMs (group sha256Hex calls order s j)).openGroups
        (content (submissionOf sha256Hex org calls t i)) = some g →
      ¬ WithinWindow g (submissionOf sha256Hex org calls t i).createdAt defaultDedupeWindowMs := by
    intro g group_open absorbs
    rw [fold, key s, folds.latest, ← latestOf_sameContent same] at group_open
    have behind := current g group_open
    rw [submission] at absorbs
    have inside : row.created_at < g.anchorCreatedAt + defaultDedupeWindowMs := absorbs.2.2
    omega
  have latest : latestOf sha256Hex org calls t j = some (incumbentOf row) := by
    rw [← latestOf_sameContent same, latestOf, committed, incumbentOn_filed]
    · rfl
    · exact live_iff.mpr ⟨filed.org_id, filed.isTicketOf.2.1, filed.digest, is_open⟩
    · intro held found
      have behind := current (incumbentOf held) (by rw [latestOf, found]; rfl)
      have window : (0 : Int) < defaultDedupeWindowMs := by decide
      have anchor : (incumbentOf held).anchorCreatedAt = held.created_at := rfl
      omega
  refine ⟨?_, ?_, ?_⟩
  · rw [grown, collapseDuplicates_concat, collapseOne_fresh none_absorbs, ← key t, latest,
      submission]
    exact Function.update_self _ _ _
  · rw [grown, collapseDuplicates_concat, collapseOne_fresh none_absorbs, List.filterMap_append,
      admitted, ← folds.admitted, fold, submission]
    simp [admission, answer, acknowledge]
  · rw [grown, collapseDuplicates_concat, collapseOne_fresh none_absorbs, List.filterMap_append,
      collapsed, ← folds.collapsed, fold]
    simp [absorption, answer, acknowledge]

omit [DecidableEq ι] in
/-- A submission folded is folded into the same ticket. -/
theorem Folds.folded {order order' : List ι} {i j : ι} {held : Ticket} {createdMs : Int}
    (folds : Folds sha256Hex org calls order s j)
    (kept : ∀ k, (s.phase k).isAnswered = true → t.phase k = s.phase k)
    (grown : group sha256Hex calls order' t j = group sha256Hex calls order s j ++ [i])
    (same : SameContent sha256Hex calls j i)
    (current : Current (latestOf sha256Hex org calls s i) (.folded held createdMs))
    (answer : t.phase i = .answered (acknowledge held true) createdMs)
    (committed : t.tickets.committed = s.tickets.committed) :
    Folds sha256Hex org calls order' t j := by
  obtain ⟨fold, admitted, collapsed⟩ := group_kept sha256Hex org calls order j kept
  have submission : submissionOf sha256Hex org calls t i =
      ⟨held.id, org, digestOf sha256Hex calls i, createdMs⟩ := by
    rw [submissionOf, answer]
    rfl
  have key : content (submissionOf sha256Hex org calls t i) =
      content (submissionOf sha256Hex org calls s j) := by
    rw [content_submissionOf, content_submissionOf, same.2]
  have group_open : (collapseDuplicates (submissionOf sha256Hex org calls t)
      defaultDedupeWindowMs (group sha256Hex calls order s j)).openGroups
        (content (submissionOf sha256Hex org calls t i)) = some (incumbentOf held) := by
    rw [fold, key, folds.latest, ← latestOf_sameContent same]
    exact current.1
  have absorbs : WithinWindow (incumbentOf held) (submissionOf sha256Hex org calls t i).createdAt
      defaultDedupeWindowMs := by
    rw [submission]
    exact current.2
  refine ⟨?_, ?_, ?_⟩
  · rw [grown, collapseDuplicates_concat, collapseOne_absorbed group_open absorbs, fold,
      latestOf_congr committed, content_submissionOf, ← content_submissionOf (s := s)]
    exact folds.latest
  · rw [grown, collapseDuplicates_concat, collapseOne_absorbed group_open absorbs,
      List.filterMap_append, admitted, ← folds.admitted, fold]
    simp [admission, answer, acknowledge]
  · rw [grown, collapseDuplicates_concat, collapseOne_absorbed group_open absorbs,
      List.filterMap_append, collapsed, ← folds.collapsed, fold]
    simp [absorption, answer, acknowledge, incumbentOf]

/-! ### The step -/

/-- How a call comes to be answered. -/
theorem IntakeMove.answers {i : ι} {old p : IntakePhase} {tickets : OpenTable ι Ticket}
    {locks : List (ι × Int)}
    (move : IntakeMove sha256Hex hashtextextended org accounts calls s i act old p tickets locks)
    (own : s.tickets.own i = old.rows) :
    old.isAnswered = false ∧
      ((p.isAnswered = false ∧ tickets.committed = s.tickets.committed) ∨
        (∃ row, old = .filed row ∧ p = .answered (acknowledge row false) row.created_at ∧
          tickets.committed = s.tickets.committed ++ [row]) ∨
        (∃ held createdMs, old = .folded held createdMs ∧
          p = .answered (acknowledge held true) createdMs ∧
          tickets.committed = s.tickets.committed) ∨
        ∃ createdMs, old = .conflicted createdMs) := by
  cases move with
  | committed =>
    refine ⟨rfl, .inr (.inl ⟨_, rfl, rfl, ?_⟩)⟩
    rw [IntakeState.commit, OpenTable.committed_commit, own]
    rfl
  | released =>
    refine ⟨rfl, .inr (.inr (.inl ⟨_, _, rfl, rfl, ?_⟩))⟩
    rw [IntakeState.commit, OpenTable.committed_commit, own]
    exact List.append_nil _
  | reread | rethrown => exact ⟨rfl, .inr (.inr (.inr ⟨_, rfl⟩))⟩
  | crashed going =>
    refine ⟨?_, .inl ⟨rfl, rfl⟩⟩
    cases old <;> first | rfl | cases going
  | _ => exact ⟨rfl, .inl ⟨rfl, rfl⟩⟩

/-- A key is met only where it is taken. -/
theorem IntakeMove.unmet {i : ι} {old : IntakePhase} {createdMs : Int}
    {tickets : OpenTable ι Ticket} {locks : List (ι × Int)}
    (move : IntakeMove sha256Hex hashtextextended org accounts calls s i act old
      (.conflicted createdMs) tickets locks)
    (phase : s.phase i = old) (own : s.tickets.own i = old.rows) :
    KeyTaken sha256Hex org calls i ⟨s, act, t⟩ := by
  cases move with
  | keyTaken fresh taken =>
    obtain ⟨row, seen, same⟩ := OpenTable.verdict_conflict.mp taken
    simp only [ticketDedupeKey, Bool.and_eq_true, beq_iff_eq] at same
    refine ⟨⟨_, rfl⟩, _, _, _, phase, fresh, row, ?_, same.1.1.symm, same.2.symm⟩
    rcases OpenTable.mem_visible.mp seen with standing | mine
    · exact standing
    · rw [own] at mine
      cases mine

omit [DecidableEq ι] in
/-- A step of a call of another content leaves the group. -/
theorem group_other {order : List ι} {i j : ι} (others : ∀ k, k ≠ i → t.phase k = s.phase k)
    (apart : ¬ SameContent sha256Hex calls j i) :
    group sha256Hex calls order t j = group sha256Hex calls order s j := by
  refine List.filter_congr fun k _ => ?_
  by_cases is_i : k = i
  · rw [is_i]
    have apart' : ((calls i).customer = (calls j).customer &&
        decide (digestOf sha256Hex calls i = digestOf sha256Hex calls j)) = false := by
      rw [Bool.eq_false_iff]
      simpa [SameContent] using apart
    simp only [apart', Bool.false_and]
  · rw [others k is_i]

/-- No submission has met its key on another's row, and each group folds. -/
structure Collapsing (sha256Hex : String → String) (org : String) (calls : ι → Intake)
    (order : List ι) (s : IntakeState ι) : Prop where
  unmet : ∀ i createdMs, s.phase i ≠ .conflicted createdMs
  folds : ∀ i, Folds sha256Hex org calls order s i

theorem intakeStep_collapsing {before : List (Transition (IntakeState ι) (IntakeAct ι))}
    (taken : intakeStep sha256Hex hashtextextended org accounts calls s act = some t)
    (rows : RowsKept sha256Hex org calls s) (undisturbed : Undisturbed sha256Hex org calls s)
    (ordered : Ordered sha256Hex calls (lockOrder before) s)
    (unclosed : ¬ Closes s act) (free : ∀ i, ¬ KeyTaken sha256Hex org calls i ⟨s, act, t⟩)
    (collapsing : Collapsing sha256Hex org calls (lockOrder before) s) :
    Collapsing sha256Hex org calls (lockOrder (before ++ [⟨s, act, t⟩])) t := by
  -- whoever takes a lock is not answered
  have extended : ∀ u : IntakeState ι,
      (∀ k, locking ⟨s, act, t⟩ = some k → (u.phase k).isAnswered = false) → ∀ j,
      group sha256Hex calls (lockOrder (before ++ [⟨s, act, t⟩])) u j =
        group sha256Hex calls (lockOrder before) u j := by
    intro u unanswered j
    rw [lockOrder_concat, group, List.filter_append]
    refine (congrArg _ (List.filter_eq_nil_iff.mpr fun k member => ?_)).trans (List.append_nil _)
    simp [unanswered k (Option.mem_toList.mp member)]
  rcases intakeStep_cases taken with ⟨i, p, move, -, phase⟩ | elsewhere
  · have self : t.phase i = p := by rw [phase, Function.update_self]
    have others : ∀ j, j ≠ i → t.phase j = s.phase j := fun j other => by
      rw [phase, Function.update_of_ne other]
    obtain ⟨unanswered, answers⟩ := move.answers (rows.own i)
    have kept : ∀ j, (s.phase j).isAnswered = true → t.phase j = s.phase j := by
      intro j answered
      refine others j ?_
      rintro rfl
      rw [unanswered] at answered
      cases answered
    have locks : ∀ k, locking ⟨s, act, t⟩ = some k → k = i ∧ p.holds = true := by
      intro k takes
      rcases move.order (t := t) rfl with ⟨-, -, holds, is_i⟩ | ⟨-, -, -, none_locks⟩
      · rw [is_i] at takes
        exact ⟨(Option.some.inj takes).symm, holds⟩
      · rw [none_locks] at takes
        cases takes
    refine ⟨fun j instant met => ?_, fun j => ?_⟩
    · by_cases same : j = i
      · subst same
        rw [self] at met
        rw [met] at move
        exact free j (move.unmet rfl (rows.own j))
      · rw [others j same] at met
        exact collapsing.unmet j instant met
    · have folds := collapsing.folds j
      have extended_t := extended t (fun k takes => by
        obtain ⟨rfl, holds⟩ := locks k takes
        rw [self]
        generalize p = q at holds
        cases q <;> first | rfl | cases holds) j
      rcases answers with ⟨still, stays⟩ | ⟨row, was, ends, grown⟩ |
          ⟨found, instant, was, ends, stays⟩ | ⟨instant, was⟩
      · refine folds.of_same kept (extended_t.trans ?_) (latestOf_congr stays j)
        refine List.filter_congr fun k _ => ?_
        by_cases same : k = i
        · rw [same, self, still, unanswered]
        · rw [others k same]
      · have filed_row := rows.pending i row was
        by_cases same : SameContent sha256Hex calls j i
        · refine folds.filed kept (extended_t.trans ?_) same ?_ (self.trans ends) filed_row.1
            (by rw [filed_row.2]; rfl) grown
          · exact ordered.group_concat (by rw [was]; rfl) (by rw [self, ends]; rfl) others same
          · have current := undisturbed.current i
            rwa [was] at current
        · -- a row of another content changes neither the group nor its latest
          refine folds.of_same kept (extended_t.trans (group_other others same)) ?_
          rw [latestOf, latestOf, grown, incumbentOn_other]
          rw [Bool.eq_false_iff, ne_eq, live_iff, filed_row.1.digest, filed_row.1.isTicketOf.2.1]
          rintro ⟨-, customer, digest, -⟩
          exact same ⟨customer, Option.some.inj digest⟩
      · by_cases same : SameContent sha256Hex calls j i
        · refine folds.folded kept (extended_t.trans ?_) same ?_ (self.trans ends) stays
          · exact ordered.group_concat (by rw [was]; rfl) (by rw [self, ends]; rfl) others same
          · have current := undisturbed.current i
            rwa [was] at current
        · exact folds.of_same kept (extended_t.trans (group_other others same))
            (latestOf_congr stays j)
      · exact absurd was (collapsing.unmet i instant)
  · have unlocked : locking (⟨s, act, t⟩ : Transition (IntakeState ι) (IntakeAct ι)) = none := by
      cases elsewhere <;> rfl
    have phases : t.phase = s.phase := by cases elsewhere <;> rfl
    refine ⟨fun j instant met => collapsing.unmet j instant (phases ▸ met), fun j => ?_⟩
    refine (collapsing.folds j).of_same (fun k _ => congrFun phases k) ?_ ?_
    · rw [extended t (fun k takes => by rw [unlocked] at takes; cases takes) j]
      exact List.filter_congr fun k _ => by rw [phases]
    · cases elsewhere with
      | tick => rfl
      | move => exact latestOf_move undisturbed unclosed j

end Collapse

end LedgerDesk.Tickets
