import Mathlib

/-!
# Duplicate submissions

A submission that repeats a body inside the window of the group that holds it is the same
submission. Instants are whole epoch milliseconds.
-/
namespace LedgerDesk.Queue

def defaultDedupeWindowMs : Int := 5 * 60 * 1000

def dedupeKey (orgId bodySha256 : String) (anchorCreatedAt : Int) : String :=
  orgId ++ ":" ++ bodySha256 ++ ":" ++ toString anchorCreatedAt

structure Submission where
  id : String
  orgId : String
  bodySha256 : String
  createdAt : Int
  deriving DecidableEq, Repr

structure DedupeIncumbent where
  id : String
  anchorCreatedAt : Int
  open_ : Bool
  deriving DecidableEq, Repr

structure DedupeDecision where
  key : String
  collapse : Bool
  collapsedInto : Option String
  anchorCreatedAt : Int
  deriving DecidableEq, Repr

def dedupeDecision (submission : Submission) (incumbent : Option DedupeIncumbent)
    (windowMs : Int) : DedupeDecision :=
  let fresh : DedupeDecision := {
    key := dedupeKey submission.orgId submission.bodySha256 submission.createdAt
    collapse := false
    collapsedInto := none
    anchorCreatedAt := submission.createdAt }
  match incumbent with
  | none => fresh
  | some incumbent =>
    if !incumbent.open_ then fresh
    else
      let gap := submission.createdAt - incumbent.anchorCreatedAt
      if gap < 0 || windowMs ≤ gap then fresh
      else {
        key := dedupeKey submission.orgId submission.bodySha256 incumbent.anchorCreatedAt
        collapse := true
        collapsedInto := some incumbent.id
        anchorCreatedAt := incumbent.anchorCreatedAt }

/-! ### The fold over a stream -/

/-- The groups open for collapsing, by content, and what has become of the stream so far. -/
structure CollapseResult (τ : Type*) where
  openGroups : String → Option DedupeIncumbent
  admitted : List (τ × String)
  collapsed : List (τ × String)

def content (submission : Submission) : String := submission.orgId ++ ":" ++ submission.bodySha256

section Collapse

variable {τ : Type*} (submission : τ → Submission) (windowMs : Int)

/-- One turn of the loop of `collapseDuplicates`. -/
def collapseOne (result : CollapseResult τ) (entry : τ) : CollapseResult τ :=
  let decision := dedupeDecision (submission entry)
    (result.openGroups (content (submission entry))) windowMs
  match decision.collapse, decision.collapsedInto with
  | true, some into => { result with collapsed := result.collapsed ++ [(entry, into)] }
  | _, _ =>
    { result with
      openGroups := Function.update result.openGroups (content (submission entry))
        (some ⟨(submission entry).id, decision.anchorCreatedAt, true⟩)
      admitted := result.admitted ++ [(entry, decision.key)] }

def collapseDuplicates (submissions : List τ) : CollapseResult τ :=
  submissions.foldl (collapseOne submission windowMs) ⟨fun _ => none, [], []⟩

end Collapse

/-! ### What a decision is -/

/-- The incumbent is open, and the submission falls inside its window. -/
def WithinWindow (incumbent : DedupeIncumbent) (createdAt windowMs : Int) : Prop :=
  incumbent.open_ = true ∧ incumbent.anchorCreatedAt ≤ createdAt ∧
    createdAt < incumbent.anchorCreatedAt + windowMs

theorem dedupeDecision_absorbed {submission : Submission} {incumbent : DedupeIncumbent}
    {windowMs : Int} (absorbs : WithinWindow incumbent submission.createdAt windowMs) :
    dedupeDecision submission (some incumbent) windowMs =
      ⟨dedupeKey submission.orgId submission.bodySha256 incumbent.anchorCreatedAt, true,
        some incumbent.id, incumbent.anchorCreatedAt⟩ := by
  obtain ⟨is_open, after, inside⟩ := absorbs
  have inside' : (decide (submission.createdAt - incumbent.anchorCreatedAt < 0) ||
      decide (windowMs ≤ submission.createdAt - incumbent.anchorCreatedAt)) = false := by
    rw [Bool.or_eq_false_iff, decide_eq_false_iff_not, decide_eq_false_iff_not]
    omega
  simp only [dedupeDecision, is_open, inside', Bool.not_true, Bool.false_eq_true, if_false]

theorem dedupeDecision_fresh {submission : Submission} {incumbent : Option DedupeIncumbent}
    {windowMs : Int}
    (none_absorbs : ∀ i, incumbent = some i → ¬ WithinWindow i submission.createdAt windowMs) :
    dedupeDecision submission incumbent windowMs =
      ⟨dedupeKey submission.orgId submission.bodySha256 submission.createdAt, false, none,
        submission.createdAt⟩ := by
  cases incumbent with
  | none => rfl
  | some incumbent =>
    have outside := none_absorbs incumbent rfl
    simp only [WithinWindow] at outside
    cases is_open : incumbent.open_ with
    | false => simp [dedupeDecision, is_open]
    | true =>
      have outside' : (decide (submission.createdAt - incumbent.anchorCreatedAt < 0) ||
          decide (windowMs ≤ submission.createdAt - incumbent.anchorCreatedAt)) = true := by
        rw [Bool.or_eq_true, decide_eq_true_eq, decide_eq_true_eq]
        by_contra inside
        exact outside ⟨is_open, by omega, by omega⟩
      simp only [dedupeDecision, is_open, outside', Bool.not_true, Bool.false_eq_true, if_false,
        if_true]

/-- A decision collapses into an incumbent that absorbs the submission, or is fresh. -/
theorem dedupeDecision_cases (submission : Submission) (incumbent : Option DedupeIncumbent)
    (windowMs : Int) :
    (∃ i, incumbent = some i ∧ WithinWindow i submission.createdAt windowMs) ∨
      ∀ i, incumbent = some i → ¬ WithinWindow i submission.createdAt windowMs := by
  by_cases absorbed : ∃ i, incumbent = some i ∧ WithinWindow i submission.createdAt windowMs
  · exact .inl absorbed
  · exact .inr fun i held absorbs => absorbed ⟨i, held, absorbs⟩

section Collapse

variable {τ : Type*} {submission : τ → Submission} {windowMs : Int}

theorem collapseOne_absorbed {result : CollapseResult τ} {entry : τ} {incumbent : DedupeIncumbent}
    (held : result.openGroups (content (submission entry)) = some incumbent)
    (absorbs : WithinWindow incumbent (submission entry).createdAt windowMs) :
    collapseOne submission windowMs result entry =
      { result with collapsed := result.collapsed ++ [(entry, incumbent.id)] } := by
  simp only [collapseOne, held, dedupeDecision_absorbed absorbs]

theorem collapseOne_fresh {result : CollapseResult τ} {entry : τ}
    (none_absorbs : ∀ i, result.openGroups (content (submission entry)) = some i →
      ¬ WithinWindow i (submission entry).createdAt windowMs) :
    collapseOne submission windowMs result entry =
      { result with
        openGroups := Function.update result.openGroups (content (submission entry))
          (some ⟨(submission entry).id, (submission entry).createdAt, true⟩)
        admitted := result.admitted ++
          [(entry, dedupeKey (submission entry).orgId (submission entry).bodySha256
            (submission entry).createdAt)] } := by
  simp only [collapseOne, dedupeDecision_fresh none_absorbs]

theorem collapseDuplicates_concat (entries : List τ) (entry : τ) :
    collapseDuplicates submission windowMs (entries ++ [entry]) =
      collapseOne submission windowMs (collapseDuplicates submission windowMs entries) entry := by
  simp [collapseDuplicates]

/-- The fold reads no more of the entries than the submissions they are. -/
theorem collapseDuplicates_congr {other : τ → Submission} {entries : List τ}
    (same : ∀ entry ∈ entries, submission entry = other entry) :
    collapseDuplicates submission windowMs entries = collapseDuplicates other windowMs entries := by
  induction entries using List.reverseRecOn with
  | nil => rfl
  | append_singleton entries entry ih =>
    rw [collapseDuplicates_concat, collapseDuplicates_concat,
      ih fun e member => same e (List.mem_append_left _ member)]
    simp only [collapseOne, same entry (by simp)]

/-- The second result is what the first holds of one content. -/
structure Restricts (submission : τ → Submission) (key : String)
    (whole part : CollapseResult τ) : Prop where
  group : part.openGroups key = whole.openGroups key
  admitted : part.admitted = whole.admitted.filter fun e => content (submission e.1) = key
  collapsed : part.collapsed = whole.collapsed.filter fun e => content (submission e.1) = key

theorem Restricts.collapseOne {key : String} {whole part : CollapseResult τ}
    (restricts : Restricts submission key whole part) {entry : τ}
    (within : content (submission entry) = key) :
    Restricts submission key (collapseOne submission windowMs whole entry)
      (collapseOne submission windowMs part entry) := by
  obtain ⟨group, admitted, collapsed⟩ := restricts
  subst within
  rcases dedupeDecision_cases (submission entry)
      (whole.openGroups (content (submission entry))) windowMs with
    ⟨incumbent, held, absorbs⟩ | none_absorbs
  · rw [collapseOne_absorbed held absorbs, collapseOne_absorbed (group.trans held) absorbs]
    exact ⟨group, admitted, by simp [collapsed]⟩
  · rw [collapseOne_fresh none_absorbs, collapseOne_fresh (group ▸ none_absorbs)]
    exact ⟨by simp, by simp [admitted], collapsed⟩

theorem Restricts.other {key : String} {whole part : CollapseResult τ}
    (restricts : Restricts submission key whole part) {entry : τ}
    (outside : content (submission entry) ≠ key) :
    Restricts submission key (Queue.collapseOne submission windowMs whole entry) part := by
  obtain ⟨group, admitted, collapsed⟩ := restricts
  rcases dedupeDecision_cases (submission entry)
      (whole.openGroups (content (submission entry))) windowMs with
    ⟨incumbent, held, absorbs⟩ | none_absorbs
  · rw [collapseOne_absorbed held absorbs]
    exact ⟨group, admitted, by simp [collapsed, outside]⟩
  · rw [collapseOne_fresh none_absorbs]
    exact ⟨by simp [group, Function.update_of_ne (Ne.symm outside)], by simp [admitted, outside],
      collapsed⟩

/-- Groups of different contents do not meet: the fold over the entries of one content is what
the fold over all of them holds of it. -/
theorem collapseDuplicates_filter (submission : τ → Submission) (windowMs : Int) (key : String)
    (entries : List τ) :
    Restricts submission key (collapseDuplicates submission windowMs entries)
      (collapseDuplicates submission windowMs
        (entries.filter fun e => content (submission e) = key)) := by
  induction entries using List.reverseRecOn with
  | nil => exact ⟨rfl, rfl, rfl⟩
  | append_singleton entries entry ih =>
    rw [collapseDuplicates_concat, List.filter_append]
    by_cases within : content (submission entry) = key
    · have kept : [entry].filter (fun e => content (submission e) = key) = [entry] := by
        simp [within]
      rw [kept, collapseDuplicates_concat]
      exact ih.collapseOne within
    · have dropped : [entry].filter (fun e => content (submission e) = key) = [] := by
        simp [within]
      rw [dropped, List.append_nil]
      exact ih.other within

end Collapse

end LedgerDesk.Queue
