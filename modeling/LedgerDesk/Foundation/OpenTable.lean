import Mathlib

/-!
# A table with open transactions

Rows that open transactions have added stand beside the committed ones. Each transaction sees
its own and what is committed; a uniqueness rule is held over all of them, which is what makes
an insert wait for a transaction that may yet commit the row it clashes with.
-/
namespace Foundation

structure OpenTable (ι ρ : Type*) where
  committed : List ρ
  pending : List (ι × ρ)

namespace OpenTable

variable {ι ρ : Type*} [DecidableEq ι]

def start (rows : List ρ) : OpenTable ι ρ := ⟨rows, []⟩

/-- Every row that may come to stand. -/
def rows (t : OpenTable ι ρ) : List ρ := t.committed ++ t.pending.map Prod.snd

/-- The rows a transaction has added. -/
def own (t : OpenTable ι ρ) (i : ι) : List ρ := (t.pending.filter fun p => p.1 = i).map Prod.snd

/-- What a statement of the transaction sees. -/
def visible (t : OpenTable ι ρ) (i : ι) : List ρ := t.committed ++ t.own i

def insert (t : OpenTable ι ρ) (i : ι) (row : ρ) : OpenTable ι ρ :=
  { t with pending := t.pending ++ [(i, row)] }

def rollback (t : OpenTable ι ρ) (i : ι) : OpenTable ι ρ :=
  { t with pending := t.pending.filter fun p => p.1 ≠ i }

def commit (t : OpenTable ι ρ) (i : ι) : OpenTable ι ρ :=
  { t.rollback i with committed := t.committed ++ t.own i }

/-- A statement that changes committed rows and is committed at once. -/
def update (t : OpenTable ι ρ) (set : ρ → ρ) : OpenTable ι ρ :=
  { t with committed := t.committed.map set }

/-- What becomes of an insert under the rule. -/
inductive Verdict where
  | inserted
  /-- A committed row clashes, or one of the transaction's own. -/
  | conflict
  /-- A row of another open transaction clashes. -/
  | waits
  deriving DecidableEq, Repr

variable (clash : ρ → ρ → Bool)

def verdict (t : OpenTable ι ρ) (i : ι) (row : ρ) : Verdict :=
  if (t.visible i).any (clash row) then .conflict
  else if t.rows.any (clash row) then .waits
  else .inserted

/-- No two rows clash, committed or not. -/
def Unique (t : OpenTable ι ρ) : Prop := t.rows.Pairwise fun a b => clash a b = false

variable {clash} {t : OpenTable ι ρ} {i : ι}

@[simp] theorem own_start (rows : List ρ) (i : ι) : (start rows).own i = [] := rfl

omit [DecidableEq ι] in
@[simp] theorem committed_insert (row : ρ) : (t.insert i row).committed = t.committed := rfl

@[simp] theorem committed_rollback : (t.rollback i).committed = t.committed := rfl

@[simp] theorem committed_commit : (t.commit i).committed = t.committed ++ t.own i := rfl

omit [DecidableEq ι] in
@[simp] theorem committed_update (set : ρ → ρ) :
    (t.update set).committed = t.committed.map set := rfl

@[simp] theorem own_update (set : ρ → ρ) (i : ι) : (t.update set).own i = t.own i := rfl

theorem own_insert_self (row : ρ) : (t.insert i row).own i = t.own i ++ [row] := by
  simp [own, insert]

theorem own_insert_of_ne {j : ι} (other : j ≠ i) (row : ρ) : (t.insert i row).own j = t.own j := by
  simp [own, insert, Ne.symm other]

@[simp] theorem own_rollback_self : (t.rollback i).own i = [] := by
  simp [own, rollback, List.filter_filter]

theorem own_rollback_of_ne {j : ι} (other : j ≠ i) : (t.rollback i).own j = t.own j := by
  simp only [own, rollback, List.filter_filter]
  congr 1
  refine List.filter_congr fun p _ => ?_
  by_cases mine : p.1 = j
  · simp [mine, other]
  · simp [mine]

@[simp] theorem own_commit_self : (t.commit i).own i = [] := own_rollback_self

theorem own_commit_of_ne {j : ι} (other : j ≠ i) : (t.commit i).own j = t.own j :=
  own_rollback_of_ne other

theorem mem_visible {row : ρ} : row ∈ t.visible i ↔ row ∈ t.committed ∨ row ∈ t.own i :=
  List.mem_append

theorem mem_rows_of_visible {row : ρ} (seen : row ∈ t.visible i) : row ∈ t.rows := by
  rcases mem_visible.mp seen with standing | mine
  · exact List.mem_append_left _ standing
  · refine List.mem_append_right _ ?_
    obtain ⟨p, member, rfl⟩ := List.mem_map.mp mine
    exact List.mem_map_of_mem (List.mem_of_mem_filter member)

theorem mem_rows {row : ρ} : row ∈ t.rows ↔ row ∈ t.committed ∨ ∃ i, row ∈ t.own i := by
  simp only [rows, List.mem_append, List.mem_map, own, List.mem_filter]
  refine or_congr_right ⟨?_, ?_⟩
  · rintro ⟨p, member, rfl⟩
    exact ⟨p.1, p, ⟨member, decide_eq_true rfl⟩, rfl⟩
  · rintro ⟨i, p, ⟨member, -⟩, rfl⟩
    exact ⟨p, member, rfl⟩

/-- An end of a transaction takes no row out of sight that it does not take back. -/
theorem visible_commit_of_visible {j : ι} {row : ρ} (seen : row ∈ t.visible j) :
    row ∈ (t.commit i).visible j := by
  rcases mem_visible.mp seen with standing | mine
  · exact mem_visible.mpr (.inl (List.mem_append_left _ standing))
  · by_cases same : j = i
    · subst same
      exact mem_visible.mpr (.inl (List.mem_append_right _ mine))
    · exact mem_visible.mpr (.inr (by rwa [own_commit_of_ne same]))

/-! ### The rule is kept -/

theorem verdict_conflict {row : ρ} :
    t.verdict clash i row = .conflict ↔ ∃ r ∈ t.visible i, clash row r = true := by
  rw [verdict]
  split
  · next clashes => exact iff_of_true rfl (List.any_eq_true.mp clashes)
  · next free =>
    refine iff_of_false ?_ fun clashes => free (List.any_eq_true.mpr clashes)
    split <;> exact Verdict.noConfusion

theorem verdict_inserted {row : ρ} :
    t.verdict clash i row = .inserted ↔ ∀ r ∈ t.rows, clash row r = false := by
  rw [verdict]
  split
  · next clashes =>
    obtain ⟨r, seen, clash_r⟩ := List.any_eq_true.mp clashes
    refine iff_of_false Verdict.noConfusion fun apart => ?_
    rw [apart r (mem_rows_of_visible seen)] at clash_r
    cases clash_r
  · split
    · next clashes =>
      obtain ⟨r, member, clash_r⟩ := List.any_eq_true.mp clashes
      refine iff_of_false Verdict.noConfusion fun apart => ?_
      rw [apart r member] at clash_r
      cases clash_r
    · next none_clash =>
      refine iff_of_true rfl fun r member => Bool.eq_false_iff.mpr fun clash_r => ?_
      exact none_clash (List.any_eq_true.mpr ⟨r, member, clash_r⟩)

/-- Rows that clash are one row. -/
theorem eq_of_clash (symm : ∀ a b, clash a b = clash b a) {rows : List ρ}
    (unique : rows.Pairwise fun a b => clash a b = false) {a b : ρ} (member : a ∈ rows)
    (member' : b ∈ rows) (clashes : clash a b = true) : a = b := by
  have mutual_apart : Std.Symm fun a b : ρ => clash a b = false := ⟨fun a b apart => by rwa [symm]⟩
  by_contra other
  have apart := unique.forall member member' other
  rw [clashes] at apart
  cases apart

omit [DecidableEq ι] in
theorem Unique.committed (unique : t.Unique clash) :
    t.committed.Pairwise fun a b => clash a b = false :=
  (List.pairwise_append.mp unique).1

theorem Unique.visible (unique : t.Unique clash) (i : ι) :
    (t.visible i).Pairwise fun a b => clash a b = false :=
  unique.sublist ((List.Sublist.refl _).append (List.filter_sublist.map _))

theorem unique_insert (symm : ∀ a b, clash a b = clash b a) {row : ρ}
    (unique : t.Unique clash) (free : t.verdict clash i row = .inserted) :
    (t.insert i row).Unique clash := by
  have apart : ∀ r ∈ t.rows, clash r row = false := by
    intro r member
    rw [symm]
    exact verdict_inserted.mp free r member
  have rows : (t.insert i row).rows = t.rows ++ [row] := by
    simp [OpenTable.rows, insert]
  rw [Unique, rows, List.pairwise_append]
  refine ⟨unique, List.pairwise_singleton _ _, fun r member r' last => ?_⟩
  rw [List.mem_singleton.mp last]
  exact apart r member

theorem unique_rollback (unique : t.Unique clash) : (t.rollback i).Unique clash :=
  unique.sublist ((List.Sublist.refl _).append (List.filter_sublist.map _))

theorem unique_commit (symm : ∀ a b, clash a b = clash b a) (unique : t.Unique clash) :
    (t.commit i).Unique clash := by
  have reorder : (t.commit i).rows.Perm t.rows := by
    simp only [rows, commit, rollback, own, List.append_assoc, ← List.map_append]
    have split := List.filter_append_perm (fun p : ι × ρ => decide (p.1 = i)) t.pending
    refine List.Perm.append_left _ (List.Perm.map _ ?_)
    convert split using 3
    simp
  refine (List.Perm.pairwise_iff (fun {a b} apart => ?_) reorder).mpr unique
  rw [symm]
  exact apart

omit [DecidableEq ι] in
/-- A change of committed rows that makes none of them clash keeps the rule. -/
theorem unique_update {set : ρ → ρ}
    (apart : ∀ a ∈ t.committed, ∀ b ∈ t.committed, clash a b = false →
      clash (set a) (set b) = false)
    (apart' : ∀ a ∈ t.committed, ∀ b, clash a b = false → clash (set a) b = false)
    (unique : t.Unique clash) : (t.update set).Unique clash := by
  obtain ⟨committed, pending, across⟩ := List.pairwise_append.mp unique
  refine List.pairwise_append.mpr ⟨?_, pending, ?_⟩
  · rw [update, List.pairwise_map]
    refine committed.imp_of_mem fun {a b} member member' => ?_
    exact apart a member b member'
  · intro a member b waiting
    obtain ⟨r, standing, rfl⟩ := List.mem_map.mp member
    exact apart' r standing b (across r standing b waiting)

end OpenTable

end Foundation
