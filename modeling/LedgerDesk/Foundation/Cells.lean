import Mathlib

/-!
# Cells under locks

A transaction that writes a cell locks it, and keeps it locked until it ends. Its own version is
seen by nobody else before it commits; to abort is to drop it. A cell that nobody else has locked
is open to a transaction, and what is committed of it can only change at the hands of its holder.
-/
namespace Foundation

structure Cell (ι ν : Type*) where
  committed : ν
  held : Option (ι × ν) := none

namespace Cell

variable {ι ν κ : Type*} [DecidableEq ι]

/-- The cell as the transaction sees it. -/
def sight (c : Cell ι ν) (i : ι) : ν :=
  match c.held with
  | some (j, version) => if j = i then version else c.committed
  | none => c.committed

def isOpen (c : Cell ι ν) (i : ι) : Bool := c.held.all fun lock => lock.1 = i

def write (c : Cell ι ν) (i : ι) (version : ν) : Cell ι ν := { c with held := some (i, version) }

def commit (c : Cell ι ν) (i : ι) : Cell ι ν :=
  match c.held with
  | some (j, version) => if j = i then ⟨version, none⟩ else c
  | none => c

def abort (c : Cell ι ν) (i : ι) : Cell ι ν :=
  match c.held with
  | some (j, _) => if j = i then { c with held := none } else c
  | none => c

/-- The transaction has the lock. -/
def HeldBy (c : Cell ι ν) (i : ι) : Prop := ∃ version, c.held = some (i, version)

variable {c : Cell ι ν} {i j : ι} {version : ν}

theorem sight_of_held (held : c.held = some (i, version)) : c.sight i = version := by
  simp [sight, held]

theorem sight_of_not_held (free : ¬ c.HeldBy i) : c.sight i = c.committed := by
  unfold sight
  split
  · next j version held =>
    split
    · next same =>
      subst same
      exact absurd ⟨version, held⟩ free
    · rfl
  · rfl

theorem not_heldBy_of_open (opened : c.isOpen i = true) (other : j ≠ i) : ¬ c.HeldBy j := by
  rintro ⟨version, held⟩
  simp only [isOpen, held, Option.all_some, decide_eq_true_eq] at opened
  exact other opened

omit [DecidableEq ι] in
@[simp] theorem write_committed : (c.write i version).committed = c.committed := rfl

@[simp] theorem sight_write : (c.write i version).sight i = version := by
  simp [sight, write]

omit [DecidableEq ι] in
theorem heldBy_write : (c.write i version).HeldBy i := ⟨version, rfl⟩

omit [DecidableEq ι] in
theorem not_heldBy_write (other : j ≠ i) : ¬ (c.write i version).HeldBy j := by
  rintro ⟨version', held⟩
  simp only [write, Option.some.injEq, Prod.mk.injEq] at held
  exact other held.1.symm

@[simp] theorem commit_committed : (c.commit i).committed = c.sight i := by
  unfold commit sight
  split
  · split <;> rfl
  · rfl

@[simp] theorem abort_committed : (c.abort i).committed = c.committed := by
  unfold abort
  split
  · split <;> rfl
  · rfl

theorem not_heldBy_commit : ¬ (c.commit i).HeldBy i := by
  unfold commit
  rintro ⟨version, held⟩
  split at held
  · next j version' lock =>
    split at held
    · cases held
    · next other =>
      rw [lock] at held
      exact other (congrArg Prod.fst (Option.some.inj held))
  · next free =>
    rw [free] at held
    cases held

theorem not_heldBy_abort : ¬ (c.abort i).HeldBy i := by
  unfold abort
  rintro ⟨version, held⟩
  split at held
  · next j version' lock =>
    split at held
    · cases held
    · next other =>
      rw [lock] at held
      exact other (congrArg Prod.fst (Option.some.inj held))
  · next free =>
    rw [free] at held
    cases held

/-- The end of another transaction is the end of none of this one's locks. -/
theorem commit_of_held_other (held : c.HeldBy j) (other : j ≠ i) : c.commit i = c := by
  obtain ⟨version, lock⟩ := held
  simp [commit, lock, other]

theorem abort_of_held_other (held : c.HeldBy j) (other : j ≠ i) : c.abort i = c := by
  obtain ⟨version, lock⟩ := held
  simp [abort, lock, other]

theorem commit_of_not_held (free : ¬ c.HeldBy i) : c.commit i = c := by
  unfold commit
  split
  · next j version lock =>
    rw [if_neg]
    rintro rfl
    exact free ⟨version, lock⟩
  · rfl

theorem abort_of_not_held (free : ¬ c.HeldBy i) : c.abort i = c := by
  unfold abort
  split
  · next j version lock =>
    rw [if_neg]
    rintro rfl
    exact free ⟨version, lock⟩
  · rfl

theorem sight_write_of_ne (other : j ≠ i) : (c.write i version).sight j = c.committed :=
  sight_of_not_held (not_heldBy_write other)

/-- What was a transaction's own is what everybody sees once it commits. -/
theorem sight_commit_of_held (held : c.HeldBy i) : (c.commit i).sight j = c.sight i := by
  obtain ⟨version, lock⟩ := held
  simp [commit, sight, lock]

theorem sight_abort_of_held (held : c.HeldBy i) : (c.abort i).sight j = c.committed := by
  obtain ⟨version, lock⟩ := held
  simp [abort, sight, lock]

theorem heldBy_commit_iff (other : j ≠ i) : (c.commit i).HeldBy j ↔ c.HeldBy j := by
  by_cases mine : c.HeldBy i
  · -- it was this transaction's, so it is nobody's now
    obtain ⟨version, lock⟩ := mine
    simp [commit, HeldBy, lock, Ne.symm other]
  · rw [commit_of_not_held mine]

theorem heldBy_abort_iff (other : j ≠ i) : (c.abort i).HeldBy j ↔ c.HeldBy j := by
  by_cases mine : c.HeldBy i
  · obtain ⟨version, lock⟩ := mine
    simp [abort, HeldBy, lock, Ne.symm other]
  · rw [abort_of_not_held mine]

end Cell

end Foundation
