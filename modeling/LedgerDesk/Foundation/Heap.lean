import Mathlib

/-!
# Binary heaps in an array

The node at `k` hangs from the node at `parent k`. Each sift moves one entry along one
path; what it needs is order everywhere but at that entry, and what it leaves is order.
-/
namespace Foundation

variable {α : Type*}

/-- A strict order up to ties: who is not before another is not before anyone behind that one. -/
structure WeakOrder (before : α → α → Bool) : Prop where
  asymm : ∀ {a b}, before a b = true → before b a = false
  trans : ∀ {a b c}, before b a = false → before c b = false → before c a = false

theorem WeakOrder.refl {before : α → α → Bool} (weak : WeakOrder before) (x : α) :
    before x x = false := by
  cases same : before x x with
  | false => rfl
  | true =>
    have other := weak.asymm same
    rw [same] at other
    exact other

namespace Heap

def parent (k : Nat) : Nat := (k - 1) / 2

variable (before : α → α → Bool)

/-! ### Operations -/

/-- The earlier of two positions, the first on a tie or when the second is empty. -/
def earlier (a : Array α) (i j : Nat) : Nat :=
  match a[i]?, a[j]? with
  | some x, some y => if before y x then j else i
  | _, _ => i

/-- The earliest of a node and its two children. -/
def best (a : Array α) (i : Nat) : Nat := earlier before a (earlier before a i (2 * i + 1)) (2 * i + 2)

theorem earlier_eq (a : Array α) (i j : Nat) :
    earlier before a i j = i ∨ earlier before a i j = j ∧ i < a.size ∧ j < a.size := by
  rw [earlier]
  split
  · next x y at_i at_j =>
    split
    · right
      exact ⟨rfl, (Array.getElem?_eq_some_iff.mp at_i).1, (Array.getElem?_eq_some_iff.mp at_j).1⟩
    · exact .inl rfl
  · exact .inl rfl

theorem best_eq (a : Array α) (i : Nat) :
    best before a i = i ∨
      (best before a i = 2 * i + 1 ∨ best before a i = 2 * i + 2) ∧ best before a i < a.size ∧
        i < a.size := by
  have first := earlier_eq before a i (2 * i + 1)
  have second := earlier_eq before a (earlier before a i (2 * i + 1)) (2 * i + 2)
  rw [best]
  omega

def siftUp (a : Array α) (i : Nat) : Array α :=
  if 0 < i then
    match a[i]?, a[parent i]? with
    | some x, some y => if before x y then siftUp (a.swapIfInBounds i (parent i)) (parent i) else a
    | _, _ => a
  else a
termination_by i
decreasing_by
  rw [parent]
  omega

def siftDown (a : Array α) (i : Nat) : Array α :=
  if best before a i = i then a
  else siftDown (a.swapIfInBounds i (best before a i)) (best before a i)
termination_by a.size - i
decreasing_by
  have moved := best_eq before a i
  rw [Array.size_swapIfInBounds]
  omega

def push (a : Array α) (x : α) : Array α := siftUp before (a.push x) a.size

/-- The root, and the heap without it: the last entry takes its place and sinks. -/
def popRoot (a : Array α) : Option (α × Array α) :=
  match a[0]?, a.back? with
  | some root, some last =>
    some (root, if a.pop.isEmpty then a.pop else siftDown before (a.pop.setIfInBounds 0 last) 0)
  | _, _ => none

/-- Sink every node below `n`, from the last one up. -/
def heapify (a : Array α) : Nat → Array α
  | 0 => a
  | n + 1 => heapify (siftDown before a n) n

/-! ### Nothing is lost -/

theorem swap_perm (a : Array α) (i j : Nat) : (a.swapIfInBounds i j).toList.Perm a.toList := by
  rw [Array.swapIfInBounds_def]
  split
  · split
    · exact (Array.swap_perm _ _).toList
    · exact List.Perm.refl _
  · exact List.Perm.refl _

theorem siftUp_perm (a : Array α) (i : Nat) : (siftUp before a i).toList.Perm a.toList := by
  induction a, i using siftUp.induct before with
  | case1 a i up x y at_p at_i moves ih =>
    rw [siftUp, if_pos up, at_i, at_p]
    simp only [moves, if_true]
    exact ih.trans (swap_perm a i (parent i))
  | case2 a i up x y at_p at_i stays =>
    rw [siftUp, if_pos up, at_i, at_p]
    simp only [stays]
    exact List.Perm.refl _
  | case3 a i up out =>
    rw [siftUp, if_pos up]
    split
    · next x y at_i at_p => exact absurd at_p (out x y at_i)
    · exact List.Perm.refl _
  | case4 a i root =>
    rw [siftUp, if_neg root]

theorem siftDown_perm (a : Array α) (i : Nat) : (siftDown before a i).toList.Perm a.toList := by
  induction a, i using siftDown.induct before with
  | case1 a i settled => rw [siftDown, if_pos settled]
  | case2 a i sinks ih =>
    rw [siftDown, if_neg sinks]
    exact ih.trans (swap_perm a i _)

theorem push_perm (a : Array α) (x : α) : (push before a x).toList.Perm (x :: a.toList) := by
  have moved := siftUp_perm before (a.push x) a.size
  rw [Array.toList_push] at moved
  exact moved.trans (List.perm_append_singleton x a.toList)

theorem heapify_perm (a : Array α) (n : Nat) : (heapify before a n).toList.Perm a.toList := by
  induction n generalizing a with
  | zero => exact List.Perm.refl _
  | succ n ih => exact (ih _).trans (siftDown_perm before a n)

theorem popRoot_eq_none {a : Array α} : popRoot before a = none ↔ a = #[] := by
  rw [popRoot]
  constructor
  · intro empty
    split at empty
    · cases empty
    · next out =>
      by_contra filled
      have inside : 0 < a.size := Array.size_pos_iff.mpr filled
      exact out _ _ (Array.getElem?_eq_getElem inside)
        (Array.back?_eq_getElem? ▸ Array.getElem?_eq_getElem (by omega))
  · rintro rfl
    rfl

theorem popRoot_perm {a rest : Array α} {root : α} (popped : popRoot before a = some (root, rest)) :
    a[0]? = some root ∧ (root :: rest.toList).Perm a.toList := by
  rw [popRoot] at popped
  split at popped
  · next r last at_root at_last =>
    simp only [Option.some.injEq, Prod.mk.injEq] at popped
    obtain ⟨rfl, rfl⟩ := popped
    refine ⟨at_root, ?_⟩
    have whole : a.pop.toList ++ [last] = a.toList := by
      obtain ⟨before_last, rfl⟩ := Array.back?_eq_some_iff.mp at_last
      simp
    rw [← whole]
    split
    · next empty =>
      have none : a.pop.toList = [] := congrArg Array.toList (Array.isEmpty_iff.mp empty)
      have only : a.toList = [last] := by rw [← whole, none, List.nil_append]
      have same : r = last := by
        rw [← Array.getElem?_toList, only] at at_root
        exact (Option.some.inj at_root).symm
      rw [none, same]
      exact List.Perm.refl _
    · next filled =>
      refine ((siftDown_perm before _ 0).cons r).trans ?_
      cases tail : a.pop.toList with
      | nil => exact absurd (Array.isEmpty_iff.mpr (Array.toList_inj.mp tail)) filled
      | cons first others =>
        have same : r = first := by
          rw [← Array.getElem?_toList, ← whole, tail] at at_root
          exact (Option.some.inj at_root).symm
        rw [Array.toList_setIfInBounds, tail, same, List.set_cons_zero]
        exact ((List.perm_append_singleton last others).symm.cons first)
  · cases popped

/-! ### Order -/

/-- The entry at `k` does not come before the entry at `p`. -/
def InOrder (a : Array α) (k p : Nat) : Prop :=
  ∀ x y, a[k]? = some x → a[p]? = some y → before x y = false

/-- Every node from `lo` on is in order with its children. -/
def OrderedFrom (lo : Nat) (a : Array α) : Prop :=
  ∀ k, 0 < k → lo ≤ parent k → InOrder before a k (parent k)

def Ordered (a : Array α) : Prop := OrderedFrom before 0 a

/-- Only the entry at `i` may have to rise. -/
structure UpReady (a : Array α) (i : Nat) : Prop where
  except : ∀ k, 0 < k → k ≠ i → InOrder before a k (parent k)
  grand : ∀ k, 0 < k → parent k = i → 0 < i → InOrder before a k (parent i)

/-- From `lo` on, only the entry at `i` may have to sink. -/
structure DownReady (lo : Nat) (a : Array α) (i : Nat) : Prop where
  except : ∀ k, 0 < k → lo ≤ parent k → parent k ≠ i → InOrder before a k (parent k)
  grand : ∀ k, 0 < k → parent k = i → 0 < i → lo ≤ parent i → InOrder before a k (parent i)

omit before in
theorem getElem?_swap {a : Array α} {i j : Nat} (hi : i < a.size) (hj : j < a.size) (k : Nat) :
    (a.swapIfInBounds i j)[k]? = if k = i then a[j]? else if k = j then a[i]? else a[k]? := by
  by_cases inside : k < a.size
  · rw [Array.getElem?_eq_getElem (by rwa [Array.size_swapIfInBounds]), Array.getElem_swapIfInBounds]
    by_cases first : k = i
    · simp [first, hj]
    · by_cases second : k = j
      · subst second
        simp [first, hi]
      · simp [first, second, inside]
  · have outside : a.size ≤ k := Nat.le_of_not_lt inside
    have first : k ≠ i := by omega
    have second : k ≠ j := by omega
    rw [if_neg first, if_neg second, Array.getElem?_eq_none outside,
      Array.getElem?_eq_none (by rwa [Array.size_swapIfInBounds])]

theorem parent_lt {k : Nat} (below : 0 < k) : parent k < k := by
  rw [parent]
  omega

variable {before}

theorem Ordered.upReady {a : Array α} (ordered : Ordered before a) (i : Nat)
    (leaf : ∀ k, 0 < k → parent k = i → a[k]? = none) : UpReady before a i where
  except k below _ := ordered k below (Nat.zero_le _)
  grand k below child _ := by
    intro x y at_k
    rw [leaf k below child] at at_k
    cases at_k

section Order

variable (weak : WeakOrder before)
include weak

/-- The entry at `i` changes places with its parent. -/
theorem UpReady.swap {a : Array α} {i : Nat} {x y : α} (ready : UpReady before a i)
    (below : 0 < i) (at_i : a[i]? = some x) (at_p : a[parent i]? = some y)
    (moves : before x y = true) :
    UpReady before (a.swapIfInBounds i (parent i)) (parent i) := by
  have hi : i < a.size := (Array.getElem?_eq_some_iff.mp at_i).1
  have hp : parent i < a.size := (Array.getElem?_eq_some_iff.mp at_p).1
  have up := parent_lt below
  have kept : before y x = false := weak.asymm moves
  constructor
  · intro k below_k other u v at_k at_parent
    have up_k := parent_lt below_k
    rw [getElem?_swap hi hp] at at_k at_parent
    by_cases own : k = i
    · subst own
      simp only [if_true, if_neg (show parent k ≠ k by omega), at_i, at_p, Option.some.injEq]
        at at_k at_parent
      rw [← at_k, ← at_parent]
      exact kept
    · rw [if_neg own, if_neg other] at at_k
      by_cases child : parent k = i
      · rw [if_pos child] at at_parent
        exact ready.grand k below_k child below u v at_k at_parent
      · rw [if_neg child] at at_parent
        by_cases sibling : parent k = parent i
        · -- the old parent was not after `k`, and the new one comes before it
          rw [if_pos sibling, at_i, Option.some.injEq] at at_parent
          subst at_parent
          exact weak.trans kept (ready.except k below_k own u y at_k (by rw [sibling]; exact at_p))
        · rw [if_neg sibling] at at_parent
          exact ready.except k below_k own u v at_k at_parent
  · intro k below_k child below_p u v at_k at_parent
    have up_k := parent_lt below_k
    have up_p := parent_lt below_p
    rw [getElem?_swap hi hp] at at_k at_parent
    rw [if_neg (by omega), if_neg (by omega)] at at_parent
    have above : before y v = false := ready.except _ below_p (by omega) y v at_p at_parent
    by_cases own : k = i
    · rw [if_pos own, at_p, Option.some.injEq] at at_k
      rw [← at_k]
      exact above
    · rw [if_neg own, if_neg (by omega)] at at_k
      have beside : before u y = false :=
        ready.except k below_k own u y at_k (by rw [child]; exact at_p)
      exact weak.trans above beside

theorem siftUp_ordered (a : Array α) (i : Nat) (ready : UpReady before a i) :
    Ordered before (siftUp before a i) := by
  induction a, i using siftUp.induct before with
  | case1 a i below x y at_p at_i moves ih =>
    rw [siftUp, if_pos below, at_i, at_p]
    simp only [moves, if_true]
    exact ih (ready.swap weak below at_i at_p moves)
  | case2 a i below x y at_p at_i stays =>
    rw [siftUp, if_pos below, at_i, at_p]
    simp only [stays, Bool.false_eq_true, if_false]
    intro k below_k _ u v at_k at_parent
    by_cases own : k = i
    · subst own
      rw [at_i, Option.some.injEq] at at_k
      rw [at_p, Option.some.injEq] at at_parent
      rw [← at_k, ← at_parent]
      exact eq_false_of_ne_true stays
    · exact ready.except k below_k own u v at_k at_parent
  | case3 a i below out =>
    rw [siftUp, if_pos below]
    split
    · next x y at_i at_p => exact absurd at_p (out x y at_i)
    · intro k below_k _ u v at_k at_parent
      by_cases own : k = i
      · subst own
        exact absurd at_parent (out u v at_k)
      · exact ready.except k below_k own u v at_k at_parent
  | case4 a i root =>
    rw [siftUp, if_neg root]
    intro k below_k _
    exact ready.except k below_k (by omega)

/-- What is chosen does not come after either of the two. -/
theorem earlier_first {a : Array α} {i j k : Nat} (hi : i < a.size) (choice : k = i ∨ k = j) :
    InOrder before a k (earlier before a i j) := by
  intro u v at_k at_first
  rw [earlier] at at_first
  split at at_first
  · next x y at_i at_j =>
    split at at_first
    · next chosen =>
      rw [at_j, Option.some.injEq] at at_first
      subst at_first
      rcases choice with rfl | rfl
      · rw [at_i, Option.some.injEq] at at_k
        rw [← at_k]
        exact weak.asymm chosen
      · rw [at_j, Option.some.injEq] at at_k
        rw [← at_k]
        exact weak.refl y
    · next kept =>
      rw [at_i, Option.some.injEq] at at_first
      subst at_first
      rcases choice with rfl | rfl
      · rw [at_i, Option.some.injEq] at at_k
        rw [← at_k]
        exact weak.refl x
      · rw [at_j, Option.some.injEq] at at_k
        rw [← at_k]
        exact eq_false_of_ne_true kept
  · next out =>
    rcases choice with rfl | rfl
    · rw [at_k, Option.some.injEq] at at_first
      rw [at_first]
      exact weak.refl v
    · exact absurd at_k (out v u at_first)

theorem best_first {a : Array α} {i k : Nat} (hi : i < a.size)
    (choice : k = i ∨ 0 < k ∧ parent k = i) : InOrder before a k (best before a i) := by
  have inside : earlier before a i (2 * i + 1) < a.size := by
    have first := earlier_eq before a i (2 * i + 1)
    omega
  rw [best]
  by_cases right : k = 2 * i + 2
  · exact earlier_first weak inside (.inr right)
  · -- what is earlier of `i` and the left child is beaten by the right child only
    have left : k = i ∨ k = 2 * i + 1 := by
      rcases choice with own | ⟨below, child⟩
      · exact .inl own
      · rw [parent] at child
        omega
    intro u v at_k at_best
    have step := earlier_first weak hi left
    have at_first := Array.getElem?_eq_getElem inside
    exact weak.trans (earlier_first weak inside (.inl rfl) _ v at_first at_best)
      (step u _ at_k at_first)

/-- The entry at `i` changes places with its earlier child. -/
theorem DownReady.swap {lo : Nat} {a : Array α} {i : Nat} (ready : DownReady before lo a i)
    (bound : lo ≤ i) (sinks : best before a i ≠ i) :
    DownReady before lo (a.swapIfInBounds i (best before a i)) (best before a i) := by
  obtain ⟨child_b, hb, hi⟩ := (best_eq before a i).resolve_left sinks
  have parent_b : parent (best before a i) = i := by
    rw [parent]
    omega
  have below_b : 0 < best before a i := by omega
  have first := fun k choice => best_first (k := k) weak hi choice
  generalize best before a i = b at *
  constructor
  · intro k below_k above other u v at_k at_parent
    have up_k := parent_lt below_k
    rw [getElem?_swap hi hb] at at_k at_parent
    rw [if_neg other] at at_parent
    by_cases own : k = i
    · subst own
      rw [if_pos rfl] at at_k
      rw [if_neg (by omega)] at at_parent
      exact ready.grand b below_b parent_b below_k above u v at_k at_parent
    · rw [if_neg own] at at_k
      by_cases child : parent k = i
      · rw [if_pos child] at at_parent
        by_cases chosen : k = b
        · rw [if_pos chosen] at at_k
          exact first i (.inl rfl) u v at_k at_parent
        · rw [if_neg chosen] at at_k
          exact first k (.inr ⟨below_k, child⟩) u v at_k at_parent
      · rw [if_neg child] at at_parent
        have apart : k ≠ b := by
          rintro rfl
          exact child parent_b
        rw [if_neg apart] at at_k
        exact ready.except k below_k above child u v at_k at_parent
  · intro k below_k child _ _ u v at_k at_parent
    have up_k := parent_lt below_k
    rw [parent_b, getElem?_swap hi hb, if_pos rfl] at at_parent
    rw [getElem?_swap hi hb, if_neg (by omega), if_neg (by omega)] at at_k
    refine ready.except k below_k (by omega) (by omega) u v at_k ?_
    rw [child]
    exact at_parent

theorem siftDown_ordered {lo : Nat} (a : Array α) (i : Nat) (ready : DownReady before lo a i)
    (bound : lo ≤ i) : OrderedFrom before lo (siftDown before a i) := by
  induction a, i using siftDown.induct before with
  | case1 a i settled =>
    rw [siftDown, if_pos settled]
    intro k below above
    by_cases child : parent k = i
    · rw [child]
      intro u v at_k at_i
      have hi : i < a.size := (Array.getElem?_eq_some_iff.mp at_i).1
      refine best_first weak hi (.inr ⟨below, child⟩) u v at_k ?_
      rw [settled]
      exact at_i
    · exact ready.except k below above child
  | case2 a i sinks ih =>
    rw [siftDown, if_neg sinks]
    refine ih (ready.swap weak bound sinks) ?_
    have moved := (best_eq before a i).resolve_left sinks
    omega

theorem heapify_ordered (a : Array α) (n : Nat) (ordered : OrderedFrom before n a) :
    Ordered before (heapify before a n) := by
  induction n generalizing a with
  | zero => exact ordered
  | succ n ih =>
    refine ih _ (siftDown_ordered weak a n ⟨?_, ?_⟩ (Nat.le_refl n))
    · intro k below above other
      exact ordered k below (by omega)
    · intro k below child positive above
      have up := parent_lt positive
      omega

theorem push_ordered {a : Array α} (ordered : Ordered before a) (x : α) :
    Ordered before (push before a x) := by
  refine siftUp_ordered weak _ _ ⟨?_, ?_⟩
  · intro k below other u v at_k at_parent
    have up := parent_lt below
    have inside := (Array.getElem?_eq_some_iff.mp at_k).1
    rw [Array.size_push] at inside
    rw [Array.getElem?_push_lt (by omega)] at at_k at_parent
    exact ordered k below (Nat.zero_le _) u v
      (by rw [at_k.symm, Array.getElem?_eq_getElem]) (by rw [at_parent.symm, Array.getElem?_eq_getElem])
  · intro k below child _ u v at_k
    have up := parent_lt below
    have inside := (Array.getElem?_eq_some_iff.mp at_k).1
    rw [Array.size_push] at inside
    omega

theorem popRoot_ordered {a rest : Array α} {root : α} (ordered : Ordered before a)
    (popped : popRoot before a = some (root, rest)) : Ordered before rest := by
  rw [popRoot] at popped
  split at popped
  · next r last at_root at_last =>
    simp only [Option.some.injEq, Prod.mk.injEq] at popped
    obtain ⟨-, rfl⟩ := popped
    split
    · next empty =>
      intro k below _ u v at_k
      rw [Array.isEmpty_iff.mp empty] at at_k
      cases at_k
    · refine siftDown_ordered weak _ 0 ⟨?_, ?_⟩ (Nat.le_refl 0)
      · intro k below _ other u v at_k at_parent
        have up := parent_lt below
        have inside := (Array.getElem?_eq_some_iff.mp at_k).1
        rw [Array.size_setIfInBounds, Array.size_pop] at inside
        rw [Array.getElem?_setIfInBounds_ne (by omega), Array.getElem?_pop, if_pos (by omega)]
          at at_k at_parent
        exact ordered k below (Nat.zero_le _) u v at_k at_parent
      · intro k below child positive
        omega
  · cases popped

/-- The root comes first. -/
theorem root_first {a : Array α} (ordered : Ordered before a) {r : α} (root : a[0]? = some r) :
    ∀ x ∈ a, before x r = false := by
  have at_index : ∀ (k : Nat) (x : α), a[k]? = some x → before x r = false := by
    intro k
    induction k using Nat.strong_induction_on with
    | _ k ih =>
      intro x at_k
      by_cases top : k = 0
      · subst top
        rw [root, Option.some.injEq] at at_k
        rw [at_k]
        exact weak.refl x
      · have up := parent_lt (Nat.pos_of_ne_zero top)
        have hk : k < a.size := (Array.getElem?_eq_some_iff.mp at_k).1
        obtain ⟨y, at_p⟩ : ∃ y, a[parent k]? = some y :=
          ⟨_, Array.getElem?_eq_getElem (Nat.lt_trans up hk)⟩
        exact weak.trans (ih _ up y at_p)
          (ordered k (Nat.pos_of_ne_zero top) (Nat.zero_le _) x y at_k at_p)
  intro x member
  obtain ⟨k, hk, rfl⟩ := Array.mem_iff_getElem.mp member
  exact at_index k _ (Array.getElem?_eq_getElem hk)

end Order

end Heap

end Foundation
