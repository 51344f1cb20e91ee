import Mathlib

/-!
# Inversions

The pairs of a list, the earlier entry first, and how many of them are out of order. Of two stretches
that stand one behind the other the inversions are those of each and those across, and the ones across
do not go by the order within a stretch.
-/
namespace Foundation

variable {α β : Type*}

/-- Every entry with every later one. -/
def pairs : List α → List (α × α)
  | [] => []
  | x :: xs => xs.map (fun y => (x, y)) ++ pairs xs

theorem two_mul_length_pairs (l : List α) : 2 * (pairs l).length = l.length * (l.length - 1) := by
  induction l with
  | nil => rfl
  | cons x xs ih =>
    rw [pairs, List.length_append, List.length_map, List.length_cons, Nat.mul_add, ih]
    cases xs with
    | nil => rfl
    | cons y ys =>
      simp only [List.length_cons, Nat.add_sub_cancel]
      ring

theorem mem_of_mem_pairs {l : List α} {p : α × α} (member : p ∈ pairs l) : p.1 ∈ l ∧ p.2 ∈ l := by
  induction l with
  | nil => cases member
  | cons x xs ih =>
    rcases List.mem_append.mp member with first | later
    · obtain ⟨y, among, rfl⟩ := List.mem_map.mp first
      exact ⟨List.mem_cons_self, List.mem_cons_of_mem x among⟩
    · obtain ⟨left, right⟩ := ih later
      exact ⟨List.mem_cons_of_mem x left, List.mem_cons_of_mem x right⟩

theorem pairs_map (f : α → β) (l : List α) :
    pairs (l.map f) = (pairs l).map fun p => (f p.1, f p.2) := by
  induction l with
  | nil => rfl
  | cons x xs ih => simp [pairs, ih]

theorem pairwise_iff_pairs {r : α → α → Prop} {l : List α} :
    l.Pairwise r ↔ ∀ p ∈ pairs l, r p.1 p.2 := by
  induction l with
  | nil => simp [pairs]
  | cons x xs ih => simp [pairs, ih, or_imp, forall_and]

theorem nodup_pairs {l : List α} (distinct : l.Nodup) : (pairs l).Nodup := by
  induction l with
  | nil => exact List.nodup_nil
  | cons x xs ih =>
    obtain ⟨new, rest⟩ := List.nodup_cons.mp distinct
    refine List.nodup_append'.mpr ⟨rest.map fun y z same => (Prod.ext_iff.mp same).2, ih rest, ?_⟩
    intro p first later
    obtain ⟨y, -, rfl⟩ := List.mem_map.mp first
    exact new (mem_of_mem_pairs later).1

section Places

variable [DecidableEq α]

/-- The pairs of a list of distinct entries are told by the places of the two. -/
theorem mem_pairs_iff_idxOf {l : List α} (distinct : l.Nodup) {a b : α} :
    (a, b) ∈ pairs l ↔ b ∈ l ∧ l.idxOf a < l.idxOf b := by
  induction l with
  | nil => simp [pairs]
  | cons x xs ih =>
    obtain ⟨new, rest⟩ := List.nodup_cons.mp distinct
    rw [pairs, List.mem_append, ih rest]
    by_cases first : x = a
    · -- The first entry comes before every other one.
      subst first
      have absent : xs.idxOf x = xs.length := List.idxOf_eq_length_iff.mpr new
      constructor
      · rintro (here | ⟨member, before⟩)
        · obtain ⟨y, among, same⟩ := List.mem_map.mp here
          obtain rfl := (Prod.ext_iff.mp same).2
          have apart : x ≠ y := fun equal => new (equal ▸ among)
          exact ⟨List.mem_cons_of_mem x among, by simp [List.idxOf_cons_ne _ apart]⟩
        · rw [absent] at before
          exact absurd (List.idxOf_lt_length_of_mem member) (by omega)
      · rintro ⟨member, before⟩
        rcases List.mem_cons.mp member with rfl | among
        · exact absurd before (lt_irrefl _)
        · exact .inl (List.mem_map.mpr ⟨b, among, rfl⟩)
    · have apart : (a, b) ∉ xs.map fun y => (x, y) := by
        intro member
        obtain ⟨y, -, same⟩ := List.mem_map.mp member
        exact first (Prod.ext_iff.mp same).1
      by_cases second : x = b
      · subst second
        simp [apart, new, List.idxOf_cons_ne _ first]
      · simp [apart, List.idxOf_cons_ne _ first, List.idxOf_cons_ne _ second, Ne.symm second]

theorem mem_pairs_iff {l : List α} (distinct : l.Nodup) {a b : α} :
    (a, b) ∈ pairs l ↔ (a ∈ l ∧ b ∈ l) ∧ l.idxOf a < l.idxOf b := by
  constructor
  · intro member
    exact ⟨mem_of_mem_pairs member, ((mem_pairs_iff_idxOf distinct).mp member).2⟩
  · rintro ⟨⟨-, later⟩, before⟩
    exact (mem_pairs_iff_idxOf distinct).mpr ⟨later, before⟩

end Places

section Order

variable [LinearOrder α]

/-- Each entry with the later ones that are below it. -/
def inversions : List α → Nat
  | [] => 0
  | x :: xs => xs.countP (fun y => y < x) + inversions xs

theorem inversions_eq_countP (l : List α) :
    inversions l = (pairs l).countP fun p => p.2 < p.1 := by
  induction l with
  | nil => rfl
  | cons x xs ih =>
    rw [inversions, pairs, List.countP_append, ih, List.countP_map]
    rfl

/-- How many entries of the second are below one of the first. -/
def crossings (xs ys : List α) : Nat := (xs.map fun x => ys.countP fun y => y < x).sum

theorem inversions_append (xs ys : List α) :
    inversions (xs ++ ys) = inversions xs + inversions ys + crossings xs ys := by
  induction xs with
  | nil => simp [inversions, crossings]
  | cons x xs ih =>
    rw [List.cons_append, inversions, inversions, ih, List.countP_append]
    simp only [crossings, List.map_cons, List.sum_cons]
    omega

theorem crossings_perm {xs xs' ys ys' : List α} (left : xs.Perm xs') (right : ys.Perm ys') :
    crossings xs ys = crossings xs' ys' := by
  have counts : (fun x => ys.countP fun y => y < x) = fun x => ys'.countP fun y => y < x :=
    funext fun x => right.countP_eq _
  rw [crossings, crossings, counts]
  exact (left.map _).sum_eq

theorem crossings_nil (xs : List α) : crossings xs [] = 0 := by
  induction xs with
  | nil => rfl
  | cons x xs ih => simp [crossings]

/-- The first of a sorted stretch, when nothing behind is below it, is crossed by nothing. -/
theorem crossings_cons_of_le {x y : α} {xs ys : List α} (sorted : (y :: ys).Pairwise (· ≤ ·))
    (le : x ≤ y) : crossings (x :: xs) (y :: ys) = crossings xs (y :: ys) := by
  have none : (y :: ys).countP (fun z => z < x) = 0 := by
    refine List.countP_eq_zero.mpr fun z member => ?_
    have above : y ≤ z := by
      rcases List.mem_cons.mp member with rfl | later
      · exact le_refl _
      · exact (List.pairwise_cons.mp sorted).1 z later
    simpa using le.trans above
  rw [crossings, List.map_cons, List.sum_cons, none, Nat.zero_add]
  rfl

/-- The first of the stretch behind, when it is below the first of a sorted stretch, crosses all of
it. -/
theorem crossings_cons_of_lt {x y : α} {xs ys : List α} (sorted : (x :: xs).Pairwise (· ≤ ·))
    (lt : y < x) : crossings (x :: xs) (y :: ys) = crossings (x :: xs) ys + (x :: xs).length := by
  have below : ∀ z ∈ x :: xs, y < z := by
    intro z member
    rcases List.mem_cons.mp member with rfl | later
    · exact lt
    · exact lt.trans_le ((List.pairwise_cons.mp sorted).1 z later)
  have each : ∀ l : List α, (∀ z ∈ l, y < z) → crossings l (y :: ys) = crossings l ys + l.length := by
    intro l
    induction l with
    | nil => exact fun _ => rfl
    | cons z l ih =>
      intro all
      obtain ⟨here, later⟩ := List.forall_mem_cons.mp all
      have rest := ih later
      simp only [crossings, List.map_cons, List.sum_cons, List.length_cons] at rest ⊢
      rw [List.countP_cons_of_pos (by simpa using here), rest]
      omega
  exact each _ below

theorem inversions_eq_zero_iff {l : List α} : inversions l = 0 ↔ l.Pairwise (· ≤ ·) := by
  rw [inversions_eq_countP, List.countP_eq_zero, pairwise_iff_pairs]
  simp

end Order

end Foundation
