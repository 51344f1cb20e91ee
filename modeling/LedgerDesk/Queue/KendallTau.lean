import LedgerDesk.Foundation.Inversions

/-!
# Kendall's τ

The coefficient of two orders of the same tickets: one less twice the share of the pairs that the
second order swapped. The pairs are counted while the ranks are sorted.
-/
namespace LedgerDesk.Queue

open Foundation

/-! ### The count -/

/-- The merge of two sorted stretches: what it counts, and what it writes. An entry taken from behind
counts every entry that is still in front. -/
def mergeRanks : List Nat → List Nat → Nat × List Nat
  | [], ys => (0, ys)
  | x :: xs, [] => (0, x :: xs)
  | x :: xs, y :: ys =>
    if x ≤ y then
      let rest := mergeRanks xs (y :: ys)
      (rest.1, x :: rest.2)
    else
      let rest := mergeRanks (x :: xs) ys
      (rest.1 + (x :: xs).length, y :: rest.2)
  termination_by xs ys => xs.length + ys.length

/-- `sort(low, high)` on the stretch between the two, which is cut in the middle. -/
def sortRanks (values : List Nat) : Nat × List Nat :=
  if values.length < 2 then (0, values)
  else
    let left := sortRanks (values.take (values.length / 2))
    let right := sortRanks (values.drop (values.length / 2))
    let merged := mergeRanks left.2 right.2
    (left.1 + right.1 + merged.1, merged.2)
  termination_by values.length
  decreasing_by
    · rw [List.length_take]
      omega
    · rw [List.length_drop]
      omega

def countInversions (values : List Nat) : Nat := (sortRanks values).1

theorem mergeRanks_spec {xs ys : List Nat} (left : xs.Pairwise (· ≤ ·)) (right : ys.Pairwise (· ≤ ·)) :
    mergeRanks xs ys = (crossings xs ys, xs.merge ys) := by
  fun_induction mergeRanks xs ys with
  | case1 ys => simp [crossings]
  | case2 x xs => rw [crossings_nil, List.merge_right]
  | case3 x xs y ys le rest ih =>
    have later := ih (List.pairwise_cons.mp left).2 right
    rw [crossings_cons_of_le right le, List.cons_merge_cons_pos _ _ _ (by simpa using le)]
    simp [rest, later]
  | case4 x xs y ys lt rest ih =>
    have below := not_le.mp lt
    have later := ih left (List.pairwise_cons.mp right).2
    rw [crossings_cons_of_lt left below, List.cons_merge_cons_neg _ _ _ (by simpa using below)]
    simp [rest, later]

/-- The stretch is sorted, and every pair of it that was out of order is counted once. -/
theorem sortRanks_spec (values : List Nat) : (sortRanks values).1 = inversions values ∧
    (sortRanks values).2.Perm values ∧ (sortRanks values).2.Pairwise (· ≤ ·) := by
  fun_induction sortRanks values with
  | case1 values short =>
    match values, short with
    | [], _ => exact ⟨rfl, .refl _, .nil⟩
    | [x], _ => exact ⟨rfl, .refl _, List.pairwise_singleton _ x⟩
  | case2 values long left right merged ihl ihr =>
    obtain ⟨count, perm, sorted⟩ := ihl
    obtain ⟨count', perm', sorted'⟩ := ihr
    have halves := List.take_append_drop (values.length / 2) values
    have merge_eq : merged = (crossings left.2 right.2, left.2.merge right.2) :=
      mergeRanks_spec sorted sorted'
    refine ⟨?_, ?_, ?_⟩
    · have across : crossings left.2 right.2 = crossings (values.take (values.length / 2))
          (values.drop (values.length / 2)) := crossings_perm perm perm'
      have whole := inversions_append (values.take (values.length / 2))
        (values.drop (values.length / 2))
      rw [halves] at whole
      rw [merge_eq, count, count', across, whole]
    · have both : (left.2.merge right.2).Perm (left.2 ++ right.2) :=
        List.merge_perm_append _
      rw [merge_eq]
      exact (both.trans (perm.append perm')).trans (by rw [halves])
    · rw [merge_eq]
      have le_trans_ : ∀ a b c : Nat, decide (a ≤ b) = true → decide (b ≤ c) = true →
          decide (a ≤ c) = true := by
        intro a b c first second
        simp only [decide_eq_true_eq] at *
        exact first.trans second
      have total : ∀ a b : Nat, (decide (a ≤ b) || decide (b ≤ a)) = true := by
        intro a b
        simpa using Nat.le_total a b
      have merged_sorted := List.pairwise_merge le_trans_ total left.2 right.2
        (by simpa using sorted) (by simpa using sorted')
      simpa using merged_sorted

theorem countInversions_eq (values : List Nat) : countInversions values = inversions values :=
  (sortRanks_spec values).1

/-! ### The coefficient -/

inductive OrderingError where
  | lengths
  | absent (id : String)
  deriving DecidableEq, Repr

def OrderingError.message : OrderingError → String
  | .lengths => "Kendall τ needs two orderings of the same length"
  | .absent id => "'" ++ id ++ "' is not in the baseline ordering"

/-- `rank.get(id)` once every place of the baseline is set, a later one over an earlier. -/
def rankIn (baseline : List String) (id : String) : Option Nat :=
  baseline.zipIdx.foldl (fun found entry => if entry.1 = id then some entry.2 else found) none

def kendallTau (baseline candidate : List String) : Except OrderingError ℚ :=
  if baseline.length ≠ candidate.length then .error .lengths
  else if baseline.length < 2 then .ok 1
  else do
    let ranks ← candidate.mapM fun id =>
      match rankIn baseline id with
      | some rank => .ok rank
      | none => .error (.absent id)
    return 1 - 4 * countInversions ranks / (baseline.length * (baseline.length - 1))

/-- How many pairs the two orders put opposite ways. -/
def opposed (baseline candidate : List String) : Nat :=
  (pairs baseline).countP fun p => candidate.idxOf p.2 < candidate.idxOf p.1

theorem rankIn_eq {baseline : List String} (distinct : baseline.Nodup) {id : String}
    (member : id ∈ baseline) : rankIn baseline id = some (baseline.idxOf id) := by
  have absent : ∀ (l : List String) (k : Nat) (found : Option Nat), id ∉ l →
      (l.zipIdx k).foldl (fun found entry => if entry.1 = id then some entry.2 else found) found =
        found := by
    intro l
    induction l with
    | nil => exact fun _ _ _ => rfl
    | cons x l ih =>
      intro k found out
      obtain ⟨other, later⟩ := not_or.mp (mt List.mem_cons.mpr out)
      rw [List.zipIdx_cons, List.foldl_cons, if_neg (Ne.symm other), ih _ _ later]
  have found : ∀ (l : List String) (k : Nat) (before : Option Nat), l.Nodup → id ∈ l →
      (l.zipIdx k).foldl (fun found entry => if entry.1 = id then some entry.2 else found) before =
        some (k + l.idxOf id) := by
    intro l
    induction l with
    | nil => exact fun _ _ _ among => absurd among List.not_mem_nil
    | cons x l ih =>
      intro k before unique among
      obtain ⟨new, rest⟩ := List.nodup_cons.mp unique
      rw [List.zipIdx_cons, List.foldl_cons]
      by_cases here : x = id
      · subst here
        rw [if_pos rfl, absent l _ _ new, List.idxOf_cons_self, Nat.add_zero]
      · have later : id ∈ l := (List.mem_cons.mp among).resolve_left (Ne.symm here)
        rw [if_neg here, ih _ _ rest later, List.idxOf_cons_ne _ here]
        congr 1
        omega
  rw [rankIn, found baseline 0 none distinct member, Nat.zero_add]

section Permuted

variable {baseline candidate : List String} (distinct : baseline.Nodup)
  (permuted : candidate.Perm baseline)
include distinct permuted

theorem opposed_comm : opposed baseline candidate = opposed candidate baseline := by
  have distinct' : candidate.Nodup := permuted.nodup_iff.mpr distinct
  -- Each pair that is counted on one side is counted on the other, turned round.
  have turned : (((pairs baseline).filter fun p =>
      candidate.idxOf p.2 < candidate.idxOf p.1).map Prod.swap).Perm
        ((pairs candidate).filter fun p => baseline.idxOf p.2 < baseline.idxOf p.1) := by
    refine (List.perm_ext_iff_of_nodup ?_ ?_).mpr fun p => ?_
    · exact ((nodup_pairs distinct).filter _).map Prod.swap_injective
    · exact (nodup_pairs distinct').filter _
    · obtain ⟨a, b⟩ := p
      have swapped : (a, b) ∈ ((pairs baseline).filter fun p =>
          candidate.idxOf p.2 < candidate.idxOf p.1).map Prod.swap ↔
            (b, a) ∈ (pairs baseline).filter fun p =>
              candidate.idxOf p.2 < candidate.idxOf p.1 := by
        constructor
        · intro member
          obtain ⟨q, among, same⟩ := List.mem_map.mp member
          obtain rfl : q = (b, a) := by rw [← Prod.swap_swap q, same]; rfl
          exact among
        · exact fun member => List.mem_map.mpr ⟨(b, a), member, rfl⟩
      have both : b ∈ baseline ∧ a ∈ baseline ↔ a ∈ candidate ∧ b ∈ candidate := by
        rw [permuted.mem_iff, permuted.mem_iff, and_comm]
      rw [swapped, List.mem_filter, List.mem_filter, mem_pairs_iff distinct, mem_pairs_iff distinct',
        both]
      simp only [decide_eq_true_eq, and_assoc]
      refine and_congr_right fun _ => and_congr_right fun _ => and_comm
  have lengths := turned.length_eq
  rw [List.length_map, ← List.countP_eq_length_filter, ← List.countP_eq_length_filter] at lengths
  exact lengths

theorem kendallTau_eq (some_ : 2 ≤ baseline.length) : kendallTau baseline candidate =
    .ok (1 - 4 * opposed baseline candidate / (baseline.length * (baseline.length - 1))) := by
  have ranks : (candidate.mapM fun id => match rankIn baseline id with
      | some rank => Except.ok rank
      | none => Except.error (OrderingError.absent id)) = .ok (candidate.map baseline.idxOf) := by
    have each : ∀ l : List String, (∀ id ∈ l, id ∈ baseline) → (l.mapM fun id =>
        match rankIn baseline id with
        | some rank => Except.ok rank
        | none => Except.error (OrderingError.absent id)) = .ok (l.map baseline.idxOf) := by
      intro l
      induction l with
      | nil => exact fun _ => rfl
      | cons id l ih =>
        intro all
        obtain ⟨here, later⟩ := List.forall_mem_cons.mp all
        rw [List.mapM_cons, rankIn_eq distinct here, ih later]
        rfl
    exact each candidate fun id member => permuted.mem_iff.mp member
  have count : countInversions (candidate.map baseline.idxOf) = opposed baseline candidate := by
    rw [countInversions_eq, inversions_eq_countP, pairs_map, List.countP_map,
      opposed_comm distinct permuted]
    rfl
  rw [kendallTau, if_neg (not_not.mpr permuted.length_eq.symm), if_neg (not_lt.mpr some_), ranks]
  simp only [bind, Except.bind, pure, Except.pure, count]

/-- No pair is opposed exactly if the two orders are one. -/
theorem opposed_eq_zero_iff : opposed baseline candidate = 0 ↔ baseline = candidate := by
  have distinct' : candidate.Nodup := permuted.nodup_iff.mpr distinct
  constructor
  · intro none
    rw [opposed, List.countP_eq_zero] at none
    have ordered : baseline.Pairwise fun a b => candidate.idxOf a ≤ candidate.idxOf b := by
      refine pairwise_iff_pairs.mpr fun p member => ?_
      simpa using none p member
    have own : candidate.Pairwise fun a b => candidate.idxOf a ≤ candidate.idxOf b := by
      refine pairwise_iff_pairs.mpr fun p member => ?_
      exact le_of_lt ((mem_pairs_iff distinct').mp member).2
    refine List.Perm.eq_of_pairwise ?_ ordered own permuted.symm
    intro a b first second before after
    exact (List.idxOf_inj (permuted.mem_iff.mpr first)).mp (le_antisymm before after)
  · rintro rfl
    refine List.countP_eq_zero.mpr fun p member => ?_
    simpa using le_of_lt ((mem_pairs_iff distinct).mp member).2

omit distinct permuted in
variable (baseline candidate) in
theorem opposed_le : 2 * opposed baseline candidate ≤ baseline.length * (baseline.length - 1) := by
  rw [← two_mul_length_pairs]
  exact Nat.mul_le_mul_left 2 List.countP_le_length

theorem kendallTau_spec (some_ : 2 ≤ baseline.length) : ∃ τ : ℚ, kendallTau baseline candidate = .ok τ ∧
    τ = 1 - 4 * opposed baseline candidate / (baseline.length * (baseline.length - 1)) ∧
      -1 ≤ τ ∧ τ ≤ 1 ∧ kendallTau candidate baseline = .ok τ ∧ (τ = 1 ↔ baseline = candidate) := by
  have distinct' : candidate.Nodup := permuted.nodup_iff.mpr distinct
  have some' : 2 ≤ candidate.length := permuted.length_eq ▸ some_
  have less : ((baseline.length - 1 : Nat) : ℚ) = baseline.length - 1 := by
    rw [Nat.cast_sub (by omega), Nat.cast_one]
  have positive : (0 : ℚ) < baseline.length * (baseline.length - 1) := by
    rw [← less, ← Nat.cast_mul, Nat.cast_pos]
    exact Nat.mul_pos (by omega) (by omega)
  have most : 2 * (opposed baseline candidate : ℚ) ≤ baseline.length * (baseline.length - 1) := by
    rw [← less]
    exact_mod_cast opposed_le baseline candidate
  have share : (0 : ℚ) ≤ 4 * opposed baseline candidate /
      (baseline.length * (baseline.length - 1)) := div_nonneg (by positivity) positive.le
  have share' : 4 * (opposed baseline candidate : ℚ) /
      (baseline.length * (baseline.length - 1)) ≤ 2 := by
    rw [div_le_iff₀ positive]
    linarith
  refine ⟨_, kendallTau_eq distinct permuted some_, rfl, by linarith, by linarith, ?_, ?_⟩
  · rw [kendallTau_eq distinct' permuted.symm some', opposed_comm distinct permuted,
      permuted.length_eq]
  · rw [← opposed_eq_zero_iff distinct permuted, sub_eq_self, div_eq_zero_iff]
    constructor
    · rintro (none | none)
      · exact_mod_cast (mul_eq_zero.mp none).resolve_left (by norm_num)
      · exact absurd none positive.ne'
    · intro none
      exact .inl (by rw [none, Nat.cast_zero, mul_zero])

end Permuted

/-- The coefficient of two orders of the same tickets, and the count it rests on. -/
theorem kendallTau_definition :
    (∀ baseline candidate : List String, baseline.Nodup → candidate.Perm baseline →
      2 ≤ baseline.length → ∃ τ : ℚ, kendallTau baseline candidate = .ok τ ∧
        τ = 1 - 4 * opposed baseline candidate / (baseline.length * (baseline.length - 1)) ∧
          -1 ≤ τ ∧ τ ≤ 1 ∧ kendallTau candidate baseline = .ok τ ∧ (τ = 1 ↔ baseline = candidate)) ∧
      ∀ values, countInversions values = (pairs values).countP fun p => p.2 < p.1 := by
  refine ⟨fun baseline candidate distinct permuted some_ => ?_, fun values => ?_⟩
  · exact kendallTau_spec distinct permuted some_
  · rw [countInversions_eq, inversions_eq_countP]

theorem kendallTau_definition_swapped : ∃ τ : ℚ, kendallTau ["a", "b", "c"] ["b", "a", "c"] = .ok τ ∧
    τ = 1 / 3 := by
  obtain ⟨τ, found, value, -⟩ := kendallTau_definition.1 ["a", "b", "c"] ["b", "a", "c"]
    (by decide) (by decide) (by decide)
  have one : opposed ["a", "b", "c"] ["b", "a", "c"] = 1 := by decide
  refine ⟨τ, found, value.trans ?_⟩
  rw [one]
  norm_num

end LedgerDesk.Queue
