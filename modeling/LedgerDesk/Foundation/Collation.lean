import Mathlib

/-!
# Orders that are read off a text, and lists that are determined by their order

Fields of one width, each in order, are in order together; a number padded with zeros to a
fixed width is such a field.
-/
namespace Foundation

namespace Collation

variable {α : Type*} [LinearOrder α]

/-- After a field of one width, what follows decides only a tie. -/
theorem append_lt_append_iff {xs xs' ys ys' : List α} (width : xs.length = xs'.length) :
    xs ++ ys < xs' ++ ys' ↔ xs < xs' ∨ xs = xs' ∧ ys < ys' := by
  induction xs generalizing xs' with
  | nil =>
    cases xs' with
    | nil => simp
    | cons x xs' => simp at width
  | cons x xs ih =>
    cases xs' with
    | nil => simp at width
    | cons x' xs' =>
      have rest := ih (by simpa using width)
      simp only [List.cons_append, List.cons_lt_cons_iff, rest, List.cons.injEq]
      by_cases same : x = x'
      · simp [same]
      · simp [same]

/-! ### Padded numbers -/

/-- The decimal digits of a number, filled up with zeros. -/
def padded (width n : Nat) : List Char :=
  List.replicate (width - (Nat.toDigits 10 n).length) '0' ++ Nat.toDigits 10 n

variable {width a b : Nat}

theorem padded_digit {c : Char} (member : c ∈ padded width a) : c.isDigit = true := by
  rcases List.mem_append.mp member with zero | digit
  · rw [(List.mem_replicate.mp zero).2]
    decide
  · exact Nat.isDigit_of_mem_toDigits (by decide) (by decide) digit

theorem padded_length (some_width : 0 < width) (fits : a < 10 ^ width) :
    (padded width a).length = width := by
  have short := (Nat.length_toDigits_le_iff (b := 10) (by decide) some_width).mpr fits
  simp only [padded, List.length_append, List.length_replicate]
  omega

theorem ofDigitChars_padded : Nat.ofDigitChars 10 (padded width a) 0 = a := by
  rw [padded, Nat.ofDigitChars_append, Nat.ofDigitChars_replicate_zero, Nat.mul_zero]
  exact Nat.ofDigitChars_toDigits (by decide) (by decide)

theorem digit_code {c : Char} (digit : c.isDigit = true) : 48 ≤ c.toNat ∧ c.toNat < 58 := by
  simp only [Char.isDigit, Bool.and_eq_true, decide_eq_true_eq] at digit
  have low : 48 ≤ c.toNat := digit.1
  have high : c.toNat ≤ 57 := digit.2
  omega

theorem ofDigitChars_lt {cs : List Char} (digits : ∀ c ∈ cs, c.isDigit = true) :
    Nat.ofDigitChars 10 cs 0 < 10 ^ cs.length := by
  induction cs with
  | nil => simp
  | cons c cs ih =>
    have below := ih fun d member => digits d (List.mem_cons_of_mem c member)
    have code := digit_code (digits c List.mem_cons_self)
    rw [Nat.ofDigitChars_cons, Nat.ofDigitChars_eq_ofDigitChars_zero, List.length_cons, Nat.pow_succ]
    have zero : '0'.toNat = 48 := rfl
    have leading : 10 ^ cs.length * (10 * 0 + (c.toNat - '0'.toNat)) ≤ 10 ^ cs.length * 9 := by
      refine Nat.mul_le_mul_left _ ?_
      omega
    omega

/-- Numerals of one length collate in the order of their numbers. -/
theorem digits_lt_iff {cs ds : List Char} (width : cs.length = ds.length)
    (digits : ∀ c ∈ cs, c.isDigit = true) (digits' : ∀ d ∈ ds, d.isDigit = true) :
    cs.map Char.toNat < ds.map Char.toNat ↔
      Nat.ofDigitChars 10 cs 0 < Nat.ofDigitChars 10 ds 0 := by
  induction cs generalizing ds with
  | nil =>
    have empty : ds = [] := List.length_eq_zero_iff.mp width.symm
    simp [empty]
  | cons c cs ih =>
    cases ds with
    | nil => simp at width
    | cons d ds =>
      have same : cs.length = ds.length := by simpa using width
      have rest := ih same (fun x member => digits x (List.mem_cons_of_mem c member))
        (fun x member => digits' x (List.mem_cons_of_mem d member))
      have tail_c := ofDigitChars_lt fun x member => digits x (List.mem_cons_of_mem c member)
      have tail_d := ofDigitChars_lt fun x member => digits' x (List.mem_cons_of_mem d member)
      have code_c := digit_code (digits c List.mem_cons_self)
      have code_d := digit_code (digits' d List.mem_cons_self)
      have zero : '0'.toNat = 48 := rfl
      have split_c : Nat.ofDigitChars 10 cs (10 * 0 + (c.toNat - '0'.toNat)) =
          10 ^ cs.length * (10 * 0 + (c.toNat - '0'.toNat)) + Nat.ofDigitChars 10 cs 0 :=
        Nat.ofDigitChars_eq_ofDigitChars_zero
      have split_d : Nat.ofDigitChars 10 ds (10 * 0 + (d.toNat - '0'.toNat)) =
          10 ^ ds.length * (10 * 0 + (d.toNat - '0'.toNat)) + Nat.ofDigitChars 10 ds 0 :=
        Nat.ofDigitChars_eq_ofDigitChars_zero
      simp only [List.map_cons, List.cons_lt_cons_iff, rest, Nat.ofDigitChars_cons]
      rw [split_c, split_d, same]
      clear split_c split_d
      rw [same] at tail_c
      generalize 10 ^ ds.length = scale at *
      generalize Nat.ofDigitChars 10 cs 0 = low at *
      generalize Nat.ofDigitChars 10 ds 0 = low' at *
      have lead : c.toNat = c.toNat - '0'.toNat + 48 := by omega
      have lead' : d.toNat = d.toNat - '0'.toNat + 48 := by omega
      generalize c.toNat - '0'.toNat = x at *
      generalize d.toNat - '0'.toNat = y at *
      rw [lead, lead', Nat.mul_zero, Nat.zero_add, Nat.zero_add]
      -- the leading digit weighs more than all that follows it
      rcases Nat.lt_trichotomy x y with less | rfl | more
      · have step : scale * (x + 1) ≤ scale * y := Nat.mul_le_mul_left scale less
        rw [Nat.mul_succ] at step
        omega
      · simp
      · have step : scale * (y + 1) ≤ scale * x := Nat.mul_le_mul_left scale more
        rw [Nat.mul_succ] at step
        omega

theorem padded_lt_iff (some_width : 0 < width) (fits : a < 10 ^ width) (fits' : b < 10 ^ width) :
    (padded width a).map Char.toNat < (padded width b).map Char.toNat ↔ a < b := by
  have lengths : (padded width a).length = (padded width b).length := by
    rw [padded_length some_width fits, padded_length some_width fits']
  rw [digits_lt_iff lengths (fun _ => padded_digit) (fun _ => padded_digit), ofDigitChars_padded,
    ofDigitChars_padded]

theorem padded_injective (same : padded width a = padded width b) : a = b :=
  calc
    a = Nat.ofDigitChars 10 (padded width a) 0 := ofDigitChars_padded.symm
    _ = Nat.ofDigitChars 10 (padded width b) 0 := by rw [same]
    _ = b := ofDigitChars_padded

end Collation

/-! ### Sorted lists -/

section Sorted

variable {τ κ : Type*} [LinearOrder κ]

/-- Two sorted lists of the same keys are one list. -/
theorem sorted_unique {xs ys : List κ} (perm : xs.Perm ys) (sorted : xs.Pairwise (· ≤ ·))
    (sorted' : ys.Pairwise (· ≤ ·)) : xs = ys :=
  perm.eq_of_pairwise (fun _ _ _ _ => le_antisymm) sorted sorted'

theorem mergeSort_sorted (key : τ → κ) (le : τ → τ → Bool)
    (reads : ∀ a b, le a b = true ↔ key a ≤ key b) (xs : List τ) :
    ((xs.mergeSort le).map key).Pairwise (· ≤ ·) := by
  rw [List.pairwise_map]
  refine (List.pairwise_mergeSort ?_ ?_ xs).imp fun ordered => (reads _ _).mp ordered
  · intro a b c first second
    exact (reads a c).mpr (le_trans ((reads a b).mp first) ((reads b c).mp second))
  · intro a b
    rw [Bool.or_eq_true, reads, reads]
    exact le_total (key a) (key b)

end Sorted

end Foundation
