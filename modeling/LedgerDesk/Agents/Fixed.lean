import LedgerDesk.Agents.Injective

/-!
# Decimals at a fixed scale

What has a whole number of units at a scale is written with as many decimals, and is read back
from its text.
-/
namespace LedgerDesk.Agents

def fixedBody (decimals n : Nat) : String :=
  toString (n / 10 ^ decimals) ++ "." ++
    String.ofList (padStart decimals (toString (n % 10 ^ decimals)).toList)

/-- So many units of the last decimal. -/
def fixedText (decimals : Nat) (units : Int) : String :=
  (if units < 0 then "-" else "") ++ fixedBody decimals units.natAbs

/-- `Number.prototype.toFixed`: of two decimals as near, the one further from zero. -/
def toFixed (decimals : Nat) (value : ℚ) : String :=
  (if value < 0 then "-" else "") ++ fixedBody decimals ⌊|value| * 10 ^ decimals + 1 / 2⌋.toNat

/-- `Number` of the text of a decimal. -/
def numberOf (text : String) : ℚ :=
  let (negative, digits, point) := readNumeral text.toList
  (if negative then -1 else 1) * digits * 10 ^ point

theorem toString_toList (n : Nat) : (toString n).toList = Nat.toDigits 10 n := by
  rw [Nat.toString_eq_ofList_toDigits, String.toList_ofList]

theorem fixedBody_toList (decimals n : Nat) : (fixedBody decimals n).toList =
    Nat.toDigits 10 (n / 10 ^ decimals) ++
      '.' :: padStart decimals (Nat.toDigits 10 (n % 10 ^ decimals)) := by
  simp only [fixedBody, String.toList_append, String.toList_ofList, toString_toList]
  simp

theorem readBody_fixedBody {decimals : Nat} (positive : 0 < decimals) (n : Nat) :
    readBody (fixedBody decimals n).toList = (n, -(decimals : Int)) := by
  have whole := digits_toDigits (n / 10 ^ decimals)
  have padded : Digits (padStart decimals (Nat.toDigits 10 (n % 10 ^ decimals))) :=
    (digits_zeros _).append (digits_toDigits _)
  have short : (Nat.toDigits 10 (n % 10 ^ decimals)).length ≤ decimals := by
    rw [Nat.length_toDigits_le_iff (by decide) positive]
    exact Nat.mod_lt _ (Nat.pow_pos (by decide))
  have length : (padStart decimals (Nat.toDigits 10 (n % 10 ^ decimals))).length = decimals := by
    simp only [padStart, List.length_append, List.length_replicate]
    omega
  have value : Nat.ofDigitChars 10 (padStart decimals (Nat.toDigits 10 (n % 10 ^ decimals))) 0 =
      n % 10 ^ decimals := by
    rw [padStart, Nat.ofDigitChars_append, Nat.ofDigitChars_replicate_zero, Nat.mul_zero,
      Nat.ofDigitChars_ten_toDigits]
  have scaled : Nat.ofDigitChars 10 (Nat.toDigits 10 (n / 10 ^ decimals) ++
      padStart decimals (Nat.toDigits 10 (n % 10 ^ decimals))) 0 = n := by
    rw [Nat.ofDigitChars_append, Nat.ofDigitChars_ten_toDigits,
      Nat.ofDigitChars_eq_ofDigitChars_zero, value, length]
    exact Nat.div_add_mod n (10 ^ decimals)
  rw [fixedBody_toList, readBody_point whole padded, scaled, length]

/-- The text of so many units reads as so many units. -/
theorem readNumeral_fixedText {decimals : Nat} (positive : 0 < decimals) (units : Int) :
    readNumeral (fixedText decimals units).toList =
      (decide (units < 0), units.natAbs, -(decimals : Int)) := by
  have body := readBody_fixedBody positive units.natAbs
  rw [fixedText, String.toList_append]
  by_cases negative : units < 0
  · rw [if_pos negative, decide_eq_true negative]
    change readNumeral ('-' :: (fixedBody decimals units.natAbs).toList) = _
    rw [readNumeral, body]
  · rw [if_neg negative, decide_eq_false negative]
    change readNumeral (fixedBody decimals units.natAbs).toList = _
    obtain ⟨c, tail, opens, digit⟩ := repr_opens (units.natAbs / 10 ^ decimals)
    rw [Nat.toList_repr] at opens
    have text : (fixedBody decimals units.natAbs).toList = c :: (tail ++
        '.' :: padStart decimals (Nat.toDigits 10 (units.natAbs % 10 ^ decimals))) := by
      rw [fixedBody_toList, opens, List.cons_append]
    rw [text, readNumeral_unsigned digit, ← text, body]

theorem numberOf_fixedText {decimals : Nat} (positive : 0 < decimals) (units : Int) :
    numberOf (fixedText decimals units) = units / 10 ^ decimals := by
  rw [numberOf, readNumeral_fixedText positive]
  have magnitude : (if decide (units < 0) = true then (-1 : ℚ) else 1) * (units.natAbs : ℚ) = units := by
    rw [Nat.cast_natAbs]
    by_cases negative : units < 0
    · simp [negative, abs_of_neg negative]
    · simp [negative, abs_of_nonneg (not_lt.mp negative)]
  simp only [magnitude, zpow_neg, zpow_natCast, div_eq_mul_inv]

/-- What is at the scale already is written as its units. -/
theorem toFixed_units (decimals : Nat) (units : Int) :
    toFixed decimals (units / 10 ^ decimals) = fixedText decimals units := by
  have scale : (0 : ℚ) < 10 ^ decimals := by positivity
  have sign : (units : ℚ) / 10 ^ decimals < 0 ↔ units < 0 := by
    rw [div_lt_iff₀ scale, zero_mul, Int.cast_lt_zero]
  have magnitude : |(units : ℚ) / 10 ^ decimals| * 10 ^ decimals = (units.natAbs : ℤ) := by
    rw [abs_div, abs_of_pos scale, div_mul_cancel₀ _ scale.ne', Int.natCast_natAbs, Int.cast_abs]
  have rounded : ⌊|(units : ℚ) / 10 ^ decimals| * 10 ^ decimals + 1 / 2⌋ = (units.natAbs : ℤ) := by
    rw [magnitude, Int.floor_intCast_add]
    norm_num
  rw [toFixed, fixedText, rounded, Int.toNat_natCast]
  simp only [sign]

end LedgerDesk.Agents
