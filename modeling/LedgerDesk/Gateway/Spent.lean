import LedgerDesk.Agents.Fixed
import LedgerDesk.Gateway.Machine
import LedgerDesk.Ledger.Preimage
import LedgerDesk.Ledger.PromotionRow

/-!
# The answer of the spend query

The cost of a row goes into its column as text, the database sums the column, and the sum comes back
as text. What is read of it is the sum of the whole amounts the rows were written with.
-/
namespace LedgerDesk.Gateway

open LedgerDesk.Agents LedgerDesk.Ledger

/-- What the column of a row holds. -/
def costAud (row : ChainedRow) : ℚ := numberOf (formatAud row.cost_micro)

/-- `coalesce(sum(cost_aud), 0)::text`: a sum has the scale of its column. -/
def spentText (costs : List ℚ) : String :=
  if costs = [] then "0" else toFixed 6 costs.sum

/-- `String.prototype.trim`. -/
def trimBlanks (text : List Char) : List Char :=
  ((text.dropWhile isJsSpace).reverse.dropWhile isJsSpace).reverse

/-- Of the pieces between the points, the first two are read. -/
def microFromNumericText (text : String) : Option Int :=
  let trimmed := trimBlanks text.toList
  let negative := trimmed.head? = some '-'
  let digits := if negative then trimmed.drop 1 else trimmed
  let whole := digits.takeWhile (· ≠ '.')
  let fraction := ((digits.dropWhile (· ≠ '.')).drop 1).takeWhile (· ≠ '.')
  if whole.all Char.isDigit && fraction.all Char.isDigit then
    let cut := fraction.take 6
    let scaled : Int := Nat.ofDigitChars 10 whole 0 * microPerAud +
      Nat.ofDigitChars 10 (cut ++ List.replicate (6 - cut.length) '0') 0
    some (if negative then -scaled else scaled)
  else none

/-! ### Reading an amount -/

theorem isJsSpace_of_isDigit {c : Char} (digit : c.isDigit = true) : isJsSpace c = false := by
  have range : 48 ≤ c.toNat ∧ c.toNat ≤ 57 := by
    simpa [Char.isDigit, UInt32.le_iff_toNat_le] using digit
  simp only [isJsSpace]
  simp
  omega

theorem dropWhile_plain {cs : List Char} (plain : ∀ c ∈ cs, isJsSpace c = false) :
    cs.dropWhile isJsSpace = cs := by
  cases cs with
  | nil => rfl
  | cons c rest => exact List.dropWhile_cons_of_neg (by simp [plain c List.mem_cons_self])

theorem trimBlanks_plain {cs : List Char} (plain : ∀ c ∈ cs, isJsSpace c = false) :
    trimBlanks cs = cs := by
  rw [trimBlanks, dropWhile_plain plain, dropWhile_plain, List.reverse_reverse]
  intro c member
  exact plain c (List.mem_reverse.mp member)

/-- The decimals of a whole number of millionths. -/
def microDigits (n : Nat) : List Char := padStart 6 (Nat.toDigits 10 (n % 10 ^ 6))

theorem digits_microDigits (n : Nat) : Digits (microDigits n) :=
  (digits_zeros _).append (digits_toDigits _)

theorem length_microDigits (n : Nat) : (microDigits n).length = 6 := by
  have short : (Nat.toDigits 10 (n % 10 ^ 6)).length ≤ 6 := by
    rw [Nat.length_toDigits_le_iff (by decide) (by decide)]
    exact Nat.mod_lt _ (by decide)
  simp only [microDigits, padStart, List.length_append, List.length_replicate]
  omega

theorem value_microDigits (n : Nat) : Nat.ofDigitChars 10 (microDigits n) 0 = n % 10 ^ 6 := by
  rw [microDigits, padStart, Nat.ofDigitChars_append, Nat.ofDigitChars_replicate_zero, Nat.mul_zero,
    Nat.ofDigitChars_ten_toDigits]

theorem head?_ne_minus {cs ds : List Char} (digits : Digits cs) (nonempty : cs ≠ []) :
    (cs ++ ds).head? ≠ some '-' := by
  cases cs with
  | nil => exact absurd rfl nonempty
  | cons c rest =>
    intro minus
    obtain rfl := Option.some.inj minus
    have digit := digits '-' List.mem_cons_self
    cases digit

theorem microFromNumericText_fixedText (micro : Int) :
    microFromNumericText (fixedText 6 micro) = some micro := by
  generalize size : micro.natAbs = n
  have whole := digits_toDigits (n / 10 ^ 6)
  have fraction := digits_microDigits n
  have body : (fixedBody 6 n).toList = Nat.toDigits 10 (n / 10 ^ 6) ++ '.' :: microDigits n :=
    fixedBody_toList 6 n
  have plain : ∀ c ∈ (fixedBody 6 n).toList, isJsSpace c = false := by
    intro c member
    rw [body, List.mem_append, List.mem_cons] at member
    rcases member with first | rfl | second
    · exact isJsSpace_of_isDigit (whole c first)
    · decide
    · exact isJsSpace_of_isDigit (fraction c second)
  have no_point : '.' ∉ Nat.toDigits 10 (n / 10 ^ 6) := whole.not_mem (by decide)
  have no_point' : '.' ∉ microDigits n := fraction.not_mem (by decide)
  -- There are six decimals, so that none is cut and none is added.
  have cut : (microDigits n).take 6 = microDigits n := by
    rw [List.take_of_length_le (length_microDigits n).le]
  have unsigned : (fixedBody 6 n).toList.head? ≠ some '-' := by
    rw [body]
    exact head?_ne_minus whole Nat.toDigits_ne_nil
  have front : (fixedBody 6 n).toList.takeWhile (· ≠ '.') = Nat.toDigits 10 (n / 10 ^ 6) := by
    rw [body]
    exact takeWhile_cut no_point _
  have back : (((fixedBody 6 n).toList.dropWhile (· ≠ '.')).drop 1).takeWhile (· ≠ '.') =
      microDigits n := by
    rw [body, dropWhile_cut no_point]
    exact takeWhile_uncut no_point'
  have digits : ((Nat.toDigits 10 (n / 10 ^ 6)).all Char.isDigit &&
      (microDigits n).all Char.isDigit) = true := by
    rw [Bool.and_eq_true, List.all_eq_true, List.all_eq_true]
    exact ⟨whole, fraction⟩
  have scaled : ((n / 10 ^ 6 : Nat) : Int) * microPerAud + ((n % 10 ^ 6 : Nat) : Int) = n := by
    have parts : n / 10 ^ 6 * microPerAud + n % 10 ^ 6 = n := Nat.div_add_mod' n (10 ^ 6)
    exact_mod_cast parts
  by_cases negative : micro < 0
  -- The sign is taken off before the point is looked for.
  · have text : (fixedText 6 micro).toList = '-' :: (fixedBody 6 n).toList := by
      rw [fixedText, if_pos negative, size, String.toList_append]
      rfl
    have signed : ∀ c ∈ '-' :: (fixedBody 6 n).toList, isJsSpace c = false := by
      intro c member
      rcases List.mem_cons.mp member with rfl | rest
      · decide
      · exact plain c rest
    have drop : List.drop 1 ('-' :: (fixedBody 6 n).toList) = (fixedBody 6 n).toList := rfl
    simp only [microFromNumericText, text, trimBlanks_plain signed, List.head?_cons, if_true, drop,
      front, back, digits, cut, length_microDigits, Nat.sub_self, List.replicate_zero,
      List.append_nil, Nat.ofDigitChars_ten_toDigits, value_microDigits, scaled]
    rw [Option.some.injEq]
    omega
  · have text : (fixedText 6 micro).toList = (fixedBody 6 n).toList := by
      rw [fixedText, if_neg negative, size, String.toList_append]
      rfl
    simp only [microFromNumericText, text, trimBlanks_plain plain, unsigned, if_false, if_true,
      front, back, digits, cut, length_microDigits, Nat.sub_self, List.replicate_zero,
      List.append_nil, Nat.ofDigitChars_ten_toDigits, value_microDigits, scaled]
    rw [Option.some.injEq]
    omega

/-! ### The sum that was spent -/

theorem costAud_eq (row : ChainedRow) : costAud row = row.cost_micro / 10 ^ 6 := by
  rw [costAud, formatAud_eq]
  exact numberOf_fixedText (by decide) row.cost_micro

theorem sum_costAud (rows : List ChainedRow) :
    (rows.map costAud).sum = ((rows.map fun row => row.cost_micro).sum : Int) / 10 ^ 6 := by
  induction rows with
  | nil => simp
  | cons row rows ih =>
    rw [List.map_cons, List.sum_cons, ih, costAud_eq, List.map_cons, List.sum_cons]
    push_cast
    ring

end LedgerDesk.Gateway
