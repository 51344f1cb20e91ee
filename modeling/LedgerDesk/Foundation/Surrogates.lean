import LedgerDesk.Foundation.JsonUnits

/-!
# Surrogates

Well-formed UTF-16, and a test for it that cuts the whole pairs out first and looks for halves in what
is left. Cutting a pair out joins what stood on its two sides, so the test also passes two lone halves
with nothing but whole pairs between them. It is wrong on such texts and on no others.
-/
namespace Foundation.Surrogates

open JsonUnits

/-- Neither half of a pair. -/
def isPlain (c : Nat) : Bool := !isHigh c && !isLow c

/-- Every high half is followed by a low one, and every low half follows a high one. -/
def WellFormed (s : List Nat) : Prop :=
  (∀ i c, s[i]? = some c → isHigh c = true → ∃ d, s[i + 1]? = some d ∧ isLow d = true) ∧
  (∀ i c, s[i]? = some c → isLow c = true → ∃ j d, i = j + 1 ∧ s[j]? = some d ∧ isHigh d = true)

/-- `replace(/[\uD800-\uDBFF][\uDC00-\uDFFF]/g, '')`. -/
def removePairs : List Nat → List Nat
  | [] => []
  | [c] => [c]
  | high :: low :: rest =>
    if isHigh high && isLow low then removePairs rest else high :: removePairs (low :: rest)

/-- `/[\uD800-\uDFFF]/u`, which reads a whole pair as one character. -/
def hasLone : List Nat → Bool
  | [] => false
  | [c] => !isPlain c
  | high :: low :: rest =>
    if isHigh high && isLow low then hasLone rest else !isPlain high || hasLone (low :: rest)

theorem not_low_of_high {c : Nat} (high : isHigh c = true) : isLow c = false := by
  simp only [isHigh, isLow, Bool.and_eq_true, decide_eq_true_eq] at high ⊢
  simp only [Bool.and_eq_false_iff, decide_eq_false_iff_not]
  omega

theorem not_high_of_low {c : Nat} (low : isLow c = true) : isHigh c = false := by
  cases high : isHigh c with
  | false => rfl
  | true =>
    rw [not_low_of_high high] at low
    cases low

theorem isPlain_iff {c : Nat} : isPlain c = true ↔ isHigh c = false ∧ isLow c = false := by
  simp [isPlain]

/-! ### Well-formed texts, read from the front -/

theorem wellFormed_nil : WellFormed [] := by
  constructor
  · intro i c there
    simp at there
  · intro i c there
    simp at there

theorem wellFormed_plain {c : Nat} {s : List Nat} (plain : isPlain c = true) :
    WellFormed (c :: s) ↔ WellFormed s := by
  obtain ⟨notHigh, notLow⟩ := isPlain_iff.mp plain
  constructor
  · rintro ⟨highs, lows⟩
    constructor
    · intro i d there high
      exact highs (i + 1) d there high
    · intro i d there low
      obtain ⟨j, e, same, before, high⟩ := lows (i + 1) d there low
      -- What stands before `d` is in `s`, as `c` is no high half.
      cases j with
      | zero =>
        obtain rfl : c = e := by simpa using before
        rw [notHigh] at high
        cases high
      | succ j => exact ⟨j, e, by omega, before, high⟩
  · rintro ⟨highs, lows⟩
    constructor
    · intro i d there high
      cases i with
      | zero =>
        obtain rfl : c = d := by simpa using there
        rw [notHigh] at high
        cases high
      | succ i => exact highs i d there high
    · intro i d there low
      cases i with
      | zero =>
        obtain rfl : c = d := by simpa using there
        rw [notLow] at low
        cases low
      | succ i =>
        obtain ⟨j, e, same, before, high⟩ := lows i d there low
        exact ⟨j + 1, e, by omega, before, high⟩

theorem wellFormed_pair {h l : Nat} {s : List Nat} (high : isHigh h = true) (low : isLow l = true) :
    WellFormed (h :: l :: s) ↔ WellFormed s := by
  have notLow := not_low_of_high high
  have notHigh := not_high_of_low low
  constructor
  · rintro ⟨highs, lows⟩
    constructor
    · intro i d there isHigh
      exact highs (i + 2) d there isHigh
    · intro i d there isLow
      obtain ⟨j, e, same, before, isHigh⟩ := lows (i + 2) d there isLow
      cases i with
      | zero =>
        obtain rfl : j = 1 := by omega
        obtain rfl : l = e := by simpa using before
        rw [notHigh] at isHigh
        cases isHigh
      | succ i =>
        obtain rfl : j = i + 2 := by omega
        exact ⟨i, e, rfl, before, isHigh⟩
  · rintro ⟨highs, lows⟩
    constructor
    · intro i d there isHigh
      match i with
      | 0 => exact ⟨l, rfl, low⟩
      | 1 =>
        obtain rfl : l = d := by simpa using there
        rw [notHigh] at isHigh
        cases isHigh
      | i + 2 => exact highs i d there isHigh
    · intro i d there isLow
      match i with
      | 0 =>
        obtain rfl : h = d := by simpa using there
        rw [notLow] at isLow
        cases isLow
      | 1 => exact ⟨0, h, rfl, rfl, high⟩
      | i + 2 =>
        obtain ⟨j, e, same, before, isHigh⟩ := lows i d there isLow
        exact ⟨j + 2, e, by omega, before, isHigh⟩

theorem not_wellFormed_low {c : Nat} {s : List Nat} (low : isLow c = true) :
    ¬WellFormed (c :: s) := by
  rintro ⟨-, lows⟩
  obtain ⟨j, d, same, -⟩ := lows 0 c rfl low
  omega

/-- A high half needs a low one right behind it. -/
theorem WellFormed.next {c : Nat} {s : List Nat} (formed : WellFormed (c :: s))
    (high : isHigh c = true) : ∃ d rest, s = d :: rest ∧ isLow d = true := by
  obtain ⟨d, there, low⟩ := formed.1 0 c rfl high
  cases s with
  | nil => simp at there
  | cons e rest =>
    obtain rfl : e = d := by simpa using there
    exact ⟨e, rest, rfl, low⟩

theorem hasLone_iff (s : List Nat) : hasLone s = false ↔ WellFormed s := by
  induction s using hasLone.induct with
  | case1 => simp [hasLone, wellFormed_nil]
  | case2 c =>
    rw [hasLone]
    constructor
    · intro plain
      exact (wellFormed_plain (by simpa using plain)).mpr wellFormed_nil
    · intro formed
      by_contra half
      cases low : isLow c with
      | true => exact not_wellFormed_low low formed
      | false =>
        obtain ⟨d, rest, none, -⟩ := formed.next (by simpa [isPlain, low] using half)
        cases none
  | case3 h l rest pair ih =>
    obtain ⟨high, low⟩ := (Bool.and_eq_true ..).mp pair
    rw [hasLone, if_pos pair, ih, wellFormed_pair high low]
  | case4 h l rest apart ih =>
    rw [hasLone, if_neg apart]
    cases plain : isPlain h with
    | true => simp [ih, wellFormed_plain plain]
    | false =>
      simp only [Bool.not_false, Bool.true_or, Bool.true_eq_false, false_iff]
      intro formed
      cases low : isLow h with
      | true => exact not_wellFormed_low low formed
      | false =>
        have high : isHigh h = true := by simpa [isPlain, low] using plain
        obtain ⟨d, rest', same, isLow⟩ := formed.next high
        obtain ⟨rfl, rfl⟩ := List.cons.inj same
        exact apart (by simp [high, isLow])

theorem WellFormed.append {s t : List Nat} (front : WellFormed s) (back : WellFormed t) :
    WellFormed (s ++ t) := by
  rw [← hasLone_iff] at front ⊢
  induction s using hasLone.induct with
  | case1 => exact (hasLone_iff _).mpr back
  | case2 c =>
    have plain : isPlain c = true := by simpa [hasLone] using front
    rw [hasLone_iff, List.singleton_append, wellFormed_plain plain]
    exact back
  | case3 h l rest pair ih =>
    rw [hasLone, if_pos pair] at front
    rw [List.cons_append, List.cons_append, hasLone, if_pos pair]
    exact ih front
  | case4 h l rest apart ih =>
    rw [hasLone, if_neg apart, Bool.or_eq_false_iff] at front
    have plain : isPlain h = true := by simpa using front.1
    rw [hasLone_iff, List.cons_append, wellFormed_plain plain, ← hasLone_iff]
    exact ih front.2

theorem wellFormed_of_plain {s : List Nat} (plain : ∀ c ∈ s, isPlain c = true) : WellFormed s := by
  induction s with
  | nil => exact wellFormed_nil
  | cons c s ih =>
    rw [wellFormed_plain (plain c (List.mem_cons_self ..))]
    exact ih fun d member => plain d (List.mem_cons_of_mem _ member)

/-! ### What the cutting joins -/

/-- Whole pairs, one behind the other. -/
def Pairs (pairs : List (Nat × Nat)) : Prop := ∀ p ∈ pairs, isHigh p.1 = true ∧ isLow p.2 = true

def flat (pairs : List (Nat × Nat)) : List Nat := pairs.flatMap fun p => [p.1, p.2]

/-- Plain units and whole pairs, and lone halves that only whole pairs keep apart; whether there are
such halves is the flag. -/
inductive Joins : Bool → List Nat → Prop
  | nil : Joins false []
  | plain {b : Bool} {c : Nat} {s : List Nat} (plain : isPlain c = true) (rest : Joins b s) :
      Joins b (c :: s)
  | pair {b : Bool} {h l : Nat} {s : List Nat} (high : isHigh h = true) (low : isLow l = true)
      (rest : Joins b s) : Joins b (h :: l :: s)
  | parted {b : Bool} {h l : Nat} {s : List Nat} {pairs : List (Nat × Nat)} (high : isHigh h = true)
      (whole : Pairs pairs) (some_pair : pairs ≠ []) (low : isLow l = true) (rest : Joins b s) :
      Joins true (h :: (flat pairs ++ l :: s))

/-- Well formed but for lone halves that only whole pairs keep apart. -/
def Parted (s : List Nat) : Prop := Joins true s

theorem flat_cons (p : Nat × Nat) (pairs : List (Nat × Nat)) :
    flat (p :: pairs) = p.1 :: p.2 :: flat pairs := rfl

theorem Pairs.tail {p : Nat × Nat} {pairs : List (Nat × Nat)} (whole : Pairs (p :: pairs)) :
    Pairs pairs := fun q member => whole q (List.mem_cons_of_mem _ member)

theorem removePairs_pair {h l : Nat} {s : List Nat} (high : isHigh h = true) (low : isLow l = true) :
    removePairs (h :: l :: s) = removePairs s := by
  rw [removePairs, if_pos (by simp [high, low])]

theorem removePairs_cons {c : Nat} {s : List Nat} (notHigh : isHigh c = false) :
    removePairs (c :: s) = c :: removePairs s := by
  cases s with
  | nil => rfl
  | cons d s => rw [removePairs, if_neg (by simp [notHigh])]

theorem removePairs_flat {pairs : List (Nat × Nat)} {s : List Nat} (whole : Pairs pairs) :
    removePairs (flat pairs ++ s) = removePairs s := by
  induction pairs with
  | nil => rfl
  | cons p pairs ih =>
    obtain ⟨high, low⟩ := whole p (List.mem_cons_self ..)
    rw [flat_cons, List.cons_append, List.cons_append, removePairs_pair high low]
    exact ih whole.tail

theorem Joins.passes {b : Bool} {s : List Nat} (joins : Joins b s) : WellFormed (removePairs s) := by
  induction joins with
  | nil => exact wellFormed_nil
  | plain plain _ ih =>
    rw [removePairs_cons (isPlain_iff.mp plain).1, wellFormed_plain plain]
    exact ih
  | pair high low _ ih =>
    rw [removePairs_pair high low]
    exact ih
  | @parted b h l s pairs high whole some_pair low _ ih =>
    obtain ⟨p, pairs, rfl⟩ := List.exists_cons_of_ne_nil some_pair
    have notLow := not_low_of_high (whole p (List.mem_cons_self ..)).1
    -- The lone half stays, the pairs behind it go, and the other half moves up to it.
    have cut : removePairs (h :: (flat (p :: pairs) ++ l :: s)) = h :: l :: removePairs s := by
      rw [← removePairs_cons (not_high_of_low low), ← removePairs_flat (s := l :: s) whole, flat_cons,
        List.cons_append, List.cons_append, removePairs, if_neg (by simp [notLow])]
    rw [cut, wellFormed_pair high low]
    exact ih

/-- Where the first unit left is a low half, only whole pairs stood before it. -/
theorem pairs_before_low {s t : List Nat} {l : Nat} (left : removePairs s = l :: t)
    (low : isLow l = true) :
    ∃ pairs t', s = flat pairs ++ l :: t' ∧ Pairs pairs ∧ removePairs t' = t := by
  induction s using removePairs.induct with
  | case1 => cases left
  | case2 c =>
    obtain ⟨rfl, rfl⟩ := List.cons.inj left
    exact ⟨[], [], rfl, by simp [Pairs], rfl⟩
  | case3 h l' rest pair ih =>
    obtain ⟨high, isLow⟩ := (Bool.and_eq_true ..).mp pair
    rw [removePairs_pair high isLow] at left
    obtain ⟨pairs, t', rfl, whole, cut⟩ := ih left
    refine ⟨(h, l') :: pairs, t', rfl, ?_, cut⟩
    intro p member
    rcases List.mem_cons.mp member with rfl | member
    · exact ⟨high, isLow⟩
    · exact whole p member
  | case4 h l' rest apart _ =>
    rw [removePairs, if_neg apart] at left
    obtain ⟨rfl, rfl⟩ := List.cons.inj left
    exact ⟨[], l' :: rest, rfl, by simp [Pairs], rfl⟩

theorem joins_of_passes {s : List Nat} (passes : WellFormed (removePairs s)) : ∃ b, Joins b s := by
  induction size : s.length using Nat.strong_induction_on generalizing s with
  | _ n ih =>
    match s, passes with
    | [], _ => exact ⟨false, .nil⟩
    | c :: s, passes =>
      cases plain : isPlain c with
      | true =>
        rw [removePairs_cons (isPlain_iff.mp plain).1, wellFormed_plain plain] at passes
        obtain ⟨b, joins⟩ := ih s.length (by simp [← size]) passes rfl
        exact ⟨b, .plain plain joins⟩
      | false =>
        cases low : isLow c with
        | true =>
          rw [removePairs_cons (not_high_of_low low)] at passes
          exact absurd passes (not_wellFormed_low low)
        | false =>
          have high : isHigh c = true := by simpa [isPlain, low] using plain
          match s, passes with
          | [], passes =>
            obtain ⟨d, rest, none, -⟩ := WellFormed.next passes high
            cases none
          | d :: s, passes =>
            cases behind : isLow d with
            | true =>
              rw [removePairs_pair high behind] at passes
              obtain ⟨b, joins⟩ := ih s.length (by simp [← size]) passes rfl
              exact ⟨b, .pair high behind joins⟩
            | false =>
              -- The half is lone, so a low half has moved up to it when the pairs behind it went.
              rw [removePairs, if_neg (by simp [behind])] at passes
              obtain ⟨l, rest, left, isLow⟩ := passes.next high
              obtain ⟨pairs, t, same, whole, rfl⟩ := pairs_before_low left isLow
              rw [left, wellFormed_pair high isLow] at passes
              have some_pair : pairs ≠ [] := by
                rintro rfl
                obtain ⟨rfl, -⟩ := List.cons.inj same
                rw [behind] at isLow
                cases isLow
              have shorter : t.length < n := by
                have lengths := congrArg List.length same
                simp only [List.length_cons, List.length_append] at lengths size
                omega
              obtain ⟨b, joins⟩ := ih t.length shorter passes rfl
              rw [same]
              exact ⟨true, .parted high whole some_pair isLow joins⟩

theorem Joins.wellFormed_iff {b : Bool} {s : List Nat} (joins : Joins b s) :
    WellFormed s ↔ b = false := by
  induction joins with
  | nil => simp [wellFormed_nil]
  | plain plain _ ih => rw [wellFormed_plain plain, ih]
  | pair high low _ ih => rw [wellFormed_pair high low, ih]
  | @parted b h l s pairs high whole some_pair low _ ih =>
    simp only [Bool.true_eq_false, iff_false]
    intro formed
    obtain ⟨p, pairs, rfl⟩ := List.exists_cons_of_ne_nil some_pair
    obtain ⟨d, rest, same, isLow⟩ := formed.next high
    obtain ⟨rfl, -⟩ := List.cons.inj same
    -- Behind the lone half stands the high half of a pair.
    rw [not_low_of_high (whole p (List.mem_cons_self ..)).1] at isLow
    cases isLow

theorem joins_of_wellFormed {s : List Nat} (formed : WellFormed s) : Joins false s := by
  induction s using hasLone.induct with
  | case1 => exact .nil
  | case2 c =>
    have plain : isPlain c = true := by simpa [hasLone] using (hasLone_iff _).mpr formed
    exact .plain plain .nil
  | case3 h l rest pair ih =>
    obtain ⟨high, low⟩ := (Bool.and_eq_true ..).mp pair
    exact .pair high low (ih ((wellFormed_pair high low).mp formed))
  | case4 h l rest apart ih =>
    have whole := (hasLone_iff _).mpr formed
    rw [hasLone, if_neg apart, Bool.or_eq_false_iff] at whole
    have plain : isPlain h = true := by simpa using whole.1
    exact .plain plain (ih ((wellFormed_plain plain).mp formed))

/-- The test passes the well-formed texts, and those whose lone halves the cutting joins. -/
theorem passes_iff (s : List Nat) :
    hasLone (removePairs s) = false ↔ WellFormed s ∨ Parted s := by
  rw [hasLone_iff]
  constructor
  · intro passes
    obtain ⟨b, joins⟩ := joins_of_passes passes
    cases b with
    | false => exact .inl (joins.wellFormed_iff.mpr rfl)
    | true => exact .inr joins
  · rintro (formed | parted)
    · exact (joins_of_wellFormed formed).passes
    · exact parted.passes

theorem not_wellFormed_of_parted {s : List Nat} (parted : Parted s) : ¬WellFormed s := by
  intro formed
  have same := (Joins.wellFormed_iff parted).mp formed
  cases same

/-! ### UTF-8 -/

/-- The code units of a character. -/
def utf16 (c : Char) : List Nat :=
  if c.toNat < 0x10000 then [c.toNat]
  else [0xD800 + (c.toNat - 0x10000) / 0x400, 0xDC00 + (c.toNat - 0x10000) % 0x400]

def units16 (text : String) : List Nat := text.toList.flatMap utf16

/-- The character of a unit on its own: a lone half has none, and U+FFFD stands for it. -/
def scalar (c : Nat) : Char := if isPlain c then Char.ofNat c else Char.ofNat 0xFFFD

def scalars : List Nat → List Char
  | [] => []
  | [c] => [scalar c]
  | high :: low :: rest =>
    if isHigh high && isLow low then
      Char.ofNat (0x10000 + (high - 0xD800) * 0x400 + (low - 0xDC00)) :: scalars rest
    else scalar high :: scalars (low :: rest)

/-- `TextEncoder.encode`. -/
def encodeUtf8 (s : List Nat) : ByteArray := (String.ofList (scalars s)).toUTF8

/-- A fatal `TextDecoder` that keeps the byte order mark. -/
def decodeUtf8 (bytes : ByteArray) : Option (List Nat) := (String.fromUTF8? bytes).map units16

theorem toNat_ofNat {n : Nat} (valid : n.isValidChar) : (Char.ofNat n).toNat = n := by
  rw [Char.ofNat, dif_pos valid]
  rfl

theorem utf16_plain {c : Nat} (plain : isPlain c = true) (unit : c < 0x10000) :
    utf16 (Char.ofNat c) = [c] := by
  have valid : c.isValidChar := by
    simp only [isPlain, isHigh, isLow, Bool.and_eq_true, Bool.not_eq_true', Bool.and_eq_false_iff,
      decide_eq_false_iff_not] at plain
    unfold Nat.isValidChar
    omega
  rw [utf16, toNat_ofNat valid, if_pos unit]

theorem utf16_pair {h l : Nat} (high : isHigh h = true) (low : isLow l = true) :
    utf16 (Char.ofNat (0x10000 + (h - 0xD800) * 0x400 + (l - 0xDC00))) = [h, l] := by
  simp only [isHigh, isLow, Bool.and_eq_true, decide_eq_true_eq] at high low
  have valid : (0x10000 + (h - 0xD800) * 0x400 + (l - 0xDC00)).isValidChar := by
    unfold Nat.isValidChar
    omega
  rw [utf16, toNat_ofNat valid, if_neg (by omega)]
  simp only [List.cons.injEq, and_true]
  constructor <;> omega

theorem wellFormed_utf16 (c : Char) : WellFormed (utf16 c) := by
  have valid : c.toNat.isValidChar := c.valid
  unfold Nat.isValidChar at valid
  rw [utf16]
  split
  · next unit =>
    refine wellFormed_of_plain fun d member => ?_
    obtain rfl := List.mem_singleton.mp member
    simp only [isPlain, isHigh, isLow, Bool.and_eq_true, Bool.not_eq_true', Bool.and_eq_false_iff,
      decide_eq_false_iff_not]
    omega
  · refine (wellFormed_pair ?_ ?_).mpr wellFormed_nil
    · simp only [isHigh, Bool.and_eq_true, decide_eq_true_eq]
      omega
    · simp only [isLow, Bool.and_eq_true, decide_eq_true_eq]
      omega

theorem wellFormed_units16 (text : String) : WellFormed (units16 text) := by
  unfold units16
  induction text.toList with
  | nil => exact wellFormed_nil
  | cons c cs ih => exact (wellFormed_utf16 c).append ih

/-- Code units, as the language has them. -/
def Units (s : List Nat) : Prop := ∀ c ∈ s, c < 0x10000

instance (s : List Nat) : Decidable (Units s) := inferInstanceAs (Decidable (∀ c ∈ s, c < 0x10000))

theorem Units.tail {c : Nat} {s : List Nat} (units : Units (c :: s)) : Units s :=
  fun d member => units d (List.mem_cons_of_mem _ member)

theorem flatMap_scalars {s : List Nat} (units : Units s) (formed : WellFormed s) :
    (scalars s).flatMap utf16 = s := by
  induction s using scalars.induct with
  | case1 => rfl
  | case2 c =>
    have plain : isPlain c = true := by simpa [hasLone] using (hasLone_iff _).mpr formed
    simp [scalars, scalar, plain, utf16_plain plain (units c (List.mem_cons_self ..))]
  | case3 h l rest pair ih =>
    obtain ⟨high, low⟩ := (Bool.and_eq_true ..).mp pair
    have later := ih units.tail.tail ((wellFormed_pair high low).mp formed)
    rw [scalars, if_pos pair, List.flatMap_cons, later, utf16_pair high low]
    rfl
  | case4 h l rest apart ih =>
    have whole := (hasLone_iff _).mpr formed
    rw [hasLone, if_neg apart, Bool.or_eq_false_iff] at whole
    have plain : isPlain h = true := by simpa using whole.1
    have later := ih units.tail ((wellFormed_plain plain).mp formed)
    rw [scalars, if_neg apart, List.flatMap_cons, later, scalar, if_pos plain,
      utf16_plain plain (units h (List.mem_cons_self ..))]
    rfl

theorem fromUTF8?_toUTF8 (text : String) : String.fromUTF8? text.toUTF8 = some text := by
  unfold String.fromUTF8?
  split
  · rfl
  · next invalid => exact absurd text.isValidUTF8 invalid

theorem decodeUtf8_encodeUtf8 (s : List Nat) :
    decodeUtf8 (encodeUtf8 s) = some ((scalars s).flatMap utf16) := by
  rw [decodeUtf8, encodeUtf8, fromUTF8?_toUTF8, Option.map_some, units16, String.toList_ofList]

/-- A text comes back from UTF-8 as it went there exactly when it is well formed. -/
theorem survives_iff {s : List Nat} (units : Units s) :
    decodeUtf8 (encodeUtf8 s) = some s ↔ WellFormed s := by
  rw [decodeUtf8_encodeUtf8, Option.some_inj]
  constructor
  · intro same
    have formed := wellFormed_units16 (String.ofList (scalars s))
    rwa [units16, String.toList_ofList, same] at formed
  · exact flatMap_scalars units

/-- Texts of the same bytes are the same, if they are well formed. -/
theorem encodeUtf8_injective {s t : List Nat} (units : Units s) (units' : Units t)
    (formed : WellFormed s) (formed' : WellFormed t) (same : encodeUtf8 s = encodeUtf8 t) : s = t := by
  have back := (survives_iff units).mpr formed
  rw [same, (survives_iff units').mpr formed'] at back
  exact (Option.some_inj.mp back).symm

end Foundation.Surrogates
