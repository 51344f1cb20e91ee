import LedgerDesk.Agents.Text

/-!
# Canonical JSON is injective

Two values of one canonical text are equal up to the order of the keys of their objects.
-/
namespace LedgerDesk.Agents

open Foundation

/-! ### Numbers -/

/-- One form for each number: no decimal ends in a zero, has more digits than a double is told
by, or stands for an integer that is written in full. -/
def JsNumber.Canonical : JsNumber → Prop
  | .integer _ => True
  | .decimal _ digits point =>
    digits % 10 ≠ 0 ∧ digits < 10 ^ 17 ∧ (point < (Nat.toDigits 10 digits).length ∨ 21 < point)

/-- Sign, digits and power of ten. -/
def JsNumber.scaled : JsNumber → Bool × Nat × Int
  | .integer value => (value < 0, value.natAbs, 0)
  | .decimal negative digits point => (negative, digits, point - (Nat.toDigits 10 digits).length)

theorem JsNumber.scaled_injective {m n : JsNumber} (canonical : m.Canonical)
    (canonical' : n.Canonical) (same : m.scaled = n.scaled) : m = n := by
  -- a decimal of power zero would have more than 21 digits
  have never_whole : ∀ negative digits point, (JsNumber.decimal negative digits point).Canonical →
      point - ((Nat.toDigits 10 digits).length : Int) ≠ 0 := by
    rintro negative digits point ⟨-, short, place⟩
    have bound := (Nat.length_toDigits_le_iff (b := 10) (k := 17) (by decide) (by decide)).mpr short
    omega
  cases m with
  | integer value =>
    cases n with
    | integer value' =>
      simp only [scaled, Prod.mk.injEq, decide_eq_decide] at same
      congr 1
      omega
    | decimal negative digits point =>
      simp only [scaled, Prod.mk.injEq] at same
      exact absurd same.2.2.symm (never_whole negative digits point canonical')
  | decimal negative digits point =>
    cases n with
    | integer value' =>
      simp only [scaled, Prod.mk.injEq] at same
      exact absurd same.2.2 (never_whole negative digits point canonical)
    | decimal negative' digits' point' =>
      simp only [scaled, Prod.mk.injEq] at same
      obtain ⟨rfl, rfl, power⟩ := same
      congr 1
      omega

/-- The part of a decimal's text after the sign. -/
def decimalBody (digits : Nat) (point : Int) : List Char :=
  let s := Nat.toDigits 10 digits
  let k : Int := s.length
  if k ≤ point ∧ point ≤ 21 then s ++ List.replicate (point - k).toNat '0'
  else if 0 < point ∧ point ≤ 21 then s.take point.toNat ++ '.' :: s.drop point.toNat
  else if -6 < point ∧ point ≤ 0 then '0' :: '.' :: List.replicate (-point).toNat '0' ++ s
  else
    let e := point - 1
    let sign := if e < 0 then '-' else '+'
    let exponent := Nat.toDigits 10 e.natAbs
    if k = 1 then s ++ 'e' :: sign :: exponent
    else s.take 1 ++ '.' :: s.drop 1 ++ 'e' :: sign :: exponent

theorem decimalText_toList (negative : Bool) (digits : Nat) (point : Int) :
    (decimalText negative digits point).toList =
      (if negative then ['-'] else []) ++ decimalBody digits point := by
  have digits_text : ∀ n : Nat, (toString n).toList = Nat.toDigits 10 n := by
    intro n
    rw [Nat.toString_eq_ofList_toDigits, String.toList_ofList]
  simp only [decimalText, decimalBody, String.toList_ofList, digits_text]
  cases negative <;> rfl

/-! ### Reading a numeral -/

def readExponent : List Char → Int
  | '-' :: digits => -(Nat.ofDigitChars 10 digits 0 : Int)
  | '+' :: digits => Nat.ofDigitChars 10 digits 0
  | _ => 0

/-- Digits and power of ten of a numeral without sign. -/
def readBody (body : List Char) : Nat × Int :=
  let mantissa := body.takeWhile (· ≠ 'e')
  let exponent := readExponent (body.dropWhile (· ≠ 'e')).tail
  let whole := mantissa.takeWhile (· ≠ '.')
  let fraction := (mantissa.dropWhile (· ≠ '.')).tail
  (Nat.ofDigitChars 10 (whole ++ fraction) 0, exponent - fraction.length)

def readNumeral : List Char → Bool × Nat × Int
  | '-' :: body => (true, readBody body)
  | body => (false, readBody body)

section Cut

variable {c : Char} {xs : List Char}

theorem takeWhile_cut (outside : c ∉ xs) (ys : List Char) :
    (xs ++ c :: ys).takeWhile (· ≠ c) = xs := by
  rw [List.takeWhile_append_of_pos, List.takeWhile_cons_of_neg (by simp), List.append_nil]
  intro d member
  simp only [decide_eq_true_eq]
  rintro rfl
  exact outside member

theorem dropWhile_cut (outside : c ∉ xs) (ys : List Char) :
    (xs ++ c :: ys).dropWhile (· ≠ c) = c :: ys := by
  rw [List.dropWhile_append_of_pos, List.dropWhile_cons_of_neg (by simp)]
  intro d member
  simp only [decide_eq_true_eq]
  rintro rfl
  exact outside member

theorem takeWhile_uncut (outside : c ∉ xs) : xs.takeWhile (· ≠ c) = xs := by
  rw [List.takeWhile_eq_self_iff]
  intro d member
  simp only [decide_eq_true_eq]
  rintro rfl
  exact outside member

theorem dropWhile_uncut (outside : c ∉ xs) : xs.dropWhile (· ≠ c) = [] := by
  rw [List.dropWhile_eq_nil_iff]
  intro d member
  simp only [decide_eq_true_eq]
  rintro rfl
  exact outside member

end Cut

def Digits (cs : List Char) : Prop := ∀ c ∈ cs, c.isDigit = true

theorem digits_toDigits (n : Nat) : Digits (Nat.toDigits 10 n) := fun _ member =>
  Nat.isDigit_of_mem_toDigits (by decide) (by decide) member

theorem Digits.append {cs ds : List Char} (digits : Digits cs) (digits' : Digits ds) :
    Digits (cs ++ ds) := by
  intro c member
  rcases List.mem_append.mp member with first | second
  · exact digits c first
  · exact digits' c second

theorem digits_zeros (n : Nat) : Digits (List.replicate n '0') := by
  intro c member
  rw [(List.mem_replicate.mp member).2]
  decide

theorem Digits.not_mem {cs : List Char} (digits : Digits cs) {c : Char}
    (other : c.isDigit = false) : c ∉ cs := by
  intro member
  rw [digits c member] at other
  cases other

theorem readBody_whole {whole : List Char} (digits : Digits whole) :
    readBody whole = (Nat.ofDigitChars 10 whole 0, 0) := by
  have no_e : 'e' ∉ whole := digits.not_mem (by decide)
  have no_point : '.' ∉ whole := digits.not_mem (by decide)
  simp only [readBody]
  rw [takeWhile_uncut no_e, dropWhile_uncut no_e, takeWhile_uncut no_point,
    dropWhile_uncut no_point]
  simp [readExponent]

theorem readBody_point {whole fraction : List Char} (digits : Digits whole)
    (digits' : Digits fraction) :
    readBody (whole ++ '.' :: fraction) =
      (Nat.ofDigitChars 10 (whole ++ fraction) 0, -(fraction.length : Int)) := by
  have no_e : 'e' ∉ whole ++ '.' :: fraction := by
    simp only [List.mem_append, List.mem_cons, not_or]
    exact ⟨digits.not_mem (by decide), by decide, digits'.not_mem (by decide)⟩
  have no_point : '.' ∉ whole := digits.not_mem (by decide)
  simp only [readBody]
  rw [takeWhile_uncut no_e, dropWhile_uncut no_e, takeWhile_cut no_point, dropWhile_cut no_point]
  simp [readExponent]

/-- An exponent adds to the power of ten. -/
theorem readBody_exponent {mantissa exponent : List Char} (no_e : 'e' ∉ mantissa) :
    readBody (mantissa ++ 'e' :: exponent) =
      ((readBody mantissa).1, (readBody mantissa).2 + readExponent exponent) := by
  simp only [readBody]
  rw [takeWhile_cut no_e, dropWhile_cut no_e, takeWhile_uncut no_e, dropWhile_uncut no_e]
  have nothing : readExponent [] = 0 := rfl
  simp only [List.tail_cons, List.tail_nil, nothing]
  congr 1
  omega

theorem readExponent_signed (e : Int) :
    readExponent ((if e < 0 then '-' else '+') :: Nat.toDigits 10 e.natAbs) = e := by
  split
  · next negative =>
    rw [readExponent, Nat.ofDigitChars_ten_toDigits]
    omega
  · next positive =>
    rw [readExponent, Nat.ofDigitChars_ten_toDigits]
    omega

theorem readBody_decimalBody {negative : Bool} {digits : Nat} {point : Int}
    (canonical : (JsNumber.decimal negative digits point).Canonical) :
    readBody (decimalBody digits point) = (digits, point - (Nat.toDigits 10 digits).length) := by
  obtain ⟨-, -, place⟩ := canonical
  have all := digits_toDigits digits
  have some_digit : 0 < (Nat.toDigits 10 digits).length := Nat.length_toDigits_pos
  have value : Nat.ofDigitChars 10 (Nat.toDigits 10 digits) 0 = digits :=
    Nat.ofDigitChars_ten_toDigits
  simp only [decimalBody]
  generalize Nat.toDigits 10 digits = s at *
  have taken : ∀ n, Digits (s.take n) := fun n c member => all c (List.mem_of_mem_take member)
  have dropped : ∀ n, Digits (s.drop n) := fun n c member => all c (List.mem_of_mem_drop member)
  split
  · next whole => omega
  split
  · -- the point stands among the digits
    next among =>
    rw [readBody_point (taken _) (dropped _), List.take_append_drop, value, List.length_drop]
    congr 1
    omega
  split
  · -- zeros stand between the point and the digits
    next before =>
    have zero : Digits ['0'] := digits_zeros 1
    have text : '0' :: '.' :: List.replicate (-point).toNat '0' ++ s =
        ['0'] ++ '.' :: (List.replicate (-point).toNat '0' ++ s) := rfl
    rw [text, readBody_point zero ((digits_zeros _).append all), Nat.ofDigitChars_append,
      Nat.ofDigitChars_append, Nat.ofDigitChars_replicate_zero]
    have none_yet : Nat.ofDigitChars 10 ['0'] 0 = 0 := rfl
    rw [none_yet, Nat.mul_zero, value, List.length_append, List.length_replicate]
    congr 1
    omega
  split
  · -- one digit and an exponent
    next single =>
    rw [readBody_exponent (all.not_mem (by decide)), readBody_whole all, value,
      readExponent_signed]
    congr 1
    omega
  · have no_e : 'e' ∉ s.take 1 ++ '.' :: s.drop 1 := by
      simp only [List.mem_append, List.mem_cons, not_or]
      exact ⟨(taken 1).not_mem (by decide), by decide, (dropped 1).not_mem (by decide)⟩
    rw [readBody_exponent no_e, readBody_point (taken 1) (dropped 1), List.take_append_drop, value,
      readExponent_signed, List.length_drop]
    congr 1
    omega

/-- A body begins with a digit. -/
theorem decimalBody_opens (digits : Nat) (point : Int) :
    ∃ c tail, decimalBody digits point = c :: tail ∧ c.isDigit = true := by
  have all := digits_toDigits digits
  have some_digit : 0 < (Nat.toDigits 10 digits).length := Nat.length_toDigits_pos
  simp only [decimalBody]
  generalize Nat.toDigits 10 digits = s at *
  cases s with
  | nil => simp at some_digit
  | cons c tail =>
    have first : c.isDigit = true := all c List.mem_cons_self
    split
    · exact ⟨c, _, rfl, first⟩
    split
    · next among =>
      obtain ⟨n, place⟩ : ∃ n, point.toNat = n + 1 := ⟨point.toNat - 1, by omega⟩
      rw [place]
      exact ⟨c, _, rfl, first⟩
    split
    · exact ⟨'0', _, rfl, by decide⟩
    split
    · exact ⟨c, _, rfl, first⟩
    · exact ⟨c, _, rfl, first⟩

theorem readNumeral_unsigned {c : Char} {tail : List Char} (digit : c.isDigit = true) :
    readNumeral (c :: tail) = (false, readBody (c :: tail)) := by
  rw [readNumeral]
  intro body signed
  cases signed
  exact absurd digit (by decide)

/-- What is read from the text of a number is the number. -/
theorem readNumeral_numberText {n : JsNumber} (canonical : n.Canonical) :
    readNumeral (numberText n).toList = n.scaled := by
  cases n with
  | integer value =>
    have digits : Digits value.natAbs.repr.toList := fun _ member => repr_digit member
    have read : readBody value.natAbs.repr.toList = (value.natAbs, 0) := by
      rw [readBody_whole digits, Nat.toList_repr, Nat.ofDigitChars_ten_toDigits]
    obtain ⟨c, tail, text, digit⟩ := repr_opens value.natAbs
    rw [numberText, integer_text, JsNumber.scaled]
    by_cases negative : value < 0
    · rw [if_pos negative, List.singleton_append, readNumeral, read]
      simp [negative]
    · rw [if_neg negative, List.nil_append, text, readNumeral_unsigned digit, ← text, read]
      simp [negative]
  | decimal negative digits point =>
    have read := readBody_decimalBody canonical
    obtain ⟨c, tail, text, digit⟩ := decimalBody_opens digits point
    rw [numberText, decimalText_toList, JsNumber.scaled]
    cases negative with
    | true => simp [readNumeral, read]
    | false =>
      simp only [Bool.false_eq_true, if_false, List.nil_append]
      rw [text, readNumeral_unsigned digit, ← text, read]

theorem numberText_injective {m n : JsNumber} (canonical : m.Canonical)
    (canonical' : n.Canonical) (same : (numberText m).toList = (numberText n).toList) : m = n := by
  refine JsNumber.scaled_injective canonical canonical' ?_
  rw [← readNumeral_numberText canonical, ← readNumeral_numberText canonical', same]

/-- A character of a numeral. -/
def inNumber (c : Char) : Bool := c.isDigit || c == '-' || c == '+' || c == '.' || c == 'e'

theorem decimalBody_inside (digits : Nat) (point : Int) :
    ∀ c ∈ decimalBody digits point, inNumber c = true := by
  have digit : ∀ {cs : List Char}, Digits cs → ∀ c ∈ cs, inNumber c = true := by
    intro cs digits c member
    simp [inNumber, digits c member]
  have taken : ∀ (n : Nat), ∀ c ∈ (Nat.toDigits 10 digits).take n, inNumber c = true :=
    fun n c member => digit (digits_toDigits digits) c (List.mem_of_mem_take member)
  have dropped : ∀ (n : Nat), ∀ c ∈ (Nat.toDigits 10 digits).drop n, inNumber c = true :=
    fun n c member => digit (digits_toDigits digits) c (List.mem_of_mem_drop member)
  have exponent : ∀ e : Int, ∀ c ∈ (if e < 0 then '-' else '+') :: Nat.toDigits 10 e.natAbs,
      inNumber c = true := by
    intro e c member
    rcases List.mem_cons.mp member with sign | power
    · rw [sign]
      split <;> decide
    · exact digit (digits_toDigits _) c power
  intro c member
  simp only [decimalBody] at member
  split at member
  · exact digit ((digits_toDigits digits).append (digits_zeros _)) c member
  split at member
  · rcases List.mem_append.mp member with whole | fraction
    · exact taken _ c whole
    · rcases List.mem_cons.mp fraction with rfl | fraction
      · decide
      · exact dropped _ c fraction
  split at member
  · simp only [List.cons_append, List.mem_cons] at member
    rcases member with rfl | rfl | fraction
    · decide
    · decide
    · exact digit ((digits_zeros _).append (digits_toDigits digits)) c fraction
  split at member
  · rcases List.mem_append.mp member with whole | power
    · exact digit (digits_toDigits digits) c whole
    · rcases List.mem_cons.mp power with rfl | power
      · decide
      · exact exponent _ c power
  · simp only [List.append_assoc, List.cons_append, List.mem_append] at member
    rcases member with whole | rest
    · exact taken 1 c whole
    · rcases List.mem_cons.mp rest with rfl | rest
      · decide
      · rcases List.mem_append.mp rest with fraction | power
        · exact dropped 1 c fraction
        · rcases List.mem_cons.mp power with rfl | power
          · decide
          · exact exponent _ c power

theorem numberText_inside (n : JsNumber) : ∀ c ∈ (numberText n).toList, inNumber c = true := by
  intro c member
  cases n with
  | integer value =>
    have inside := integer_inside value c member
    rw [inNumeral, Bool.or_eq_true] at inside
    rcases inside with digit | sign
    · simp [inNumber, digit]
    · simp [inNumber, sign]
  | decimal negative digits point =>
    rw [numberText, decimalText_toList] at member
    rcases List.mem_append.mp member with sign | body
    · split at sign
      · rw [List.mem_singleton.mp sign]
        decide
      · cases sign
    · exact decimalBody_inside digits point c body

theorem numberText_opens (n : JsNumber) :
    ∃ c tail, (numberText n).toList = c :: tail ∧ JsonText.opensNumber c = true := by
  cases n with
  | integer value => exact integer_opens value
  | decimal negative digits point =>
    obtain ⟨c, tail, text, digit⟩ := decimalBody_opens digits point
    rw [numberText, decimalText_toList, text]
    cases negative with
    | true => exact ⟨'-', _, rfl, rfl⟩
    | false => exact ⟨c, tail, rfl, by rw [JsonText.opensNumber, digit, Bool.true_or]⟩

/-! ### Values -/

/-- What canonical JSON is taken of: numbers in their one form, objects with distinct keys. -/
def Json.WellFormed : Json → Prop
  | .number value => value.Canonical
  | .array items => ItemsFormed items
  | .object members => (members.map Prod.fst).Nodup ∧ MembersFormed members
  | _ => True
where
  ItemsFormed : List Json → Prop
    | [] => True
    | item :: items => item.WellFormed ∧ ItemsFormed items
  MembersFormed : List (String × Json) → Prop
    | [] => True
    | (_, value) :: members => value.WellFormed ∧ MembersFormed members

def keyOrder (a b : String) : Bool := decide (codeUnits a ≤ codeUnits b)

mutual

/-- The value with the keys of every object in the order of their code units. -/
def Json.sorted : Json → Json
  | .array items => .array (sortedItems items)
  | .object members => .object ((sortedMembers members).insertionSort fun a b => keyOrder a.1 b.1)
  | value => value

def Json.sortedItems : List Json → List Json
  | [] => []
  | item :: items => item.sorted :: sortedItems items

def Json.sortedMembers : List (String × Json) → List (String × Json)
  | [] => []
  | (key, value) :: members => (key, value.sorted) :: sortedMembers members

end

abbrev CanonicalNumber := { n : JsNumber // n.Canonical }

def jsonTokens : JsonText.Tokens CanonicalNumber where
  quoted text := (quote text).toList
  quoted_opens := quote_opens
  quoted_told := quote_told
  number n := (numberText n.1).toList
  number_opens n := numberText_opens n.1
  inNumber := inNumber
  number_within n := numberText_inside n.1
  number_closed c ending := by rcases ending with rfl | rfl | rfl <;> rfl
  number_injective m n same := Subtype.ext (numberText_injective m.2 n.2 same)

mutual

def Json.ofTree : JsonText.Tree CanonicalNumber → Json
  | .null => .null
  | .boolean value => .boolean value
  | .text value => .text value
  | .number value => .number value.1
  | .array items => .array (ofItems items)
  | .object members => .object (ofMembers members)

def Json.ofItems : List (JsonText.Tree CanonicalNumber) → List Json
  | [] => []
  | item :: items => ofTree item :: ofItems items

def Json.ofMembers : List (String × JsonText.Tree CanonicalNumber) → List (String × Json)
  | [] => []
  | (key, value) :: members => (key, ofTree value) :: ofMembers members

end

theorem Json.ofMembers_eq_map (members : List (String × JsonText.Tree CanonicalNumber)) :
    ofMembers members = members.map fun m => (m.1, ofTree m.2) := by
  induction members with
  | nil => rw [ofMembers, List.map_nil]
  | cons m members ih =>
    obtain ⟨key, value⟩ := m
    rw [ofMembers, List.map_cons, ih]

mutual

theorem Json.exists_tree : ∀ json : Json, json.WellFormed → ∃ tree, ofTree tree = json
  | .null, _ => ⟨.null, by rw [ofTree]⟩
  | .boolean value, _ => ⟨.boolean value, by rw [ofTree]⟩
  | .text value, _ => ⟨.text value, by rw [ofTree]⟩
  | .number value, formed => by
    rw [WellFormed] at formed
    exact ⟨.number ⟨value, formed⟩, by rw [ofTree]⟩
  | .array items, formed => by
    rw [WellFormed] at formed
    obtain ⟨trees, same⟩ := exists_items items formed
    exact ⟨.array trees, by rw [ofTree, same]⟩
  | .object members, formed => by
    rw [WellFormed] at formed
    obtain ⟨trees, same⟩ := exists_members members formed.2
    exact ⟨.object trees, by rw [ofTree, same]⟩

theorem Json.exists_items : ∀ items : List Json, WellFormed.ItemsFormed items →
    ∃ trees, ofItems trees = items
  | [], _ => ⟨[], by rw [ofItems]⟩
  | item :: items, formed => by
    rw [WellFormed.ItemsFormed] at formed
    obtain ⟨tree, first⟩ := exists_tree item formed.1
    obtain ⟨trees, rest⟩ := exists_items items formed.2
    exact ⟨tree :: trees, by rw [ofItems, first, rest]⟩

theorem Json.exists_members : ∀ members : List (String × Json), WellFormed.MembersFormed members →
    ∃ trees, ofMembers trees = members
  | [], _ => ⟨[], by rw [ofMembers]⟩
  | (key, value) :: members, formed => by
    rw [WellFormed.MembersFormed] at formed
    obtain ⟨tree, first⟩ := exists_tree value formed.1
    obtain ⟨trees, rest⟩ := exists_members members formed.2
    exact ⟨(key, tree) :: trees, by rw [ofMembers, first, rest]⟩

end

mutual

/-- The texts of the library, as strings. -/
theorem canonicalJson_ofTree : ∀ tree : JsonText.Tree CanonicalNumber,
    (canonicalJson (.ofTree tree)).toList = JsonText.canonical jsonTokens keyOrder tree
  | .null | .boolean true | .boolean false | .text _ | .number _ => by
    simp [Json.ofTree, canonicalJson, JsonText.canonical, jsonTokens]
  | .array items => by
    rw [Json.ofTree, canonicalJson, JsonText.canonical, ← canonicalItems_ofTree items]
    simp [String.toList_intercalate]
  | .object members => by
    have texts := List.map_insertionSort
      (fun a b : String × String => codeUnits a.1 ≤ codeUnits b.1)
      (fun a b : String × List Char => keyOrder a.1 b.1) (fun m => (m.1, m.2.toList))
      (canonicalMembers (Json.ofMembers members))
      (fun a _ b _ => by rw [keyOrder, decide_eq_true_eq])
    rw [Json.ofTree, canonicalJson, JsonText.canonical, ← canonicalMembers_ofTree members, ← texts]
    simp only [String.toList_append, String.toList_intercalate, List.map_map]
    have member : (String.toList ∘ fun m : String × String => quote m.1 ++ ":" ++ m.2) =
        JsonText.memberText jsonTokens ∘ fun m : String × String => (m.1, m.2.toList) := by
      funext m
      simp [JsonText.memberText, jsonTokens]
    rw [member]
    rfl

theorem canonicalItems_ofTree : ∀ items : List (JsonText.Tree CanonicalNumber),
    (canonicalItems (Json.ofItems items)).map String.toList =
      JsonText.canonicalItems jsonTokens keyOrder items
  | [] => by simp [Json.ofItems, canonicalItems, JsonText.canonicalItems]
  | item :: items => by
    rw [Json.ofItems, canonicalItems, JsonText.canonicalItems, List.map_cons,
      canonicalJson_ofTree item, canonicalItems_ofTree items]

theorem canonicalMembers_ofTree : ∀ members : List (String × JsonText.Tree CanonicalNumber),
    (canonicalMembers (Json.ofMembers members)).map (fun m => (m.1, m.2.toList)) =
      JsonText.canonicalMembers jsonTokens keyOrder members
  | [] => by simp [Json.ofMembers, canonicalMembers, JsonText.canonicalMembers]
  | (key, value) :: members => by
    rw [Json.ofMembers, canonicalMembers, JsonText.canonicalMembers, List.map_cons,
      canonicalJson_ofTree value, canonicalMembers_ofTree members]

end

mutual

theorem Json.sorted_ofTree : ∀ tree : JsonText.Tree CanonicalNumber,
    (ofTree tree).sorted = ofTree (tree.sorted keyOrder)
  | .null | .boolean _ | .text _ | .number _ => by
    simp [ofTree, sorted, JsonText.Tree.sorted]
  | .array items => by
    rw [ofTree, sorted, JsonText.Tree.sorted, ofTree, sortedItems_ofTree items]
  | .object members => by
    rw [ofTree, sorted, JsonText.Tree.sorted, ofTree, sortedMembers_ofTree members,
      ofMembers_eq_map, ofMembers_eq_map]
    exact congrArg Json.object (List.map_insertionSort
      (fun a b : String × JsonText.Tree CanonicalNumber => keyOrder a.1 b.1)
      (fun a b : String × Json => keyOrder a.1 b.1) (fun m => (m.1, ofTree m.2))
      (JsonText.Tree.sortedMembers keyOrder members) (fun _ _ _ _ => Iff.rfl)).symm

theorem Json.sortedItems_ofTree : ∀ items : List (JsonText.Tree CanonicalNumber),
    sortedItems (ofItems items) = ofItems (JsonText.Tree.sortedItems keyOrder items)
  | [] => by simp [ofItems, sortedItems, JsonText.Tree.sortedItems]
  | item :: items => by
    rw [ofItems, sortedItems, JsonText.Tree.sortedItems, ofItems, sorted_ofTree item,
      sortedItems_ofTree items]

theorem Json.sortedMembers_ofTree : ∀ members : List (String × JsonText.Tree CanonicalNumber),
    sortedMembers (ofMembers members) = ofMembers (JsonText.Tree.sortedMembers keyOrder members)
  | [] => by simp [ofMembers, sortedMembers, JsonText.Tree.sortedMembers]
  | (key, value) :: members => by
    rw [ofMembers, sortedMembers, JsonText.Tree.sortedMembers, ofMembers, sorted_ofTree value,
      sortedMembers_ofTree members]

end

/-- One canonical text is of one value, up to the order of the keys. -/
theorem sorted_of_canonicalJson {v w : Json} (formed : v.WellFormed) (formed' : w.WellFormed)
    (same : canonicalJson v = canonicalJson w) : v.sorted = w.sorted := by
  obtain ⟨tree, rfl⟩ := v.exists_tree formed
  obtain ⟨tree', rfl⟩ := w.exists_tree formed'
  rw [← String.toList_inj, canonicalJson_ofTree, canonicalJson_ofTree,
    JsonText.canonical_inj] at same
  rw [Json.sorted_ofTree, Json.sorted_ofTree, same]

/-! ### Values up to the order of the keys -/

theorem Json.sortedItems_eq_map (items : List Json) : sortedItems items = items.map sorted := by
  induction items with
  | nil => simp [sortedItems]
  | cons item items ih => simp [sortedItems, ih]

theorem Json.sortedMembers_eq_map (members : List (String × Json)) :
    sortedMembers members = members.map fun m => (m.1, m.2.sorted) := by
  induction members with
  | nil => simp [sortedMembers]
  | cons m members ih =>
    obtain ⟨key, value⟩ := m
    simp [sortedMembers, ih]

theorem keyOrder_iff {a b : String} : keyOrder a b = true ↔ codeUnits a ≤ codeUnits b := by
  rw [keyOrder, decide_eq_true_eq]

theorem sortedKeys_pairwise {β : Type*} (members : List (String × β)) :
    (members.insertionSort fun a b => keyOrder a.1 b.1).Pairwise fun a b => keyOrder a.1 b.1 := by
  have total : Std.Total fun a b : String × β => keyOrder a.1 b.1 = true :=
    ⟨fun a b => by rw [keyOrder_iff, keyOrder_iff]; exact le_total _ _⟩
  have trans : IsTrans (String × β) fun a b => keyOrder a.1 b.1 = true :=
    ⟨fun a b c first second => keyOrder_iff.mpr
      (le_trans (keyOrder_iff.mp first) (keyOrder_iff.mp second))⟩
  exact List.pairwise_insertionSort _ members

/-- Members of distinct keys are put in order in one way. -/
theorem sortedKeys_eq_iff {β : Type*} {members members' : List (String × β)}
    (distinct : (members.map Prod.fst).Nodup) :
    (members.insertionSort fun a b => keyOrder a.1 b.1) =
        (members'.insertionSort fun a b => keyOrder a.1 b.1) ↔ members.Perm members' := by
  constructor
  · intro same
    have left := List.perm_insertionSort (fun a b : String × β => keyOrder a.1 b.1 = true) members
    have right := List.perm_insertionSort (fun a b : String × β => keyOrder a.1 b.1 = true) members'
    rw [same] at left
    exact left.symm.trans right
  · intro perm
    have one_key : ∀ a b : String × β,
        a ∈ (members.insertionSort fun a b => keyOrder a.1 b.1) →
        b ∈ (members'.insertionSort fun a b => keyOrder a.1 b.1) →
        keyOrder a.1 b.1 = true → keyOrder b.1 a.1 = true → a = b := by
      intro a b in_a in_b before after
      have key : a.1 = b.1 := codeUnits_injective
        (le_antisymm (keyOrder_iff.mp before) (keyOrder_iff.mp after))
      rw [List.mem_insertionSort] at in_a in_b
      exact List.inj_on_of_nodup_map distinct in_a (perm.mem_iff.mpr in_b) key
    have left := List.perm_insertionSort (fun a b : String × β => keyOrder a.1 b.1 = true) members
    have right := List.perm_insertionSort (fun a b : String × β => keyOrder a.1 b.1 = true) members'
    exact (left.trans (perm.trans right.symm)).eq_of_pairwise one_key
      (sortedKeys_pairwise members) (sortedKeys_pairwise members')

/-- Objects of distinct keys are equal up to the order of their keys when each has the other's
members, equal in the same sense. -/
theorem Json.sorted_object_iff {members members' : List (String × Json)}
    (distinct : (members.map Prod.fst).Nodup) :
    (object members).sorted = (object members').sorted ↔
      (members.map fun m => (m.1, m.2.sorted)).Perm (members'.map fun m => (m.1, m.2.sorted)) := by
  have keys : ((members.map fun m => (m.1, m.2.sorted)).map Prod.fst).Nodup := by
    rw [List.map_map]
    exact distinct
  rw [sorted, sorted, object.injEq, sortedMembers_eq_map, sortedMembers_eq_map,
    sortedKeys_eq_iff keys]

/-! ### One text for each value -/

theorem stringifyMembers_eq_map (members : List (String × Json)) :
    stringifyMembers members = members.map fun m => quote m.1 ++ ":" ++ stringify m.2 := by
  induction members with
  | nil => simp [stringifyMembers]
  | cons m members ih =>
    obtain ⟨key, value⟩ := m
    simp [stringifyMembers, ih]

mutual

/-- The canonical text is `JSON.stringify` of the value with its keys in order. -/
theorem canonicalJson_eq_stringify : ∀ json : Json, canonicalJson json = stringify json.sorted
  | .null | .boolean _ | .text _ | .number _ => by simp [canonicalJson, Json.sorted, stringify]
  | .array items => by
    rw [canonicalJson, Json.sorted, stringify, canonicalItems_eq_stringify items]
  | .object members => by
    have commute := List.map_insertionSort (fun a b : String × Json => keyOrder a.1 b.1 = true)
      (fun a b : String × String => codeUnits a.1 ≤ codeUnits b.1)
      (fun m : String × Json => (m.1, stringify m.2)) (Json.sortedMembers members)
      (fun _ _ _ _ => keyOrder_iff)
    rw [canonicalJson, Json.sorted, stringify, canonicalMembers_eq_stringify members,
      stringifyMembers_eq_map]
    simp only [← commute, List.map_map, Function.comp_def]

theorem canonicalItems_eq_stringify : ∀ items : List Json,
    canonicalItems items = stringifyItems (Json.sortedItems items)
  | [] => by simp [canonicalItems, Json.sortedItems, stringifyItems]
  | item :: items => by
    rw [canonicalItems, Json.sortedItems, stringifyItems, canonicalJson_eq_stringify item,
      canonicalItems_eq_stringify items]

theorem canonicalMembers_eq_stringify : ∀ members : List (String × Json),
    canonicalMembers members = (Json.sortedMembers members).map fun m => (m.1, stringify m.2)
  | [] => by simp [canonicalMembers, Json.sortedMembers]
  | (key, value) :: members => by
    rw [canonicalMembers, Json.sortedMembers, List.map_cons, canonicalJson_eq_stringify value,
      canonicalMembers_eq_stringify members]

end

theorem canonicalJson_eq_iff {v w : Json} (formed : v.WellFormed) (formed' : w.WellFormed) :
    canonicalJson v = canonicalJson w ↔ v.sorted = w.sorted := by
  constructor
  · exact sorted_of_canonicalJson formed formed'
  · intro same
    rw [canonicalJson_eq_stringify, canonicalJson_eq_stringify, same]

/-- What stands before the first brace is told from an object behind it. -/
theorem object_text_told {before before' : String} {members members' : List (String × Json)}
    (outside : '\x7b' ∉ before.toList) (outside' : '\x7b' ∉ before'.toList)
    (same : before ++ canonicalJson (.object members) =
      before' ++ canonicalJson (.object members')) :
    before = before' ∧ canonicalJson (.object members) = canonicalJson (.object members') := by
  have opens : ∀ ms : List (String × Json), ∃ tail,
      (canonicalJson (.object ms)).toList = '\x7b' :: tail := by
    intro ms
    simp only [canonicalJson, String.toList_append]
    exact ⟨_, rfl⟩
  obtain ⟨tail, text⟩ := opens members
  obtain ⟨tail', text'⟩ := opens members'
  have lists := congrArg String.toList same
  rw [String.toList_append, String.toList_append, text, text'] at lists
  constructor
  · have first := congrArg (List.takeWhile (· ≠ '\x7b')) lists
    rwa [takeWhile_cut outside, takeWhile_cut outside', String.toList_inj] at first
  · have rest := congrArg (List.dropWhile (· ≠ '\x7b')) lists
    rwa [dropWhile_cut outside, dropWhile_cut outside', ← text, ← text', String.toList_inj] at rest

end LedgerDesk.Agents
