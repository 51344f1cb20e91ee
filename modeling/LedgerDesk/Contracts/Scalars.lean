import LedgerDesk.Foundation.JsonValue
import LedgerDesk.Foundation.Surrogates

/-!
# Scalar text

The texts the contracts take for a sequence of Unicode scalars, and the bytes of a value under which
its digest is taken. One test stands in four places. It cuts the whole pairs out of a text and looks for
halves in the rest, and so passes a lone half and another behind it that only whole pairs keep apart.
-/
namespace LedgerDesk.Contracts

open Foundation Foundation.JsonUnits Foundation.Surrogates

/-! ### The test, where it stands -/

def scalarText (s : List Nat) : Bool := !hasLone (removePairs s)

/-- Of two texts the one that comes first by its characters, a lone half among them. -/
def codePoints : List Nat → List Nat
  | [] => []
  | [c] => [c]
  | high :: low :: rest =>
    if isHigh high && isLow low then
      (0x10000 + (high - 0xD800) * 0x400 + (low - 0xDC00)) :: codePoints rest
    else high :: codePoints (low :: rest)

def scalarFirst (a b : List Nat) : Bool := decide (codePoints a ≤ codePoints b)

def canonicalString (string : List Nat) : Option (List Nat) :=
  if hasLone (removePairs string) then none else some (quoted (quoteUnits string))

/-- A member of an object, once its value has been written. -/
def canonicalMember (m : List Nat × List Nat) : Option (List Nat) :=
  (canonicalString m.1).map fun key => key ++ ':'.toNat :: m.2

section Canonical

variable {ν : Type} (N : Numbers ν)

mutual

/-- The text of a value, its keys in scalar order; none where the code throws. -/
def canonicalUnits : Value ν → Option (List Nat)
  | .null => some (units "null")
  | .boolean value => some (units (if value then "true" else "false"))
  | .text string => canonicalString string
  | .number n => if (N.natural n).isSome then some (N.toText n) else none
  | .array items => do
    let texts ← canonicalUnitsItems items
    return '['.toNat :: [','.toNat].intercalate texts ++ [']'.toNat]
  | .object members => do
    let written ← canonicalUnitsMembers members
    let texts ← (written.insertionSort fun a b => scalarFirst a.1 b.1).mapM canonicalMember
    return '\x7b'.toNat :: [','.toNat].intercalate texts ++ ['\x7d'.toNat]

def canonicalUnitsItems : List (Value ν) → Option (List (List Nat))
  | [] => some []
  | item :: items => do
    let text ← canonicalUnits item
    let texts ← canonicalUnitsItems items
    return text :: texts

def canonicalUnitsMembers : List (List Nat × Value ν) → Option (List (List Nat × List Nat))
  | [] => some []
  | (key, value) :: members => do
    let text ← canonicalUnits value
    let texts ← canonicalUnitsMembers members
    return (key, text) :: texts

end

end Canonical

/-- `text(min, max, pattern)`. -/
structure TextShape where
  min : Nat
  max : Nat
  pattern : Option (List Nat → Bool)

/-- `[\u0000-\u0008\u000B\u000C\u000E-\u001F\u007F]`. -/
def isControl (c : Nat) : Bool := c ≤ 8 || c == 11 || c == 12 || (14 ≤ c && c ≤ 31) || c == 127

/-- What else the validator asks of a text. -/
def TextShape.asks (shape : TextShape) (input : List Nat) : Bool :=
  decide (shape.min ≤ (codePoints input).length ∧ (codePoints input).length ≤ shape.max) &&
    !input.any isControl && shape.pattern.all fun pattern => pattern input

def validText (shape : TextShape) (input : List Nat) : Bool :=
  decide (shape.min ≤ (codePoints input).length ∧ (codePoints input).length ≤ shape.max) &&
    !input.any isControl && !hasLone (removePairs input) &&
    shape.pattern.all fun pattern => pattern input

/-- The reader's strings: read as JSON has them, then tested. -/
def accessStrings : Checks where
  depth _ := true
  string s := !hasLone (removePairs s)
  number _ token := isNumber token
  distinct := false
  number_isNumber _ _ number := number

/-- `string()` of `decodeAccess`, where a string begins. -/
def accessString (text : List Nat) : Except ReadError (List Nat × List Nat) :=
  readString accessStrings text

/-! ### The text of a value, read back -/

theorem canonicalString_eq (string : List Nat) :
    canonicalString string = if scalarText string then some (quoted (quoteUnits string)) else none := by
  rw [canonicalString, scalarText]
  cases hasLone (removePairs string) <;> rfl

theorem canonicalMembers_some {members : List (List Nat × List Nat)} {texts : List (List Nat)} :
    members.mapM canonicalMember = some texts ↔ (∀ m ∈ members, scalarText m.1 = true) ∧
      texts = members.map fun m => quoted (quoteUnits m.1) ++ ':'.toNat :: m.2 := by
  induction members generalizing texts with
  | nil =>
    rw [List.mapM_nil]
    constructor
    · rintro ⟨⟩
      simp
    · rintro ⟨-, rfl⟩
      rfl
  | cons m members ih =>
    cases passes : scalarText m.1 with
    | false => simp [canonicalMember, canonicalString_eq, passes]
    | true =>
      simp only [List.mapM_cons, canonicalMember, canonicalString_eq, passes, if_true,
        Option.map_some, Option.bind_eq_bind, Option.bind_some, Option.bind_eq_some_iff, ih,
        Option.pure_def, Option.some.injEq, List.forall_mem_cons, List.map_cons, true_and]
      constructor
      · rintro ⟨_, ⟨others, rfl⟩, rfl⟩
        exact ⟨others, rfl⟩
      · rintro ⟨others, rfl⟩
        exact ⟨_, ⟨others, rfl⟩, rfl⟩

theorem stringifyItems_eq (items : List Json) :
    stringifyItems items = [','.toNat].intercalate (items.map stringify) := by
  induction items with
  | nil => rfl
  | cons item items ih =>
    cases items with
    | nil => simp [stringifyItems]
    | cons next items =>
      rw [stringifyItems, ih]
      · simp [List.intercalate]
      · simp

theorem stringifyMembers_eq (members : List (List Nat × Json)) :
    stringifyMembers members = [','.toNat].intercalate
      (members.map fun m => quoted (quoteUnits m.1) ++ ':'.toNat :: stringify m.2) := by
  induction members with
  | nil => rfl
  | cons m members ih =>
    obtain ⟨key, value⟩ := m
    cases members with
    | nil => simp [stringifyMembers]
    | cons next members =>
      rw [stringifyMembers, ih]
      · simp [List.intercalate]
      · simp

section Sorted

variable {ν : Type}

mutual

/-- The value with the keys of every object in scalar order. -/
def sorted : Value ν → Value ν
  | .array items => .array (sortedItems items)
  | .object members => .object ((sortedMembers members).insertionSort fun a b => scalarFirst a.1 b.1)
  | value => value

def sortedItems : List (Value ν) → List (Value ν)
  | [] => []
  | item :: items => sorted item :: sortedItems items

def sortedMembers : List (List Nat × Value ν) → List (List Nat × Value ν)
  | [] => []
  | (key, value) :: members => (key, sorted value) :: sortedMembers members

end

variable (N : Numbers ν)

mutual

/-- What the text of a value is the text of. -/
def canonicalJson : Value ν → Option Json
  | .null => some .null
  | .boolean value => some (.boolean value)
  | .text string => if scalarText string then some (.text string) else none
  | .number n => (N.natural n).map fun k =>
      .number ⟨indexUnits k, isNumber_of_isInteger (isInteger_indexUnits k)⟩
  | .array items => (canonicalJsonItems items).map .array
  | .object members => do
    let members ← canonicalJsonMembers members
    if members.all fun m => scalarText m.1 then
      return .object (members.insertionSort fun a b => scalarFirst a.1 b.1)
    else none

def canonicalJsonItems : List (Value ν) → Option (List Json)
  | [] => some []
  | item :: items => do
    let json ← canonicalJson item
    let jsons ← canonicalJsonItems items
    return json :: jsons

def canonicalJsonMembers : List (List Nat × Value ν) → Option (List (List Nat × Json))
  | [] => some []
  | (key, value) :: members => do
    let json ← canonicalJson value
    let jsons ← canonicalJsonMembers members
    return (key, json) :: jsons

end

/-- To sort the texts of the members is to write the sorted members. -/
theorem canonicalObject_eq {members : List (List Nat × Json)} :
    ((members.map fun m => (m.1, stringify m.2)).insertionSort
        fun a b => scalarFirst a.1 b.1).mapM canonicalMember =
      if members.all fun m => scalarText m.1 then
        some ((members.insertionSort fun a b => scalarFirst a.1 b.1).map
          fun m => quoted (quoteUnits m.1) ++ ':'.toNat :: stringify m.2)
      else none := by
  have commute := List.map_insertionSort (fun a b : List Nat × Json => scalarFirst a.1 b.1)
    (fun a b : List Nat × List Nat => scalarFirst a.1 b.1)
    (fun m : List Nat × Json => (m.1, stringify m.2)) members (fun _ _ _ _ => Iff.rfl)
  have keys : ∀ m, m ∈ members.insertionSort (fun a b => scalarFirst a.1 b.1) ↔ m ∈ members :=
    fun m => (List.perm_insertionSort _ members).mem_iff
  rw [← commute]
  split
  · next passes =>
    rw [List.all_eq_true] at passes
    refine canonicalMembers_some.mpr ⟨?_, by rw [List.map_map]; rfl⟩
    intro m member
    obtain ⟨m', among, rfl⟩ := List.mem_map.mp member
    exact passes m' ((keys m').mp among)
  · next refused =>
    refine Option.eq_none_iff_forall_ne_some.mpr fun texts written => refused ?_
    rw [List.all_eq_true]
    intro m member
    exact (canonicalMembers_some.mp written).1 _ (List.mem_map_of_mem ((keys m).mpr member))

mutual

theorem canonicalUnits_eq : ∀ v : Value ν,
    canonicalUnits N v = (canonicalJson N v).map stringify
  | .null => rfl
  | .boolean _ => rfl
  | .text string => by
    rw [canonicalUnits, canonicalJson, canonicalString_eq]
    split <;> rfl
  | .number n => by
    rw [canonicalUnits, canonicalJson]
    cases natural : N.natural n with
    | none => rfl
    | some k => simp [N.toText_natural natural, stringify]
  | .array items => by
    rw [canonicalUnits, canonicalJson, canonicalUnitsItems_eq items]
    cases canonicalJsonItems N items with
    | none => rfl
    | some jsons => simp [stringify, stringifyItems_eq]
  | .object members => by
    rw [canonicalUnits, canonicalJson, canonicalUnitsMembers_eq members]
    cases canonicalJsonMembers N members with
    | none => rfl
    | some jsons =>
      simp only [Option.map_some, Option.bind_eq_bind, Option.bind_some, canonicalObject_eq]
      split
      · simp [stringify, stringifyMembers_eq]
      · rfl

theorem canonicalUnitsItems_eq : ∀ items : List (Value ν),
    canonicalUnitsItems N items = (canonicalJsonItems N items).map (List.map stringify)
  | [] => rfl
  | item :: items => by
    rw [canonicalUnitsItems, canonicalJsonItems, canonicalUnits_eq item, canonicalUnitsItems_eq items]
    cases canonicalJson N item <;> cases canonicalJsonItems N items <;> rfl

theorem canonicalUnitsMembers_eq : ∀ members : List (List Nat × Value ν),
    canonicalUnitsMembers N members =
      (canonicalJsonMembers N members).map (List.map fun m => (m.1, stringify m.2))
  | [] => rfl
  | (key, value) :: members => by
    rw [canonicalUnitsMembers, canonicalJsonMembers, canonicalUnits_eq value,
      canonicalUnitsMembers_eq members]
    cases canonicalJson N value <;> cases canonicalJsonMembers N members <;> rfl

end

mutual

theorem value_canonicalJson : ∀ {v : Value ν} {json : Json}, canonicalJson N v = some json →
    json.value N = sorted v
  | .null, _, written => by
    cases written
    rfl
  | .boolean _, _, written => by
    cases written
    rfl
  | .text string, _, written => by
    rw [canonicalJson] at written
    split at written
    · cases written
      rfl
    · cases written
  | .number n, _, written => by
    rw [canonicalJson] at written
    obtain ⟨k, natural, rfl⟩ := Option.map_eq_some_iff.mp written
    exact congrArg Value.number (N.ofText_natural natural)
  | .array items, _, written => by
    rw [canonicalJson] at written
    obtain ⟨jsons, items_written, rfl⟩ := Option.map_eq_some_iff.mp written
    rw [Json.value, sorted, values_canonicalJsonItems items_written]
  | .object members, _, written => by
    rw [canonicalJson] at written
    obtain ⟨jsons, members_written, kept⟩ := Option.bind_eq_some_iff.mp written
    split at kept
    · cases kept
      have commute := List.map_insertionSort (fun a b : List Nat × Json => scalarFirst a.1 b.1)
        (fun a b : List Nat × Value ν => scalarFirst a.1 b.1)
        (fun m : List Nat × Json => (m.1, m.2.value N)) jsons (fun _ _ _ _ => Iff.rfl)
      rw [Json.value, sorted, valueMembers_eq_map, commute, ← valueMembers_eq_map,
        values_canonicalJsonMembers members_written]
    · cases kept

theorem values_canonicalJsonItems : ∀ {items : List (Value ν)} {jsons : List Json},
    canonicalJsonItems N items = some jsons → valueItems N jsons = sortedItems items
  | [], _, written => by
    cases written
    rfl
  | item :: items, _, written => by
    rw [canonicalJsonItems] at written
    obtain ⟨json, item_written, later⟩ := Option.bind_eq_some_iff.mp written
    obtain ⟨jsons, items_written, done⟩ := Option.bind_eq_some_iff.mp later
    cases done
    rw [valueItems, sortedItems, value_canonicalJson item_written,
      values_canonicalJsonItems items_written]

theorem values_canonicalJsonMembers : ∀ {members : List (List Nat × Value ν)}
    {jsons : List (List Nat × Json)}, canonicalJsonMembers N members = some jsons →
    valueMembers N jsons = sortedMembers members
  | [], _, written => by
    cases written
    rfl
  | (key, value) :: members, _, written => by
    rw [canonicalJsonMembers] at written
    obtain ⟨json, value_written, later⟩ := Option.bind_eq_some_iff.mp written
    obtain ⟨jsons, members_written, done⟩ := Option.bind_eq_some_iff.mp later
    cases done
    rw [valueMembers, sortedMembers, value_canonicalJson value_written,
      values_canonicalJsonMembers members_written]

end

/-- Two values of one text differ in the order of their keys at most. -/
theorem sorted_of_canonicalUnits {v w : Value ν} {text : List Nat}
    (first : canonicalUnits N v = some text) (second : canonicalUnits N w = some text) :
    sorted v = sorted w := by
  rw [canonicalUnits_eq] at first second
  obtain ⟨json, written, rfl⟩ := Option.map_eq_some_iff.mp first
  obtain ⟨json', written', same⟩ := Option.map_eq_some_iff.mp second
  rw [← value_canonicalJson N written, ← value_canonicalJson N written', stringify_injective same]

/-! ### The bytes of a value -/

/-- A text that comes back from UTF-8. -/
def Keeps (text : List Nat) : Prop := Units text ∧ WellFormed text

theorem Keeps.append {s t : List Nat} (front : Keeps s) (back : Keeps t) : Keeps (s ++ t) := by
  constructor
  · intro c member
    rcases List.mem_append.mp member with first | second
    · exact front.1 c first
    · exact back.1 c second
  · exact front.2.append back.2

theorem keeps_ascii {text : List Nat} (ascii : ∀ c ∈ text, c < 128) : Keeps text := by
  constructor
  · intro c member
    have small := ascii c member
    omega
  · refine wellFormed_of_plain fun c member => ?_
    have small := ascii c member
    simp only [isPlain, isHigh, isLow, Bool.and_eq_true, Bool.not_eq_true', Bool.and_eq_false_iff,
      decide_eq_false_iff_not]
    omega

theorem Keeps.around {text : List Nat} {a b : Nat} (keeps : Keeps text) (first : a < 128)
    (last : b < 128) : Keeps (a :: text ++ [b]) := by
  have opens : Keeps [a] := keeps_ascii (by simpa using first)
  have closes : Keeps [b] := keeps_ascii (by simpa using last)
  exact (opens.append keeps).append closes

theorem keeps_intercalate : ∀ {texts : List (List Nat)}, (∀ text ∈ texts, Keeps text) →
    Keeps ([','.toNat].intercalate texts)
  | [], _ => keeps_ascii (by simp [List.intercalate])
  | [text], keeps => by
    rw [List.intercalate_singleton]
    exact keeps text (List.mem_singleton_self text)
  | text :: next :: texts, keeps => by
    have comma : Keeps [','.toNat] := keeps_ascii (by decide)
    have later := keeps_intercalate fun t member => keeps t (List.mem_cons_of_mem text member)
    rw [List.intercalate_cons_cons]
    exact ((keeps text (List.mem_cons_self ..)).append comma).append later

theorem ascii_hexText {n : Nat} (small : n < 16) : hexText n < 128 := by
  rw [hexText]
  split <;> omega

theorem keeps_quoteUnit {c : Nat} (unit : c < 0x10000) : Keeps (quoteUnit c) := by
  simp only [quoteUnit]
  split
  · next mark => rcases mark with rfl | rfl <;> exact keeps_ascii (by decide)
  split
  · exact keeps_ascii (by decide)
  split
  · exact keeps_ascii (by decide)
  split
  · exact keeps_ascii (by decide)
  split
  · exact keeps_ascii (by decide)
  split
  · exact keeps_ascii (by decide)
  split
  · refine keeps_ascii ?_
    simp only [List.forall_mem_cons, List.not_mem_nil, false_implies, implies_true, and_true]
    exact ⟨by decide, by decide, ascii_hexText (by omega), ascii_hexText (by omega),
      ascii_hexText (by omega), ascii_hexText (by omega)⟩
  · next plain =>
    simp only [not_or, Bool.not_eq_true] at plain
    constructor
    · intro d member
      exact List.mem_singleton.mp member ▸ unit
    · exact (wellFormed_plain (isPlain_iff.mpr plain.2)).mpr wellFormed_nil

theorem keeps_quoteUnits {string : List Nat} (units : Units string) : Keeps (quoteUnits string) := by
  induction string using quoteUnits.induct with
  | case1 => exact keeps_ascii (by simp [quoteUnits])
  | case2 c => exact keeps_quoteUnit (units c (List.mem_cons_self ..))
  | case3 high low rest pair ih =>
    obtain ⟨isHigh, isLow⟩ := (Bool.and_eq_true ..).mp pair
    have later := ih units.tail.tail
    rw [quoteUnits, if_pos pair]
    constructor
    · intro c member
      rcases List.mem_cons.mp member with rfl | member
      · exact units c (List.mem_cons_self ..)
      rcases List.mem_cons.mp member with rfl | member
      · exact units c (List.mem_cons_of_mem _ (List.mem_cons_self ..))
      · exact later.1 c member
    · exact (wellFormed_pair isHigh isLow).mpr later.2
  | case4 high low rest apart ih =>
    rw [quoteUnits, if_neg apart]
    exact (keeps_quoteUnit (units high (List.mem_cons_self ..))).append (ih units.tail)

theorem keeps_quoted {string : List Nat} (units : Units string) :
    Keeps (quoted (quoteUnits string)) :=
  (keeps_quoteUnits units).around (by decide) (by decide)

theorem ascii_of_isNumeric {c : Nat} (numeric : isNumeric c = true) : c < 128 := by
  simp only [isNumeric, isDigit, Bool.or_eq_true, Bool.and_eq_true, decide_eq_true_eq,
    beq_iff_eq] at numeric
  omega

mutual

theorem keeps_stringify : ∀ {json : Json}, (∀ string ∈ json.strings, Units string) →
    Keeps (stringify json)
  | .null, _ => keeps_ascii (by decide)
  | .boolean value, _ => by cases value <;> exact keeps_ascii (by decide)
  | .number numeral, _ =>
    keeps_ascii fun c member => ascii_of_isNumeric ((numeric_of_isNumber numeral.valid).2 c member)
  | .text string, units => by
    rw [stringify]
    exact keeps_quoted (units string (by simp [Json.strings]))
  | .array items, units => by
    rw [stringify, stringifyItems_eq]
    refine (keeps_intercalate ?_).around (by decide) (by decide)
    exact keeps_items fun string member => units string (by rwa [Json.strings])
  | .object members, units => by
    rw [stringify, stringifyMembers_eq]
    refine (keeps_intercalate ?_).around (by decide) (by decide)
    exact keeps_members fun string member => units string (by rwa [Json.strings])

theorem keeps_items : ∀ {items : List Json}, (∀ string ∈ stringsOfItems items, Units string) →
    ∀ text ∈ items.map stringify, Keeps text
  | [], _, _, member => by cases member
  | item :: items, units, text, member => by
    rw [stringsOfItems, List.forall_mem_append] at units
    rcases List.mem_cons.mp member with rfl | member
    · exact keeps_stringify units.1
    · exact keeps_items units.2 text member

theorem keeps_members : ∀ {members : List (List Nat × Json)},
    (∀ string ∈ stringsOfMembers members, Units string) →
    ∀ text ∈ members.map fun m => quoted (quoteUnits m.1) ++ ':'.toNat :: stringify m.2, Keeps text
  | [], _, _, member => by cases member
  | (key, value) :: members, units, text, member => by
    rw [stringsOfMembers, List.cons_append, List.forall_mem_cons, List.forall_mem_append] at units
    rcases List.mem_cons.mp member with rfl | member
    · have colon : Keeps [':'.toNat] := keeps_ascii (by decide)
      exact (keeps_quoted units.1).append (colon.append (keeps_stringify units.2.1))
    · exact keeps_members units.2.2 text member

end

theorem mem_stringsOfMembers {members : List (List Nat × Json)} {string : List Nat} :
    string ∈ stringsOfMembers members ↔ ∃ m ∈ members, string = m.1 ∨ string ∈ m.2.strings := by
  induction members with
  | nil => simp [stringsOfMembers]
  | cons m members ih =>
    obtain ⟨key, value⟩ := m
    simp [stringsOfMembers, ih, or_assoc]

mutual

theorem strings_canonicalJson : ∀ {v : Value ν} {json : Json}, canonicalJson N v = some json →
    ∀ string ∈ json.strings, string ∈ v.strings
  | .null, _, written, string, member => by
    cases written
    cases member
  | .boolean _, _, written, string, member => by
    cases written
    cases member
  | .text _, _, written, string, member => by
    rw [canonicalJson] at written
    split at written
    · cases written
      exact member
    · cases written
  | .number _, _, written, string, member => by
    rw [canonicalJson] at written
    obtain ⟨k, -, rfl⟩ := Option.map_eq_some_iff.mp written
    cases member
  | .array items, _, written, string, member => by
    rw [canonicalJson] at written
    obtain ⟨jsons, items_written, rfl⟩ := Option.map_eq_some_iff.mp written
    rw [Json.strings] at member
    rw [Value.strings]
    exact strings_canonicalItems items_written string member
  | .object members, _, written, string, member => by
    rw [canonicalJson] at written
    obtain ⟨jsons, members_written, kept⟩ := Option.bind_eq_some_iff.mp written
    split at kept
    · cases kept
      rw [Json.strings, mem_stringsOfMembers] at member
      obtain ⟨m, among, there⟩ := member
      rw [Value.strings]
      refine strings_canonicalMembers members_written string (mem_stringsOfMembers.mpr ?_)
      exact ⟨m, (List.perm_insertionSort _ jsons).mem_iff.mp among, there⟩
    · cases kept

theorem strings_canonicalItems : ∀ {items : List (Value ν)} {jsons : List Json},
    canonicalJsonItems N items = some jsons →
    ∀ string ∈ stringsOfItems jsons, string ∈ Value.stringsOfItems items
  | [], _, written, string, member => by
    cases written
    cases member
  | item :: items, _, written, string, member => by
    rw [canonicalJsonItems] at written
    obtain ⟨json, item_written, later⟩ := Option.bind_eq_some_iff.mp written
    obtain ⟨jsons, items_written, done⟩ := Option.bind_eq_some_iff.mp later
    cases done
    rw [stringsOfItems, List.mem_append] at member
    rw [Value.stringsOfItems, List.mem_append]
    exact member.imp (strings_canonicalJson item_written string)
      (strings_canonicalItems items_written string)

theorem strings_canonicalMembers : ∀ {members : List (List Nat × Value ν)}
    {jsons : List (List Nat × Json)}, canonicalJsonMembers N members = some jsons →
    ∀ string ∈ stringsOfMembers jsons, string ∈ Value.stringsOfMembers members
  | [], _, written, string, member => by
    cases written
    cases member
  | (key, value) :: members, _, written, string, member => by
    rw [canonicalJsonMembers] at written
    obtain ⟨json, value_written, later⟩ := Option.bind_eq_some_iff.mp written
    obtain ⟨jsons, members_written, done⟩ := Option.bind_eq_some_iff.mp later
    cases done
    rw [stringsOfMembers, List.cons_append, List.mem_cons, List.mem_append] at member
    rw [Value.stringsOfMembers, List.cons_append, List.mem_cons, List.mem_append]
    exact member.imp_right fun there => there.imp (strings_canonicalJson value_written string)
      (strings_canonicalMembers members_written string)

end

/-- A value in the code units of the language. -/
def InUnits (v : Value ν) : Prop := ∀ string ∈ v.strings, Units string

instance (v : Value ν) : Decidable (InUnits v) :=
  inferInstanceAs (Decidable (∀ string ∈ v.strings, Units string))

variable {N}

theorem keeps_canonicalUnits {v : Value ν} {text : List Nat} (units : InUnits v)
    (written : canonicalUnits N v = some text) : Keeps text := by
  rw [canonicalUnits_eq] at written
  obtain ⟨json, json_written, rfl⟩ := Option.map_eq_some_iff.mp written
  exact keeps_stringify fun string member =>
    units string (strings_canonicalJson N json_written string member)

/-- The bytes under a digest tell the value, up to the order of keys. -/
theorem sorted_of_canonical_bytes {v w : Value ν} {text text' : List Nat}
    (units : InUnits v) (units' : InUnits w) (first : canonicalUnits N v = some text)
    (second : canonicalUnits N w = some text') (same : encodeUtf8 text = encodeUtf8 text') :
    sorted v = sorted w := by
  have keeps := keeps_canonicalUnits units first
  have keeps' := keeps_canonicalUnits units' second
  obtain rfl := encodeUtf8_injective keeps.1 keeps'.1 keeps.2 keeps'.2 same
  exact sorted_of_canonicalUnits N first second

end Sorted

/-! ### The test is wrong on parted halves -/

theorem scalarText_iff (s : List Nat) : scalarText s = true ↔ WellFormed s ∨ Parted s := by
  rw [scalarText, Bool.not_eq_true', passes_iff]

theorem accessString_spelled {inner string : List Nat} (spells : Spells string inner)
    (rest : List Nat) : accessString (inner ++ 34 :: rest) =
      if scalarText string then .ok (string, rest) else .error .unicode := by
  rw [accessString, readString, closeString_spells spells]
  simp only [unescape_iff.mpr spells]
  rfl

/-- What one text passes it passes in each of the four places, and then survives UTF-8. -/
def ScalarTest (s : List Nat) : Prop :=
  (scalarText s = true ↔ WellFormed s) ∧
  (scalarText s = true → decodeUtf8 (encodeUtf8 s) = some s)

/-- The test tells the well-formed texts from the others, and what it passes survives UTF-8, except on
texts whose lone halves only whole pairs keep apart. In all four places it gives one answer, and no two
values have the same canonical bytes. -/
theorem scalarText_exact {ν : Type} (N : Numbers ν) (s : List Nat) (units : Units s) :
    (ScalarTest s ↔ ¬Parted s) ∧
    ((canonicalUnits N (.text s)).isSome = scalarText s ∧
      (∀ shape : TextShape, validText shape s = (scalarText s && shape.asks s)) ∧
      ∀ inner rest, Spells s inner → accessString (inner ++ 34 :: rest) =
        if scalarText s then .ok (s, rest) else .error .unicode) ∧
    ∀ (v w : Value ν) (text text' : List Nat), InUnits v → InUnits w →
      canonicalUnits N v = some text → canonicalUnits N w = some text' →
      encodeUtf8 text = encodeUtf8 text' → sorted v = sorted w := by
  refine ⟨?_, ⟨?_, ?_, ?_⟩, ?_⟩
  · constructor
    · rintro ⟨exact_, -⟩ parted
      -- The test passes a parted text, which is not well formed.
      exact not_wellFormed_of_parted parted (exact_.mp ((scalarText_iff s).mpr (.inr parted)))
    · intro whole
      have formed : scalarText s = true ↔ WellFormed s := by
        rw [scalarText_iff, or_iff_left whole]
      exact ⟨formed, fun passes => (survives_iff units).mpr (formed.mp passes)⟩
  · rw [canonicalUnits, canonicalString_eq]
    cases scalarText s <;> rfl
  · intro shape
    rw [validText, TextShape.asks, scalarText]
    ac_rfl
  · intro inner rest spells
    exact accessString_spelled spells rest
  · intro v w text text' inUnits inUnits' first second same
    exact sorted_of_canonical_bytes inUnits inUnits' first second same

/-- A pair is whole, and two objects that differ in the order of their keys have the same bytes. -/
theorem scalarText_exact_pair :
    ScalarTest [0x41, 0xD83D, 0xDE00] ∧
    sorted (.object [([98], .null), ([97], .text [0xD83D, 0xDE00])] : Value (Option (Fin (maxSafe + 1)))) =
      sorted (.object [([97], .text [0xD83D, 0xDE00]), ([98], .null)]) := by
  have formed : WellFormed [0x41, 0xD83D, 0xDE00] := (hasLone_iff _).mp rfl
  have exact_ := scalarText_exact Numbers.safe [0x41, 0xD83D, 0xDE00] (by decide)
  refine ⟨exact_.1.mpr fun parted => not_wellFormed_of_parted parted formed, ?_⟩
  refine exact_.2.2 _ _ _ _ ?_ ?_ rfl rfl rfl
  · decide
  · decide

/-- A lone half, a whole pair and another lone half pass the test, and do not survive UTF-8. -/
theorem scalarText_passes_parted :
    ¬((scalarText [0xD800, 0xD83D, 0xDE00, 0xDC00] = true ↔
        WellFormed [0xD800, 0xD83D, 0xDE00, 0xDC00]) ∧
      (scalarText [0xD800, 0xD83D, 0xDE00, 0xDC00] = true →
        decodeUtf8 (encodeUtf8 [0xD800, 0xD83D, 0xDE00, 0xDC00]) =
          some [0xD800, 0xD83D, 0xDE00, 0xDC00])) := by
  have parted : Parted [0xD800, 0xD83D, 0xDE00, 0xDC00] :=
    @Joins.parted false 0xD800 0xDC00 [] [(0xD83D, 0xDE00)] rfl (by simp [Pairs, isHigh, isLow])
      (by simp) rfl .nil
  rintro ⟨exact_, -⟩
  exact not_wellFormed_of_parted parted (exact_.mp rfl)

end LedgerDesk.Contracts
