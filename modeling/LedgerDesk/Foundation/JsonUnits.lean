import Mathlib

/-!
# JSON in code units

The grammar of JSON over UTF-16 code units, and the text a serialiser writes for a value. A numeral
is kept as it is written: what number it stands for is left to whoever reads it. Every string of a
value stands in each of its texts between quotes, spelled piece by piece.
-/
namespace Foundation.JsonUnits

def units (text : String) : List Nat := text.toList.map Char.toNat

def isDigit (c : Nat) : Bool := 48 ≤ c && c ≤ 57

/-! ### Numerals -/

/-- `0|[1-9][0-9]*`. -/
def isInteger : List Nat → Bool
  | [] => false
  | d :: ds => if d = 48 then ds.isEmpty else isDigit d && ds.all isDigit

/-- `([eE][+-]?[0-9]+)?`. -/
def isExponent : List Nat → Bool
  | [] => true
  | e :: rest =>
    let digits := match rest with
      | [] => []
      | sign :: digits => if sign = '+'.toNat ∨ sign = '-'.toNat then digits else rest
    (e == 'e'.toNat || e == 'E'.toNat) && !digits.isEmpty && digits.all isDigit

/-- `(\.[0-9]+)?`, and what may follow it. -/
def isFraction : List Nat → Bool
  | [] => true
  | c :: rest =>
    if c = '.'.toNat then !(rest.takeWhile isDigit).isEmpty && isExponent (rest.dropWhile isDigit)
    else isExponent (c :: rest)

def isNumber (lexeme : List Nat) : Bool :=
  let unsigned := match lexeme with
    | [] => []
    | sign :: rest => if sign = '-'.toNat then rest else lexeme
  isInteger (unsigned.takeWhile isDigit) && isFraction (unsigned.dropWhile isDigit)

structure Numeral where
  lexeme : List Nat
  valid : isNumber lexeme = true
  deriving DecidableEq, Repr

inductive Json where
  | null
  | boolean (value : Bool)
  | text (units : List Nat)
  | number (numeral : Numeral)
  | array (items : List Json)
  | object (members : List (List Nat × Json))
  deriving Repr

/-! ### Strings -/

def hexDigit (c : Nat) : Option Nat :=
  if isDigit c then some (c - 48)
  else if 'a'.toNat ≤ c ∧ c ≤ 'f'.toNat then some (c - 'a'.toNat + 10)
  else if 'A'.toNat ≤ c ∧ c ≤ 'F'.toNat then some (c - 'A'.toNat + 10)
  else none

/-- The code unit four hex digits stand for. -/
def hexUnit (a b c d : Nat) : Option Nat := do
  let a ← hexDigit a
  let b ← hexDigit b
  let c ← hexDigit c
  let d ← hexDigit d
  return ((a * 16 + b) * 16 + c) * 16 + d

/-- The escapes of one letter. -/
def escaped (letter : Nat) : Option Nat :=
  if letter = '"'.toNat ∨ letter = '\\'.toNat ∨ letter = '/'.toNat then some letter
  else if letter = 'b'.toNat then some 8
  else if letter = 'f'.toNat then some 12
  else if letter = 'n'.toNat then some 10
  else if letter = 'r'.toNat then some 13
  else if letter = 't'.toNat then some 9
  else none

/-- One code unit of a string, and how it is written. -/
inductive Piece : Nat → List Nat → Prop
  | plain {c : Nat} (printed : 32 ≤ c) (notQuote : c ≠ '"'.toNat) (notEscape : c ≠ '\\'.toNat) :
      Piece c [c]
  | named {letter c : Nat} (known : escaped letter = some c) : Piece c ['\\'.toNat, letter]
  | coded {a b c d n : Nat} (hex : hexUnit a b c d = some n) :
      Piece n ['\\'.toNat, 'u'.toNat, a, b, c, d]

/-- The code units of a string, and what stands between its quotes. -/
inductive Spells : List Nat → List Nat → Prop
  | nil : Spells [] []
  | cons {c : Nat} {cs piece rest : List Nat} (first : Piece c piece) (others : Spells cs rest) :
      Spells (c :: cs) (piece ++ rest)

def quoted (inner : List Nat) : List Nat := '"'.toNat :: inner ++ ['"'.toNat]

theorem Spells.append {s t inner rest : List Nat} (front : Spells s inner)
    (back : Spells t rest) : Spells (s ++ t) (inner ++ rest) := by
  induction front with
  | nil => exact back
  | cons first _ ih =>
    rw [List.append_assoc]
    exact .cons first ih

theorem Spells.split {s t inner : List Nat} (spelled : Spells (s ++ t) inner) :
    ∃ front back, inner = front ++ back ∧ Spells s front ∧ Spells t back := by
  induction s generalizing inner with
  | nil => exact ⟨[], inner, rfl, .nil, spelled⟩
  | cons c s ih =>
    cases spelled with
    | cons first others =>
      obtain ⟨front, back, rfl, spells, spells'⟩ := ih others
      exact ⟨_ ++ front, back, (List.append_assoc ..).symm, .cons first spells, spells'⟩

/-! ### Texts of values -/

def isSpace (c : Nat) : Bool := c == 9 || c == 10 || c == 13 || c == 32

def Blank (text : List Nat) : Prop := ∀ c ∈ text, isSpace c = true

mutual

/-- The texts of a value, without whitespace around it. -/
def Json.Text : Json → List Nat → Prop
  | .null, text => text = units "null"
  | .boolean value, text => text = units (if value then "true" else "false")
  | .text string, text => ∃ inner, text = quoted inner ∧ Spells string inner
  | .number numeral, text => text = numeral.lexeme
  | .array items, text => ∃ inner, text = '['.toNat :: inner ++ [']'.toNat] ∧ ItemsText items inner
  | .object members, text =>
    ∃ inner, text = '\x7b'.toNat :: inner ++ ['\x7d'.toNat] ∧ MembersText members inner

def ItemsText : List Json → List Nat → Prop
  | [], text => Blank text
  | item :: items, text => ∃ before body after more, text = before ++ body ++ after ++ more ∧
      Blank before ∧ item.Text body ∧ Blank after ∧
      (items = [] ∧ more = [] ∨
        items ≠ [] ∧ ∃ rest, more = ','.toNat :: rest ∧ ItemsText items rest)

def MembersText : List (List Nat × Json) → List Nat → Prop
  | [], text => Blank text
  | (key, value) :: members, text => ∃ before name gap gap' body after more,
      text = before ++ quoted name ++ gap ++ ':'.toNat :: gap' ++ body ++ after ++ more ∧
      Blank before ∧ Spells key name ∧ Blank gap ∧ Blank gap' ∧ value.Text body ∧ Blank after ∧
      (members = [] ∧ more = [] ∨
        members ≠ [] ∧ ∃ rest, more = ','.toNat :: rest ∧ MembersText members rest)

end

/-- A JSON text: a value with whitespace around it. -/
def Json.Document (json : Json) (text : List Nat) : Prop :=
  ∃ before body after, text = before ++ body ++ after ∧ Blank before ∧ json.Text body ∧ Blank after

mutual

/-- Every string of a value, the names of its members among them. -/
def Json.strings : Json → List (List Nat)
  | .text string => [string]
  | .array items => stringsOfItems items
  | .object members => stringsOfMembers members
  | _ => []

def stringsOfItems : List Json → List (List Nat)
  | [] => []
  | item :: items => item.strings ++ stringsOfItems items

def stringsOfMembers : List (List Nat × Json) → List (List Nat)
  | [] => []
  | (key, value) :: members => key :: value.strings ++ stringsOfMembers members

end

/-- The text has the string between quotes, spelled in some way. -/
def Shows (text string : List Nat) : Prop :=
  ∃ inner, quoted inner <:+: text ∧ Spells string inner

theorem Shows.mono {text text' string : List Nat} (shows_ : Shows text string)
    (inside : text <:+: text') : Shows text' string := by
  obtain ⟨inner, there, spells⟩ := shows_
  exact ⟨inner, there.trans inside, spells⟩

mutual

theorem Json.Text.shows : ∀ {json : Json} {text string : List Nat}, json.Text text →
    string ∈ json.strings → Shows text string
  | .null, _, _, _, member => by simp [Json.strings] at member
  | .boolean _, _, _, _, member => by simp [Json.strings] at member
  | .number _, _, _, _, member => by simp [Json.strings] at member
  | .text string, text, _, written, member => by
    obtain ⟨inner, rfl, spells⟩ := written
    obtain rfl := List.mem_singleton.mp member
    exact ⟨inner, List.infix_rfl, spells⟩
  | .array items, text, _, written, member => by
    obtain ⟨inner, rfl, inside⟩ := written
    exact (itemsText_shows inside member).mono ⟨['['.toNat], [']'.toNat], rfl⟩
  | .object members, text, _, written, member => by
    obtain ⟨inner, rfl, inside⟩ := written
    exact (membersText_shows inside member).mono ⟨['\x7b'.toNat], ['\x7d'.toNat], rfl⟩

theorem itemsText_shows : ∀ {items : List Json} {text string : List Nat}, ItemsText items text →
    string ∈ stringsOfItems items → Shows text string
  | [], _, _, _, member => by simp [stringsOfItems] at member
  | item :: items, _, string, written, member => by
    obtain ⟨before, body, after, more, rfl, -, here, -, later⟩ := written
    rcases List.mem_append.mp member with first | others
    · exact (here.shows first).mono ⟨before, after ++ more, by simp⟩
    · rcases later with ⟨rfl, -⟩ | ⟨-, rest, rfl, there⟩
      · cases others
      · exact (itemsText_shows there others).mono ⟨before ++ body ++ after ++ [','.toNat], [], by simp⟩

theorem membersText_shows : ∀ {members : List (List Nat × Json)} {text string : List Nat},
    MembersText members text → string ∈ stringsOfMembers members → Shows text string
  | [], _, _, _, member => by simp [stringsOfMembers] at member
  | (key, value) :: members, _, string, written, member => by
    obtain ⟨before, name, gap, gap', body, after, more, rfl, -, spells, -, -, here, -, later⟩ :=
      written
    rcases List.mem_cons.mp member with rfl | member
    · exact ⟨name, ⟨before, gap ++ ':'.toNat :: gap' ++ body ++ after ++ more, by simp⟩, spells⟩
    rcases List.mem_append.mp member with first | others
    · exact (here.shows first).mono
        ⟨before ++ quoted name ++ gap ++ ':'.toNat :: gap', after ++ more, by simp⟩
    · rcases later with ⟨rfl, -⟩ | ⟨-, rest, rfl, there⟩
      · cases others
      · exact (membersText_shows there others).mono
          ⟨before ++ quoted name ++ gap ++ ':'.toNat :: gap' ++ body ++ after ++ [','.toNat], [],
            by simp⟩

end

theorem Json.Document.shows {json : Json} {text string : List Nat} (document : json.Document text)
    (member : string ∈ json.strings) : Shows text string := by
  obtain ⟨before, body, after, rfl, -, written, -⟩ := document
  exact (written.shows member).mono ⟨before, after, rfl⟩

/-! ### Writing -/

def isHigh (c : Nat) : Bool := 0xD800 ≤ c && c ≤ 0xDBFF

def isLow (c : Nat) : Bool := 0xDC00 ≤ c && c ≤ 0xDFFF

/-- A hex digit in lower case. -/
def hexText (n : Nat) : Nat := if n < 10 then 48 + n else 87 + n

/-- `JSON.stringify` of one code unit, a surrogate without its other half among them. -/
def quoteUnit (c : Nat) : List Nat :=
  if c = '"'.toNat ∨ c = '\\'.toNat then ['\\'.toNat, c]
  else if c = 8 then units "\\b"
  else if c = 9 then units "\\t"
  else if c = 10 then units "\\n"
  else if c = 12 then units "\\f"
  else if c = 13 then units "\\r"
  else if c < 32 ∨ isHigh c ∨ isLow c then
    ['\\'.toNat, 'u'.toNat, hexText (c / 4096), hexText (c / 256 % 16), hexText (c / 16 % 16),
      hexText (c % 16)]
  else [c]

/-- `JSON.stringify` of a string, without its quotes: whole surrogate pairs stay. -/
def quoteUnits : List Nat → List Nat
  | [] => []
  | [c] => quoteUnit c
  | high :: low :: rest =>
    if isHigh high && isLow low then high :: low :: quoteUnits rest
    else quoteUnit high ++ quoteUnits (low :: rest)

mutual

/-- `JSON.stringify`: members in the order they were written. -/
def stringify : Json → List Nat
  | .null => units "null"
  | .boolean value => units (if value then "true" else "false")
  | .text string => quoted (quoteUnits string)
  | .number numeral => numeral.lexeme
  | .array items => '['.toNat :: stringifyItems items ++ [']'.toNat]
  | .object members => '\x7b'.toNat :: stringifyMembers members ++ ['\x7d'.toNat]

def stringifyItems : List Json → List Nat
  | [] => []
  | [item] => stringify item
  | item :: items => stringify item ++ ','.toNat :: stringifyItems items

def stringifyMembers : List (List Nat × Json) → List Nat
  | [] => []
  | [(key, value)] => quoted (quoteUnits key) ++ ':'.toNat :: stringify value
  | (key, value) :: members =>
    quoted (quoteUnits key) ++ ':'.toNat :: stringify value ++ ','.toNat :: stringifyMembers members

end

theorem hexDigit_hexText {n : Nat} (small : n < 16) : hexDigit (hexText n) = some n := by
  interval_cases n <;> rfl

theorem hexUnit_hexText {c : Nat} (small : c < 65536) :
    hexUnit (hexText (c / 4096)) (hexText (c / 256 % 16)) (hexText (c / 16 % 16)) (hexText (c % 16))
      = some c := by
  have top : c / 4096 < 16 := by omega
  have mod : ∀ n : Nat, n % 16 < 16 := fun n => Nat.mod_lt n (by decide)
  rw [hexUnit, hexDigit_hexText top, hexDigit_hexText (mod _), hexDigit_hexText (mod _),
    hexDigit_hexText (mod _)]
  simp only [Option.bind_eq_bind, Option.bind_some, Option.pure_def, Option.some.injEq]
  omega

theorem piece_quoteUnit (c : Nat) : Piece c (quoteUnit c) := by
  simp only [quoteUnit]
  split
  · next mark =>
    -- A quote or a backslash is its own letter.
    exact .named (by rcases mark with rfl | rfl <;> rfl)
  split
  · next same => subst same; exact .named rfl
  split
  · next same => subst same; exact .named rfl
  split
  · next same => subst same; exact .named rfl
  split
  · next same => subst same; exact .named rfl
  split
  · next same => subst same; exact .named rfl
  next ordinary _ _ _ _ _ =>
    obtain ⟨notQuote, notEscape⟩ := not_or.mp ordinary
    split
    · next coded =>
      have small : c < 65536 := by
        simp only [isHigh, isLow, Bool.and_eq_true, decide_eq_true_eq] at coded
        omega
      exact .coded (hexUnit_hexText small)
    · next plain => exact .plain (by omega) notQuote notEscape

theorem piece_of_high {c : Nat} (high : isHigh c = true) : Piece c [c] := by
  have range : 0xD800 ≤ c := by
    simp only [isHigh, Bool.and_eq_true, decide_eq_true_eq] at high
    exact high.1
  have quote : c ≠ '"'.toNat := fun same => absurd (same ▸ range) (by decide)
  have escape : c ≠ '\\'.toNat := fun same => absurd (same ▸ range) (by decide)
  exact .plain (by omega) quote escape

theorem piece_of_low {c : Nat} (low : isLow c = true) : Piece c [c] := by
  have range : 0xDC00 ≤ c := by
    simp only [isLow, Bool.and_eq_true, decide_eq_true_eq] at low
    exact low.1
  have quote : c ≠ '"'.toNat := fun same => absurd (same ▸ range) (by decide)
  have escape : c ≠ '\\'.toNat := fun same => absurd (same ▸ range) (by decide)
  exact .plain (by omega) quote escape

theorem spells_quoteUnits (string : List Nat) : Spells string (quoteUnits string) := by
  induction string using quoteUnits.induct with
  | case1 => exact .nil
  | case2 c =>
    have whole := Spells.cons (piece_quoteUnit c) .nil
    rwa [List.append_nil] at whole
  | case3 high low rest pair ih =>
    rw [quoteUnits, if_pos pair]
    obtain ⟨isHigh, isLow⟩ := (Bool.and_eq_true ..).mp pair
    exact .cons (piece_of_high isHigh) (.cons (piece_of_low isLow) ih)
  | case4 high low rest apart ih =>
    rw [quoteUnits, if_neg apart]
    exact .cons (piece_quoteUnit high) ih

theorem blank_nil : Blank [] := by
  intro c member
  cases member

mutual

theorem text_stringify : ∀ json : Json, json.Text (stringify json)
  | .null => by simp [Json.Text, stringify]
  | .boolean _ => by simp [Json.Text, stringify]
  | .number _ => by simp [Json.Text, stringify]
  | .text string => by
    rw [Json.Text, stringify]
    exact ⟨quoteUnits string, rfl, spells_quoteUnits string⟩
  | .array items => by
    rw [Json.Text, stringify]
    exact ⟨stringifyItems items, rfl, itemsText_stringify items⟩
  | .object members => by
    rw [Json.Text, stringify]
    exact ⟨stringifyMembers members, rfl, membersText_stringify members⟩

theorem itemsText_stringify : ∀ items : List Json, ItemsText items (stringifyItems items)
  | [] => by
    rw [ItemsText, stringifyItems]
    exact blank_nil
  | [item] => by
    rw [ItemsText, stringifyItems]
    exact ⟨[], stringify item, [], [], by simp, blank_nil, text_stringify item, blank_nil,
      .inl ⟨rfl, rfl⟩⟩
  | item :: next :: items => by
    rw [ItemsText, stringifyItems]
    · exact ⟨[], stringify item, [], _, by simp, blank_nil, text_stringify item, blank_nil,
        .inr ⟨by simp, _, rfl, itemsText_stringify (next :: items)⟩⟩
    · simp

theorem membersText_stringify : ∀ members : List (List Nat × Json),
    MembersText members (stringifyMembers members)
  | [] => by
    rw [MembersText, stringifyMembers]
    exact blank_nil
  | [(key, value)] => by
    rw [MembersText, stringifyMembers]
    exact ⟨[], quoteUnits key, [], [], stringify value, [], [], by simp, blank_nil,
      spells_quoteUnits key, blank_nil, blank_nil, text_stringify value, blank_nil,
      .inl ⟨rfl, rfl⟩⟩
  | (key, value) :: next :: members => by
    rw [MembersText, stringifyMembers]
    · exact ⟨[], quoteUnits key, [], [], stringify value, [], _, by simp, blank_nil,
        spells_quoteUnits key, blank_nil, blank_nil, text_stringify value, blank_nil,
        .inr ⟨by simp, _, rfl, membersText_stringify (next :: members)⟩⟩
    · simp

end

theorem document_stringify (json : Json) : json.Document (stringify json) :=
  ⟨[], stringify json, [], by simp, blank_nil, text_stringify json, blank_nil⟩

end Foundation.JsonUnits
