import Mathlib

/-! Canonical serialisation: the text every digest of a row is taken over. -/
namespace LedgerDesk.Agents

/-- A finite double. `-0` has no text of its own, so it is `integer 0`. -/
inductive JsNumber where
  | integer (value : Int)
  /-- `± 0.digits × 10 ^ point`: what is not an integer below `10 ^ 21`. -/
  | decimal (negative : Bool) (digits : Nat) (point : Int)
  deriving DecidableEq, Repr

inductive Json where
  | null
  | boolean (value : Bool)
  | number (value : JsNumber)
  | text (value : String)
  | array (items : List Json)
  | object (members : List (String × Json))
  deriving Repr

namespace Json

/-- The member of an object, if it is one and carries the key. -/
def member (json : Json) (key : String) : Option Json :=
  match json with
  | .object members => members.lookup key
  | _ => none

def isNull : Json → Bool
  | .null => true
  | _ => false

end Json

/-- UTF-16 code units, which is what `Array.prototype.sort` compares keys by. -/
def codeUnits (text : String) : List Nat :=
  text.toList.flatMap fun c =>
    let n := c.toNat
    if n < 0x10000 then [n]
    else [0xD800 + (n - 0x10000) / 0x400, 0xDC00 + (n - 0x10000) % 0x400]

/-- No scalar value is written with surrogates alone, so one code point is told from the next. -/
theorem codeUnits_injective : ∀ {s t : String}, codeUnits s = codeUnits t → s = t := by
  have told : ∀ (cs ds : List Char),
      (cs.flatMap fun c =>
        if c.toNat < 0x10000 then [c.toNat]
        else [0xD800 + (c.toNat - 0x10000) / 0x400, 0xDC00 + (c.toNat - 0x10000) % 0x400]) =
      (ds.flatMap fun c =>
        if c.toNat < 0x10000 then [c.toNat]
        else [0xD800 + (c.toNat - 0x10000) / 0x400, 0xDC00 + (c.toNat - 0x10000) % 0x400]) →
      cs = ds := by
    intro cs
    induction cs with
    | nil =>
      intro ds same
      cases ds with
      | nil => rfl
      | cons d ds =>
        simp only [List.flatMap_nil, List.flatMap_cons] at same
        split at same <;> simp at same
    | cons c cs ih =>
      intro ds same
      cases ds with
      | nil =>
        simp only [List.flatMap_nil, List.flatMap_cons] at same
        split at same <;> simp at same
      | cons d ds =>
        have valid_c : c.toNat < 0xD800 ∨ 0xDFFF < c.toNat ∧ c.toNat < 0x110000 := c.valid
        have valid_d : d.toNat < 0xD800 ∨ 0xDFFF < d.toNat ∧ d.toNat < 0x110000 := d.valid
        simp only [List.flatMap_cons] at same
        have both : c.toNat = d.toNat ∧ cs = ds := by
          split at same <;> split at same <;>
            simp only [List.cons_append, List.nil_append, List.cons.injEq] at same
          · exact ⟨same.1, ih ds same.2⟩
          · omega
          · omega
          · exact ⟨by omega, ih ds same.2.2⟩
        rw [Char.toNat_inj.mp both.1, both.2]
  intro s t same
  exact String.toList_inj.mp (told s.toList t.toList same)

def hexDigit (n : Nat) : Char :=
  if n < 10 then Char.ofNat (48 + n) else Char.ofNat (87 + n)

/-- `JSON.stringify` of one character of a string. -/
def quoteChar (c : Char) : List Char :=
  if c = '"' then ['\\', '"']
  else if c = '\\' then ['\\', '\\']
  else if c.toNat = 8 then ['\\', 'b']
  else if c.toNat = 9 then ['\\', 't']
  else if c.toNat = 10 then ['\\', 'n']
  else if c.toNat = 12 then ['\\', 'f']
  else if c.toNat = 13 then ['\\', 'r']
  else if c.toNat < 32 then
    ['\\', 'u', '0', '0', hexDigit (c.toNat / 16), hexDigit (c.toNat % 16)]
  else [c]

def quote (text : String) : String :=
  String.ofList ('"' :: text.toList.flatMap quoteChar ++ ['"'])

/-- `Number::toString` of a double whose shortest digits and point are known. -/
def decimalText (negative : Bool) (digits : Nat) (point : Int) : String :=
  let s := (toString digits).toList
  let k : Int := s.length
  let body : List Char :=
    if k ≤ point ∧ point ≤ 21 then s ++ List.replicate (point - k).toNat '0'
    else if 0 < point ∧ point ≤ 21 then s.take point.toNat ++ '.' :: s.drop point.toNat
    else if -6 < point ∧ point ≤ 0 then '0' :: '.' :: List.replicate (-point).toNat '0' ++ s
    else
      let e := point - 1
      let sign := if e < 0 then '-' else '+'
      let exponent := (toString e.natAbs).toList
      if k = 1 then s ++ 'e' :: sign :: exponent
      else s.take 1 ++ '.' :: s.drop 1 ++ 'e' :: sign :: exponent
  String.ofList (if negative then '-' :: body else body)

def numberText : JsNumber → String
  | .integer value => toString value
  | .decimal negative digits point => decimalText negative digits point

mutual

/-- Keys ascending by code unit, no whitespace, arrays in their own order. -/
def canonicalJson : Json → String
  | .null => "null"
  | .text value => quote value
  | .number value => numberText value
  | .boolean value => if value then "true" else "false"
  | .array items => "[" ++ ",".intercalate (canonicalItems items) ++ "]"
  | .object members =>
    let texts := (canonicalMembers members).insertionSort
      fun a b => codeUnits a.1 ≤ codeUnits b.1
    "\x7b" ++ ",".intercalate (texts.map fun m => quote m.1 ++ ":" ++ m.2) ++ "\x7d"

def canonicalItems : List Json → List String
  | [] => []
  | item :: items => canonicalJson item :: canonicalItems items

def canonicalMembers : List (String × Json) → List (String × String)
  | [] => []
  | (key, value) :: members => (key, canonicalJson value) :: canonicalMembers members

end

/-- PostgreSQL `->>`: a text as it stands, nothing for `null`, else the text of the value. -/
def Json.memberText (json : Json) (key : String) : Option String :=
  match json.member key with
  | none | some .null => none
  | some (.text value) => some value
  | some value => some (canonicalJson value)

mutual

/-- `JSON.stringify`: members in the order they were written. -/
def stringify : Json → String
  | .null => "null"
  | .text value => quote value
  | .number value => numberText value
  | .boolean value => if value then "true" else "false"
  | .array items => "[" ++ ",".intercalate (stringifyItems items) ++ "]"
  | .object members => "\x7b" ++ ",".intercalate (stringifyMembers members) ++ "\x7d"

def stringifyItems : List Json → List String
  | [] => []
  | item :: items => stringify item :: stringifyItems items

def stringifyMembers : List (String × Json) → List String
  | [] => []
  | (key, value) :: members => (quote key ++ ":" ++ stringify value) :: stringifyMembers members

end

def hex64Digits : List Char :=
  ['0', '1', '2', '3', '4', '5', '6', '7', '8', '9', 'a', 'b', 'c', 'd', 'e', 'f']

/-- `/^[a-f0-9]{64}$/`. -/
def isHex64 (value : String) : Bool :=
  value.toList.length == 64 && value.toList.all hex64Digits.contains

def microPerAud : Nat := 1000000

def padStart (width : Nat) (digits : List Char) : List Char :=
  List.replicate (width - digits.length) '0' ++ digits

/-- `numeric(12,6)` text of an amount in millionths of a dollar. -/
def formatAud (micro : Int) : String :=
  let sign := if micro < 0 then "-" else ""
  let whole := micro.natAbs / microPerAud
  let fraction := micro.natAbs % microPerAud
  sign ++ toString whole ++ "." ++ String.ofList (padStart 6 (toString fraction).toList)

section Digest

variable (sha256Hex : String → String)

/-- The digest of a value, taken over its canonical form. -/
def digestOf (value : Json) : String := sha256Hex (canonicalJson value)

end Digest

end LedgerDesk.Agents
