import LedgerDesk.Foundation.Checks
import LedgerDesk.Foundation.JsonUnits

/-!
# Reading JSON

A reader by recursive descent, with checks of its own on the depth of a value, on strings, on numbers
and on repeated names. It takes the JSON texts of the values that pass its checks, and no other text.
-/
namespace Foundation.JsonUnits

/-- What a reader asks of a text beyond the grammar. -/
structure Checks where
  depth : Nat → Bool
  string : List Nat → Bool
  number : List (List Nat) → List Nat → Bool
  distinct : Bool
  number_isNumber : ∀ path token, number path token = true → isNumber token = true

inductive ReadError where
  | depth
  | string
  | escape
  | unicode
  | key
  | duplicateKey
  | colon
  | object
  | array
  | number
  | trailing
  /-- The recursion has been cut off. -/
  | fuel
  deriving DecidableEq, Repr

/-! ### The tokens -/

def skip (text : List Nat) : List Nat := text.dropWhile isSpace

/-- What stands before the closing quote, a letter behind a backslash not looked at, and the rest. -/
def closeString : List Nat → Option (List Nat × List Nat)
  | [] => none
  | c :: text =>
    if c = 34 then some ([], text)
    else if c = 92 then
      match text with
      | [] => none
      | d :: text => (closeString text).map fun r => (c :: d :: r.1, r.2)
    else (closeString text).map fun r => (c :: r.1, r.2)

/-- The string spelled between the quotes, if one is. -/
def unescape : List Nat → Option (List Nat)
  | [] => some []
  | c :: text =>
    if c = 92 then
      match text with
      | [] => none
      | d :: text =>
        if d = 117 then
          match text with
          | p :: q :: r :: s :: text => do
            let n ← hexUnit p q r s
            let string ← unescape text
            return n :: string
          | _ => none
        else do
          let n ← escaped d
          let string ← unescape text
          return n :: string
    else if 32 ≤ c ∧ c ≠ 34 then (unescape text).map (c :: ·)
    else none

/-- `\s`. -/
def isWhite (c : Nat) : Bool :=
  (9 ≤ c && c ≤ 13) || c == 32 || c == 0xA0 || c == 0x1680 || (0x2000 ≤ c && c ≤ 0x200A) ||
    c == 0x2028 || c == 0x2029 || c == 0x202F || c == 0x205F || c == 0x3000 || c == 0xFEFF

/-- `[^,\]\x7d\s]`. -/
def inToken (c : Nat) : Bool := c != 44 && c != 93 && c != 125 && !isWhite c

/-- The decimal digits of an index. -/
def indexUnits (n : Nat) : List Nat := units (toString n)

section Reader

variable (H : Checks)

/-- A string, its opening quote already read. -/
def readString (text : List Nat) : Except ReadError (List Nat × List Nat) :=
  match closeString text with
  | none => .error .string
  | some (inner, rest) =>
    match unescape inner with
    | none => .error .escape
    | some string => if H.string string then .ok (string, rest) else .error .unicode

def readScalar (path : List (List Nat)) (text : List Nat) : Except ReadError (Json × List Nat) :=
  if units "true" <+: text then .ok (.boolean true, text.drop 4)
  else if units "false" <+: text then .ok (.boolean false, text.drop 5)
  else if units "null" <+: text then .ok (.null, text.drop 4)
  else
    let token := text.takeWhile inToken
    if fits : H.number path token = true then
      .ok (.number ⟨token, H.number_isNumber path token fits⟩, text.dropWhile inToken)
    else .error .number

mutual

def readValue : Nat → Nat → List (List Nat) → List Nat → Except ReadError (Json × List Nat)
  | 0, _, _, _ => .error .fuel
  | fuel + 1, depth, path, text =>
    if H.depth depth then
      match skip text with
      | [] => readScalar H path []
      | c :: rest =>
        if c = 34 then do
          let (string, rest) ← readString H rest
          return (.text string, rest)
        else if c = 123 then
          if (skip rest).head? = some 125 then .ok (.object [], (skip rest).tail)
          else do
            let (members, rest) ← readMembers fuel depth path [] rest
            return (.object members, rest)
        else if c = 91 then
          if (skip rest).head? = some 93 then .ok (.array [], (skip rest).tail)
          else do
            let (items, rest) ← readItems fuel depth path 0 rest
            return (.array items, rest)
        else readScalar H path (c :: rest)
    else .error .depth

/-- The members of an object from here to its closing brace, after those of these names. -/
def readMembers : Nat → Nat → List (List Nat) → List (List Nat) → List Nat →
    Except ReadError (List (List Nat × Json) × List Nat)
  | 0, _, _, _, _ => .error .fuel
  | fuel + 1, depth, path, keys, text =>
    match skip text with
    | [] => .error .key
    | c :: rest =>
      if c = 34 then do
        let (key, rest) ← readString H rest
        if H.distinct && keys.contains key then .error .duplicateKey
        else
          match skip rest with
          | [] => .error .colon
          | c :: rest =>
            if c = 58 then do
              let (value, rest) ← readValue fuel (depth + 1) (path ++ [key]) rest
              match skip rest with
              | [] => .error .object
              | c :: rest =>
                if c = 125 then return ([(key, value)], rest)
                else if c = 44 then do
                  let (members, rest) ← readMembers fuel depth path (keys ++ [key]) rest
                  return ((key, value) :: members, rest)
                else .error .object
            else .error .colon
      else .error .key

/-- The items of an array from here to its closing bracket. -/
def readItems : Nat → Nat → List (List Nat) → Nat → List Nat →
    Except ReadError (List Json × List Nat)
  | 0, _, _, _, _ => .error .fuel
  | fuel + 1, depth, path, index, text => do
    let (item, rest) ← readValue fuel (depth + 1) (path ++ [indexUnits index]) text
    match skip rest with
    | [] => .error .array
    | c :: rest =>
      if c = 93 then return ([item], rest)
      else if c = 44 then do
        let (items, rest) ← readItems fuel depth path (index + 1) rest
        return (item :: items, rest)
      else .error .array

end

/-- A value, with nothing but whitespace around it. -/
def read (text : List Nat) : Except ReadError Json := do
  let (json, rest) ← readValue H (2 * text.length + 1) 0 [] text
  if skip rest = [] then return json else .error .trailing

end Reader

/-! ### Whitespace -/

theorem skip_blank {before text : List Nat} (blank : Blank before) :
    skip (before ++ text) = skip text := by
  induction before with
  | nil => rfl
  | cons c before ih =>
    rw [skip, List.cons_append, List.dropWhile_cons_of_pos (blank c (List.mem_cons_self ..))]
    exact ih fun d member => blank d (List.mem_cons_of_mem _ member)

theorem skip_cons {c : Nat} {text : List Nat} (opens : isSpace c = false) :
    skip (c :: text) = c :: text := by
  rw [skip, List.dropWhile_cons_of_neg (by simp [opens])]

theorem skip_split (text : List Nat) : ∃ before, Blank before ∧ text = before ++ skip text := by
  refine ⟨text.takeWhile isSpace, ?_, (List.takeWhile_append_dropWhile ..).symm⟩
  intro c member
  exact List.mem_takeWhile_imp member

theorem skip_closed {text : List Nat} {c : Nat} (closed : (skip text).head? = some c) :
    ∃ gap, Blank gap ∧ text = gap ++ c :: (skip text).tail := by
  obtain ⟨gap, blank, same⟩ := skip_split text
  obtain ⟨after, opened⟩ := List.head?_eq_some_iff.mp closed
  refine ⟨gap, blank, ?_⟩
  rw [opened] at same ⊢
  exact same

theorem skip_eq_nil {text : List Nat} : skip text = [] ↔ Blank text := by
  rw [skip, List.dropWhile_eq_nil_iff, Blank]

/-! ### Strings -/

theorem escapeMark : '\\'.toNat = 92 := rfl

theorem quoteMark : '"'.toNat = 34 := rfl

theorem closeString_cons (c : Nat) (text : List Nat) :
    closeString (c :: text) =
      if c = 34 then some ([], text)
      else if c = 92 then
        match text with
        | [] => none
        | d :: text => (closeString text).map fun r => (c :: d :: r.1, r.2)
      else (closeString text).map fun r => (c :: r.1, r.2) := by
  rw [closeString.eq_def]

theorem closeString_plain {c : Nat} {text : List Nat} (notQuote : c ≠ 34) (notEscape : c ≠ 92) :
    closeString (c :: text) = (closeString text).map fun r => (c :: r.1, r.2) := by
  rw [closeString_cons, if_neg notQuote, if_neg notEscape]

theorem closeString_escape (d : Nat) (text : List Nat) :
    closeString (92 :: d :: text) = (closeString text).map fun r => (92 :: d :: r.1, r.2) := by
  rw [closeString_cons, if_neg (by decide), if_pos rfl]

theorem closeString_sound {text inner rest : List Nat}
    (closed : closeString text = some (inner, rest)) : text = inner ++ 34 :: rest := by
  fun_induction closeString text generalizing inner with
  | case1 => cases closed
  | case2 text =>
    cases closed
    rfl
  | case3 => cases closed
  | case4 d text notQuote ih =>
    obtain ⟨⟨inner', rest'⟩, closed', same⟩ := Option.map_eq_some_iff.mp closed
    cases same
    rw [ih closed']
    rfl
  | case5 c text notQuote notEscape ih =>
    obtain ⟨⟨inner', rest'⟩, closed', same⟩ := Option.map_eq_some_iff.mp closed
    cases same
    rw [ih closed']
    rfl

theorem hexDigit_ordinary {c n : Nat} (hex : hexDigit c = some n) : c ≠ 34 ∧ c ≠ 92 := by
  constructor
  · rintro rfl
    cases hex
  · rintro rfl
    cases hex

theorem hexUnit_ordinary {a b c d n : Nat} (hex : hexUnit a b c d = some n) :
    ∀ e ∈ [a, b, c, d], e ≠ 34 ∧ e ≠ 92 := by
  simp only [hexUnit, Option.bind_eq_bind, Option.bind_eq_some_iff] at hex
  obtain ⟨p, hp, q, hq, r, hr, s, hs, -⟩ := hex
  simp only [List.mem_cons, List.not_mem_nil, or_false]
  rintro e (rfl | rfl | rfl | rfl)
  · exact hexDigit_ordinary hp
  · exact hexDigit_ordinary hq
  · exact hexDigit_ordinary hr
  · exact hexDigit_ordinary hs

/-- The quote that closes a string is the first that no backslash escapes. -/
theorem closeString_spells {string inner : List Nat} (spells : Spells string inner)
    (rest : List Nat) : closeString (inner ++ 34 :: rest) = some (inner, rest) := by
  induction spells with
  | nil => rw [List.nil_append, closeString_cons, if_pos rfl]
  | @cons c cs piece more first _ ih =>
    cases first with
    | plain printed notQuote notEscape =>
      rw [List.singleton_append, List.cons_append, closeString_plain notQuote notEscape, ih]
      rfl
    | named known =>
      simp only [List.cons_append, List.nil_append, escapeMark]
      rw [closeString_escape, ih]
      rfl
    | @coded p q r s _ hex =>
      have ordinary := hexUnit_ordinary hex
      simp only [List.mem_cons, List.not_mem_nil, or_false, forall_eq_or_imp, forall_eq] at ordinary
      obtain ⟨hp, hq, hr, hs⟩ := ordinary
      simp only [List.cons_append, List.nil_append, escapeMark]
      rw [closeString_escape, closeString_plain hp.1 hp.2, closeString_plain hq.1 hq.2,
        closeString_plain hr.1 hr.2, closeString_plain hs.1 hs.2, ih]
      rfl

theorem unescape_cons (c : Nat) (text : List Nat) :
    unescape (c :: text) =
      if c = 92 then
        match text with
        | [] => none
        | d :: text =>
          if d = 117 then
            match text with
            | p :: q :: r :: s :: text => do
              let n ← hexUnit p q r s
              let string ← unescape text
              return n :: string
            | _ => none
          else do
            let n ← escaped d
            let string ← unescape text
            return n :: string
      else if 32 ≤ c ∧ c ≠ 34 then (unescape text).map (c :: ·)
      else none := by
  rw [unescape.eq_def]

theorem unescape_iff {inner string : List Nat} : unescape inner = some string ↔ Spells string inner := by
  constructor
  · intro read
    fun_induction unescape inner generalizing string with
    | case1 =>
      cases read
      exact .nil
    | case2 => cases read
    | case3 p q r s text ih =>
      simp only [Option.bind_eq_bind, Option.bind_eq_some_iff, Option.pure_def,
        Option.some.injEq] at read
      obtain ⟨n, hex, string', read, rfl⟩ := read
      exact .cons (.coded hex) (ih read)
    | case4 => cases read
    | case5 d text notCoded ih =>
      simp only [Option.bind_eq_bind, Option.bind_eq_some_iff, Option.pure_def,
        Option.some.injEq] at read
      obtain ⟨n, known, string', read, rfl⟩ := read
      exact .cons (.named known) (ih read)
    | case6 c text notEscape plain ih =>
      obtain ⟨string', read', rfl⟩ := Option.map_eq_some_iff.mp read
      exact .cons (.plain plain.1 plain.2 notEscape) (ih read')
    | case7 => cases read
  · intro spells
    induction spells with
    | nil => rfl
    | @cons c cs piece more first _ ih =>
      cases first with
      | plain printed notQuote notEscape =>
        rw [escapeMark] at notEscape
        rw [quoteMark] at notQuote
        rw [List.singleton_append, unescape_cons, if_neg notEscape, if_pos ⟨printed, notQuote⟩, ih]
        rfl
      | @named letter _ known =>
        have notCoded : letter ≠ 117 := by
          rintro rfl
          cases known
        rw [List.cons_append, unescape_cons, if_pos escapeMark]
        simp [notCoded, known, ih]
      | coded hex =>
        rw [List.cons_append, unescape_cons, if_pos escapeMark]
        simp [hex, ih]

section Strings

variable (H : Checks)

theorem readString_ok {text rest string : List Nat} :
    readString H text = .ok (string, rest) ↔
      ∃ inner, text = inner ++ 34 :: rest ∧ Spells string inner ∧ H.string string = true := by
  constructor
  · intro read
    rw [readString] at read
    split at read
    · cases read
    · next inner rest' closed =>
      split at read
      · cases read
      · next string' spelled =>
        split at read
        · next passes =>
          cases read
          exact ⟨inner, closeString_sound closed, unescape_iff.mp spelled, passes⟩
        · cases read
  · rintro ⟨inner, rfl, spells, passes⟩
    simp [readString, closeString_spells spells, unescape_iff.mpr spells, passes]

theorem readString_error {text : List Nat} : readString H text ≠ .error .fuel := by
  intro failed
  rw [readString] at failed
  split at failed
  · cases failed
  · split at failed
    · cases failed
    · split at failed <;> cases failed

end Strings

/-! ### Numerals -/

/-- What a numeral is written with. -/
def isNumeric (c : Nat) : Bool := isDigit c || c == 43 || c == 45 || c == 46 || c == 69 || c == 101

theorem isNumeric_of_isDigit {c : Nat} (digit : isDigit c = true) : isNumeric c = true := by
  simp [isNumeric, digit]

theorem numeric_of_isExponent {text : List Nat} (exponent : isExponent text = true) :
    ∀ c ∈ text, isNumeric c = true := by
  cases text with
  | nil => simp
  | cons e rest =>
    simp only [isExponent, Bool.and_eq_true, Bool.or_eq_true, beq_iff_eq] at exponent
    obtain ⟨⟨letter, -⟩, digits⟩ := exponent
    have opens : isNumeric e = true := by rcases letter with rfl | rfl <;> rfl
    cases rest with
    | nil => simp [opens]
    | cons sign more =>
      simp only at digits
      split at digits
      · next signed =>
        have mark : isNumeric sign = true := by rcases signed with rfl | rfl <;> rfl
        intro c member
        rcases List.mem_cons.mp member with rfl | member
        · exact opens
        rcases List.mem_cons.mp member with rfl | member
        · exact mark
        · exact isNumeric_of_isDigit (List.all_eq_true.mp digits c member)
      · intro c member
        rcases List.mem_cons.mp member with rfl | member
        · exact opens
        · exact isNumeric_of_isDigit (List.all_eq_true.mp digits c member)

theorem numeric_of_isFraction {text : List Nat} (fraction : isFraction text = true) :
    ∀ c ∈ text, isNumeric c = true := by
  cases text with
  | nil => simp
  | cons d rest =>
    rw [isFraction] at fraction
    split at fraction
    · next point =>
      obtain ⟨-, exponent⟩ := (Bool.and_eq_true ..).mp fraction
      intro c member
      rcases List.mem_cons.mp member with rfl | member
      · rw [point]
        rfl
      rw [← List.takeWhile_append_dropWhile (p := isDigit) (l := rest), List.mem_append] at member
      rcases member with digits | behind
      · exact isNumeric_of_isDigit (List.mem_takeWhile_imp digits)
      · exact numeric_of_isExponent exponent c behind
    · exact numeric_of_isExponent fraction

/-- A numeral starts with a digit or a minus, and every letter of it is one of a numeral. -/
theorem numeric_of_isNumber {lexeme : List Nat} (number : isNumber lexeme = true) :
    (∃ c rest, lexeme = c :: rest ∧ (isDigit c = true ∨ c = 45)) ∧ ∀ c ∈ lexeme, isNumeric c = true := by
  -- Behind the sign come the digits of an integer, and what may follow them.
  have unsigned : ∀ text, isInteger (text.takeWhile isDigit) = true →
      isFraction (text.dropWhile isDigit) = true →
      (∃ c rest, text = c :: rest ∧ isDigit c = true) ∧ ∀ c ∈ text, isNumeric c = true := by
    intro text integer fraction
    constructor
    · cases text with
      | nil => cases integer
      | cons c rest =>
        refine ⟨c, rest, rfl, ?_⟩
        by_contra other
        rw [List.takeWhile_cons_of_neg other] at integer
        cases integer
    · intro c member
      rw [← List.takeWhile_append_dropWhile (p := isDigit) (l := text), List.mem_append] at member
      rcases member with digits | behind
      · exact isNumeric_of_isDigit (List.mem_takeWhile_imp digits)
      · exact numeric_of_isFraction fraction c behind
  cases lexeme with
  | nil => cases number
  | cons sign rest =>
    simp only [isNumber, Bool.and_eq_true] at number
    split at number
    · next signed =>
      obtain ⟨-, letters⟩ := unsigned rest number.1 number.2
      refine ⟨⟨sign, rest, rfl, .inr signed⟩, ?_⟩
      intro c member
      rcases List.mem_cons.mp member with rfl | member
      · rw [signed]
        rfl
      · exact letters c member
    · obtain ⟨⟨c, more, same, digit⟩, letters⟩ := unsigned _ number.1 number.2
      exact ⟨⟨c, more, same, .inl digit⟩, letters⟩

theorem inToken_of_isNumeric {c : Nat} (numeric : isNumeric c = true) : inToken c = true := by
  simp only [isNumeric, isDigit, Bool.or_eq_true, Bool.and_eq_true, decide_eq_true_eq,
    beq_iff_eq] at numeric
  have range : 43 ≤ c ∧ c ≤ 101 ∧ c ≠ 44 ∧ c ≠ 93 := by omega
  simp only [inToken, isWhite, Bool.and_eq_true, bne_iff_ne, Bool.not_eq_true', Bool.or_eq_false_iff,
    Bool.and_eq_false_iff, decide_eq_false_iff_not, beq_eq_false_iff_ne]
  omega

/-! ### What a value opens with -/

theorem Json.Text.opens {json : Json} {text : List Nat} (written : json.Text text) :
    ∃ c rest, text = c :: rest ∧ isSpace c = false ∧ c ≠ 93 := by
  cases json with
  | null =>
    rw [Json.Text] at written
    exact ⟨110, _, written, rfl, by decide⟩
  | boolean value =>
    rw [Json.Text] at written
    cases value with
    | false => exact ⟨102, _, written, rfl, by decide⟩
    | true => exact ⟨116, _, written, rfl, by decide⟩
  | text string =>
    rw [Json.Text] at written
    obtain ⟨inner, rfl, -⟩ := written
    exact ⟨34, _, rfl, rfl, by decide⟩
  | number numeral =>
    rw [Json.Text] at written
    obtain ⟨⟨c, rest, same, opens⟩, -⟩ := numeric_of_isNumber numeral.valid
    refine ⟨c, rest, written.trans same, ?_, ?_⟩
    · simp only [isDigit, Bool.and_eq_true, decide_eq_true_eq] at opens
      simp only [isSpace, Bool.or_eq_false_iff, beq_eq_false_iff_ne]
      omega
    · simp only [isDigit, Bool.and_eq_true, decide_eq_true_eq] at opens
      omega
  | array items =>
    rw [Json.Text] at written
    obtain ⟨inner, rfl, -⟩ := written
    exact ⟨91, _, rfl, rfl, by decide⟩
  | object members =>
    rw [Json.Text] at written
    obtain ⟨inner, rfl, -⟩ := written
    exact ⟨123, _, rfl, rfl, by decide⟩

section Values

variable (H : Checks)

mutual

/-- The value passes the checks where it stands: at this depth, behind these keys and indices. -/
def Json.Fits (depth : Nat) (path : List (List Nat)) : Json → Prop
  | .text string => H.depth depth = true ∧ H.string string = true
  | .number numeral => H.depth depth = true ∧ H.number path numeral.lexeme = true
  | .array items => H.depth depth = true ∧ ItemsFit depth path 0 items
  | .object members => H.depth depth = true ∧ MembersFit depth path [] members
  | _ => H.depth depth = true

def ItemsFit (depth : Nat) (path : List (List Nat)) : Nat → List Json → Prop
  | _, [] => True
  | index, item :: items =>
    item.Fits (depth + 1) (path ++ [indexUnits index]) ∧ ItemsFit depth path (index + 1) items

def MembersFit (depth : Nat) (path : List (List Nat)) :
    List (List Nat) → List (List Nat × Json) → Prop
  | _, [] => True
  | keys, (key, value) :: members =>
    H.string key = true ∧ (H.distinct = true → key ∉ keys) ∧
      value.Fits (depth + 1) (path ++ [key]) ∧ MembersFit depth path (keys ++ [key]) members

end

variable {H}

theorem Json.Fits.depth {depth : Nat} {path : List (List Nat)} {json : Json}
    (fits : json.Fits H depth path) : H.depth depth = true := by
  cases json with
  | null | boolean => exact fits
  | text | number | array | object =>
    rw [Json.Fits] at fits
    exact fits.1

/-! ### What is read is written there -/

theorem readScalar_sound {path : List (List Nat)} {text rest : List Nat} {json : Json}
    (read : readScalar H path text = .ok (json, rest)) :
    (∃ body, text = body ++ rest ∧ json.Text body) ∧
      ∀ depth, H.depth depth = true → json.Fits H depth path := by
  simp only [readScalar] at read
  split at read
  · next told =>
    obtain ⟨rest', rfl⟩ := told
    cases read
    exact ⟨⟨_, rfl, rfl⟩, fun _ deep => deep⟩
  split at read
  · next told =>
    obtain ⟨rest', rfl⟩ := told
    cases read
    exact ⟨⟨_, rfl, rfl⟩, fun _ deep => deep⟩
  split at read
  · next told =>
    obtain ⟨rest', rfl⟩ := told
    cases read
    exact ⟨⟨_, rfl, rfl⟩, fun _ deep => deep⟩
  split at read
  · next fits =>
    cases read
    refine ⟨⟨_, (List.takeWhile_append_dropWhile ..).symm, rfl⟩, ?_⟩
    intro depth deep
    rw [Json.Fits]
    exact ⟨deep, fits⟩
  · cases read

def ValueSound (H : Checks) (fuel : Nat) : Prop :=
  ∀ {depth path text json rest}, readValue H fuel depth path text = .ok (json, rest) →
    (∃ before body, text = before ++ body ++ rest ∧ Blank before ∧ json.Text body) ∧
      json.Fits H depth path

def MembersSound (H : Checks) (fuel : Nat) : Prop :=
  ∀ {depth path keys text members rest},
    readMembers H fuel depth path keys text = .ok (members, rest) →
    (∃ inner, text = inner ++ 125 :: rest ∧ MembersText members inner) ∧ members ≠ [] ∧
      MembersFit H depth path keys members

def ItemsSound (H : Checks) (fuel : Nat) : Prop :=
  ∀ {depth path index text items rest}, readItems H fuel depth path index text = .ok (items, rest) →
    (∃ inner, text = inner ++ 93 :: rest ∧ ItemsText items inner) ∧ items ≠ [] ∧
      ItemsFit H depth path index items

theorem readValue_sound {fuel : Nat} (readsMembers : MembersSound H fuel)
    (readsItems : ItemsSound H fuel) : ValueSound H (fuel + 1) := by
  intro depth path text json rest read
  rw [readValue] at read
  split at read
  rotate_left
  · cases read
  next deep =>
  obtain ⟨before, blank, split_⟩ := skip_split text
  split at read
  · next none =>
    rw [none, List.append_nil] at split_
    obtain ⟨⟨body, same, written⟩, fits⟩ := readScalar_sound read
    obtain ⟨c, more, rfl, -⟩ := written.opens
    cases same
  next c behind opened =>
  rw [opened] at split_
  subst split_
  split at read
  · next quote =>
    obtain ⟨⟨string, rest'⟩, string_read, done⟩ := except_bind_eq_ok.mp read
    cases done
    obtain ⟨inner, rfl, spells, passes⟩ := (readString_ok H).mp string_read
    refine ⟨⟨before, quoted inner, ?_, blank, ?_⟩, ?_⟩
    · rw [quote, quoted]
      simp [quoteMark]
    · rw [Json.Text]
      exact ⟨inner, rfl, spells⟩
    · rw [Json.Fits]
      exact ⟨deep, passes⟩
  split at read
  · next brace =>
    split at read
    · next closed =>
      cases read
      obtain ⟨gap, blank', same⟩ := skip_closed closed
      refine ⟨⟨before, 123 :: gap ++ [125], ?_, blank, ?_⟩, ?_⟩
      · rw [brace]
        nth_rewrite 1 [same]
        simp
      · rw [Json.Text]
        exact ⟨gap, rfl, by rw [MembersText]; exact blank'⟩
      · rw [Json.Fits, MembersFit]
        exact ⟨deep, trivial⟩
    · obtain ⟨⟨members, rest'⟩, members_read, done⟩ := except_bind_eq_ok.mp read
      cases done
      obtain ⟨⟨inner, rfl, written⟩, -, fits⟩ := readsMembers members_read
      refine ⟨⟨before, 123 :: inner ++ [125], by simp [brace], blank, ?_⟩, ?_⟩
      · rw [Json.Text]
        exact ⟨inner, rfl, written⟩
      · rw [Json.Fits]
        exact ⟨deep, fits⟩
  split at read
  · next bracket =>
    split at read
    · next closed =>
      cases read
      obtain ⟨gap, blank', same⟩ := skip_closed closed
      refine ⟨⟨before, 91 :: gap ++ [93], ?_, blank, ?_⟩, ?_⟩
      · rw [bracket]
        nth_rewrite 1 [same]
        simp
      · rw [Json.Text]
        exact ⟨gap, rfl, by rw [ItemsText]; exact blank'⟩
      · rw [Json.Fits, ItemsFit]
        exact ⟨deep, trivial⟩
    · obtain ⟨⟨items, rest'⟩, items_read, done⟩ := except_bind_eq_ok.mp read
      cases done
      obtain ⟨⟨inner, rfl, written⟩, -, fits⟩ := readsItems items_read
      refine ⟨⟨before, 91 :: inner ++ [93], by simp [bracket], blank, ?_⟩, ?_⟩
      · rw [Json.Text]
        exact ⟨inner, rfl, written⟩
      · rw [Json.Fits]
        exact ⟨deep, fits⟩
  · obtain ⟨⟨body, same, written⟩, fits⟩ := readScalar_sound read
    exact ⟨⟨before, body, by rw [same, List.append_assoc], blank, written⟩, fits depth deep⟩

theorem readItems_sound {fuel : Nat} (readsValue : ValueSound H fuel)
    (readsItems : ItemsSound H fuel) : ItemsSound H (fuel + 1) := by
  intro depth path index text items rest read
  rw [readItems] at read
  obtain ⟨⟨item, behind⟩, item_read, goesOn⟩ := except_bind_eq_ok.mp read
  obtain ⟨⟨before, body, rfl, blank, written⟩, fits⟩ := readsValue item_read
  obtain ⟨after, blank', split_⟩ := skip_split behind
  simp only at goesOn
  split at goesOn
  · cases goesOn
  next c more opened =>
  rw [opened] at split_
  subst split_
  split at goesOn
  · next closed =>
    cases goesOn
    refine ⟨⟨before ++ body ++ after, by simp [closed], ?_⟩, by simp, ?_⟩
    · rw [ItemsText]
      exact ⟨before, body, after, [], by simp, blank, written, blank', .inl ⟨rfl, rfl⟩⟩
    · rw [ItemsFit, ItemsFit]
      exact ⟨fits, trivial⟩
  split at goesOn
  · next comma =>
    obtain ⟨⟨others, rest'⟩, others_read, done⟩ := except_bind_eq_ok.mp goesOn
    cases done
    obtain ⟨⟨inner, rfl, written'⟩, some_item, fits'⟩ := readsItems others_read
    refine ⟨⟨before ++ body ++ after ++ 44 :: inner, by simp [comma], ?_⟩, by simp, ?_⟩
    · rw [ItemsText]
      exact ⟨before, body, after, 44 :: inner, by simp, blank, written, blank',
        .inr ⟨some_item, inner, rfl, written'⟩⟩
    · rw [ItemsFit]
      exact ⟨fits, fits'⟩
  · cases goesOn

theorem readMembers_sound {fuel : Nat} (readsValue : ValueSound H fuel)
    (readsMembers : MembersSound H fuel) : MembersSound H (fuel + 1) := by
  intro depth path keys text members rest read
  obtain ⟨before, blank, split_⟩ := skip_split text
  rw [readMembers] at read
  split at read
  · cases read
  next c behind opened =>
  rw [opened] at split_
  subst split_
  split at read
  rotate_left
  · cases read
  next quote =>
  obtain ⟨⟨key, behind⟩, key_read, goesOn⟩ := except_bind_eq_ok.mp read
  obtain ⟨name, rfl, spells, passes⟩ := (readString_ok H).mp key_read
  simp only at goesOn
  split at goesOn
  · cases goesOn
  next fresh =>
  obtain ⟨gap, blank', split_⟩ := skip_split behind
  split at goesOn
  · cases goesOn
  next d behind opened' =>
  rw [opened'] at split_
  subst split_
  split at goesOn
  rotate_left
  · cases goesOn
  next colon =>
  obtain ⟨⟨value, behind⟩, value_read, closes⟩ := except_bind_eq_ok.mp goesOn
  obtain ⟨⟨gap', body, rfl, blank'', written⟩, fits⟩ := readsValue value_read
  obtain ⟨after, blankAfter, split_⟩ := skip_split behind
  simp only at closes
  split at closes
  · cases closes
  next e behind opened'' =>
  rw [opened''] at split_
  subst split_
  have distinct : H.distinct = true → key ∉ keys := by
    intro checked repeated
    exact fresh (by simp [checked, repeated])
  split at closes
  · next closed =>
    cases closes
    refine ⟨⟨before ++ quoted name ++ gap ++ 58 :: gap' ++ body ++ after, ?_, ?_⟩, by simp, ?_⟩
    · simp [quote, colon, closed, quoted, quoteMark]
    · rw [MembersText]
      exact ⟨before, name, gap, gap', body, after, [], by simp, blank, spells, blank', blank'',
        written, blankAfter, .inl ⟨rfl, rfl⟩⟩
    · rw [MembersFit, MembersFit]
      exact ⟨passes, distinct, fits, trivial⟩
  split at closes
  · next comma =>
    obtain ⟨⟨others, rest'⟩, others_read, done⟩ := except_bind_eq_ok.mp closes
    cases done
    obtain ⟨⟨inner, rfl, written'⟩, some_member, fits'⟩ := readsMembers others_read
    refine ⟨⟨before ++ quoted name ++ gap ++ 58 :: gap' ++ body ++ after ++ 44 :: inner, ?_, ?_⟩,
      by simp, ?_⟩
    · simp [quote, colon, comma, quoted, quoteMark]
    · rw [MembersText]
      exact ⟨before, name, gap, gap', body, after, 44 :: inner, by simp, blank, spells, blank',
        blank'', written, blankAfter, .inr ⟨some_member, inner, rfl, written'⟩⟩
    · rw [MembersFit]
      exact ⟨passes, distinct, fits, fits'⟩
  · cases closes

theorem reads_sound (fuel : Nat) :
    ValueSound H fuel ∧ MembersSound H fuel ∧ ItemsSound H fuel := by
  induction fuel with
  | zero =>
    refine ⟨?_, ?_, ?_⟩
    · intro depth path text json rest read
      simp [readValue] at read
    · intro depth path keys text members rest read
      simp [readMembers] at read
    · intro depth path index text items rest read
      simp [readItems] at read
  | succ fuel ih =>
    obtain ⟨value, members, items⟩ := ih
    exact ⟨readValue_sound members items, readMembers_sound value members,
      readItems_sound value items⟩

/-! ### What is written there is read -/

/-- A numeral ends here. -/
def Stops (rest : List Nat) : Prop := ∀ c more, rest = c :: more → inToken c = false

theorem stops_nil : Stops [] := by
  intro c more none
  cases none

theorem stops_cons {c : Nat} {rest : List Nat} (stop : inToken c = false) : Stops (c :: rest) := by
  intro d more same
  obtain ⟨rfl, -⟩ := List.cons.inj same
  exact stop

theorem Stops.behind {after rest : List Nat} (blank : Blank after) (stops : Stops rest) :
    Stops (after ++ rest) := by
  cases after with
  | nil => exact stops
  | cons c after =>
    refine stops_cons ?_
    have space := blank c (List.mem_cons_self ..)
    simp only [isSpace, Bool.or_eq_true, beq_iff_eq] at space
    rcases space with ((rfl | rfl) | rfl) | rfl <;> rfl

theorem readScalar_literal (path : List (List Nat)) (rest : List Nat) :
    readScalar H path (units "null" ++ rest) = .ok (.null, rest) ∧
      ∀ value, readScalar H path (units (if value then "true" else "false") ++ rest) =
        .ok (.boolean value, rest) := by
  refine ⟨rfl, fun value => ?_⟩
  cases value <;> rfl

/-- A token ends where what follows it stops. -/
theorem token_split {token rest : List Nat} (within_ : ∀ c ∈ token, inToken c = true)
    (stops : Stops rest) :
    (token ++ rest).takeWhile inToken = token ∧ (token ++ rest).dropWhile inToken = rest := by
  rw [List.takeWhile_append_of_pos within_, List.dropWhile_append_of_pos within_]
  cases rest with
  | nil => simp
  | cons d rest =>
    have stop : ¬inToken d = true := by simp [stops d rest rfl]
    rw [List.takeWhile_cons_of_neg stop, List.dropWhile_cons_of_neg stop, List.append_nil]
    exact ⟨rfl, rfl⟩

theorem readScalar_number {path : List (List Nat)} {rest : List Nat} {numeral : Numeral}
    (stops : Stops rest) (fits : H.number path numeral.lexeme = true) :
    readScalar H path (numeral.lexeme ++ rest) = .ok (.number numeral, rest) := by
  obtain ⟨⟨c, more, opened, opens⟩, letters⟩ := numeric_of_isNumber numeral.valid
  have head : c ≠ 116 ∧ c ≠ 102 ∧ c ≠ 110 := by
    simp only [isDigit, Bool.and_eq_true, decide_eq_true_eq] at opens
    omega
  obtain ⟨token, left⟩ := token_split (fun d member => inToken_of_isNumeric (letters d member)) stops
  have other : ∀ d word, d ≠ c → ¬(d :: word) <+: numeral.lexeme ++ rest := by
    rintro d word differs ⟨t, same⟩
    rw [opened] at same
    exact differs (List.cons.inj same).1
  have not_true : ¬units "true" <+: numeral.lexeme ++ rest := other 116 _ head.1.symm
  have not_false : ¬units "false" <+: numeral.lexeme ++ rest := other 102 _ head.2.1.symm
  have not_null : ¬units "null" <+: numeral.lexeme ++ rest := other 110 _ head.2.2.symm
  simp only [readScalar, if_neg not_true, if_neg not_false, if_neg not_null, token, left, dif_pos fits]

def ValueComplete (H : Checks) (fuel : Nat) : Prop :=
  ∀ {depth path before body json} (rest), Blank before → json.Text body → json.Fits H depth path →
    Stops rest → 2 * body.length ≤ fuel →
    readValue H fuel depth path (before ++ body ++ rest) = .ok (json, rest)

def MembersComplete (H : Checks) (fuel : Nat) : Prop :=
  ∀ {depth path keys inner members} (rest), MembersText members inner → members ≠ [] →
    MembersFit H depth path keys members → 2 * inner.length + 1 ≤ fuel →
    readMembers H fuel depth path keys (inner ++ 125 :: rest) = .ok (members, rest)

def ItemsComplete (H : Checks) (fuel : Nat) : Prop :=
  ∀ {depth path index inner items} (rest), ItemsText items inner → items ≠ [] →
    ItemsFit H depth path index items → 2 * inner.length + 1 ≤ fuel →
    readItems H fuel depth path index (inner ++ 93 :: rest) = .ok (items, rest)

theorem readItems_complete {fuel : Nat} (readsValue : ValueComplete H fuel)
    (readsItems : ItemsComplete H fuel) : ItemsComplete H (fuel + 1) := by
  intro depth path index inner items rest written some_item fits enough
  cases items with
  | nil => exact absurd rfl some_item
  | cons item items =>
    rw [ItemsText] at written
    rw [ItemsFit] at fits
    obtain ⟨before, body, after, more, rfl, blank, body_written, blank', later⟩ := written
    simp only [List.length_append] at enough
    have stops : Stops (after ++ (more ++ 93 :: rest)) := by
      refine Stops.behind blank' ?_
      rcases later with ⟨-, rfl⟩ | ⟨-, others, rfl, -⟩
      · exact stops_cons rfl
      · exact stops_cons rfl
    have item_read := readsValue (after ++ (more ++ 93 :: rest)) blank body_written fits.1 stops
      (by omega)
    have regroup : before ++ body ++ after ++ more ++ 93 :: rest =
        before ++ body ++ (after ++ (more ++ 93 :: rest)) := by simp
    rw [readItems, regroup, item_read]
    simp only [bind, Except.bind, skip_blank blank']
    rcases later with ⟨rfl, rfl⟩ | ⟨some_item', others, rfl, written'⟩
    · rw [List.nil_append, skip_cons rfl]
      simp [pure, Except.pure]
    · have comma : isSpace ','.toNat = false := rfl
      rw [List.cons_append, skip_cons comma]
      simp only [List.length_cons] at enough
      have others_read := readsItems rest written' some_item' fits.2 (by omega)
      have not_closed : ¬ ','.toNat = 93 := by decide
      have is_comma : ','.toNat = 44 := rfl
      simp only [if_neg not_closed, if_pos is_comma, others_read]
      rfl

theorem readMembers_complete {fuel : Nat} (readsValue : ValueComplete H fuel)
    (readsMembers : MembersComplete H fuel) : MembersComplete H (fuel + 1) := by
  intro depth path keys inner members rest written some_member fits enough
  match members, some_member with
  | [], some_member => exact absurd rfl some_member
  | (key, value) :: members, _ =>
    rw [MembersText] at written
    rw [MembersFit] at fits
    obtain ⟨before, name, gap, gap', body, after, more, rfl, blank, spells, blankGap, blankGap',
      body_written, blank', later⟩ := written
    obtain ⟨passes, distinct, value_fits, fits'⟩ := fits
    simp only [List.length_append, List.length_cons] at enough
    have stops : Stops (after ++ (more ++ 125 :: rest)) := by
      refine Stops.behind blank' ?_
      rcases later with ⟨-, rfl⟩ | ⟨-, others, rfl, -⟩
      · exact stops_cons rfl
      · exact stops_cons rfl
    have value_read := readsValue (after ++ (more ++ 125 :: rest)) blankGap' body_written
      value_fits stops (by omega)
    have key_read : readString H (name ++ 34 :: (gap ++ 58 :: (gap' ++ body ++
        (after ++ (more ++ 125 :: rest))))) = .ok (key, gap ++ 58 :: (gap' ++ body ++
        (after ++ (more ++ 125 :: rest)))) := (readString_ok H).mpr ⟨name, rfl, spells, passes⟩
    have fresh : (H.distinct && keys.contains key) = false := by
      cases checked : H.distinct with
      | false => rfl
      | true => simpa using distinct checked
    have regroup : before ++ quoted name ++ gap ++ ':'.toNat :: gap' ++ body ++ after ++ more ++
        125 :: rest = before ++ 34 :: (name ++ 34 :: (gap ++ 58 :: (gap' ++ body ++
        (after ++ (more ++ 125 :: rest))))) := by
      simp [quoted, quoteMark]
    rw [readMembers, regroup, skip_blank blank, skip_cons rfl]
    simp only [if_true, key_read, bind, Except.bind, fresh, Bool.false_eq_true, if_false,
      skip_blank blankGap]
    rw [skip_cons rfl]
    simp only [if_true, value_read, skip_blank blank']
    rcases later with ⟨rfl, rfl⟩ | ⟨some_member', others, rfl, written'⟩
    · rw [List.nil_append, skip_cons rfl]
      simp [pure, Except.pure]
    · have comma : isSpace ','.toNat = false := rfl
      rw [List.cons_append, skip_cons comma]
      simp only [List.length_cons] at enough
      have others_read := readsMembers rest written' some_member' fits' (by omega)
      have not_closed : ¬ ','.toNat = 125 := by decide
      have is_comma : ','.toNat = 44 := rfl
      simp only [if_neg not_closed, if_pos is_comma, others_read]
      rfl

/-- What an object opens with is its first key's quote. -/
theorem membersText_opens {members : List (List Nat × Json)} {inner rest : List Nat}
    (written : MembersText members inner) (some_member : members ≠ []) :
    (skip (inner ++ rest)).head? = some 34 := by
  match members, some_member with
  | [], some_member => exact absurd rfl some_member
  | (key, value) :: members, _ =>
    rw [MembersText] at written
    obtain ⟨before, name, gap, gap', body, after, more, rfl, blank, -⟩ := written
    have regroup : before ++ quoted name ++ gap ++ ':'.toNat :: gap' ++ body ++ after ++ more ++ rest =
        before ++ 34 :: (name ++ 34 :: (gap ++ 58 :: (gap' ++ body ++ (after ++ (more ++ rest))))) := by
      simp [quoted, quoteMark]
    rw [regroup, skip_blank blank, skip_cons rfl]
    rfl

theorem itemsText_opens {items : List Json} {inner rest : List Nat} (written : ItemsText items inner)
    (some_item : items ≠ []) : (skip (inner ++ rest)).head? ≠ some 93 := by
  cases items with
  | nil => exact absurd rfl some_item
  | cons item items =>
    rw [ItemsText] at written
    obtain ⟨before, body, after, more, rfl, blank, body_written, -⟩ := written
    obtain ⟨c, others, rfl, opens, differs⟩ := body_written.opens
    have regroup : before ++ c :: others ++ after ++ more ++ rest =
        before ++ c :: (others ++ (after ++ (more ++ rest))) := by simp
    rw [regroup, skip_blank blank, skip_cons opens]
    simpa using differs

theorem readValue_scalar {fuel depth c : Nat} {path : List (List Nat)} {text rest : List Nat}
    (deep : H.depth depth = true) (opened : skip text = c :: rest)
    (scalar : c ≠ 34 ∧ c ≠ 123 ∧ c ≠ 91) :
    readValue H (fuel + 1) depth path text = readScalar H path (c :: rest) := by
  simp only [readValue, if_pos deep, opened, if_neg scalar.1, if_neg scalar.2.1, if_neg scalar.2.2]

theorem readValue_complete {fuel : Nat} (readsMembers : MembersComplete H fuel)
    (readsItems : ItemsComplete H fuel) : ValueComplete H (fuel + 1) := by
  intro depth path before body json rest blank written fits stops enough
  have deep := fits.depth
  have skipped : skip (before ++ body ++ rest) = skip (body ++ rest) := by
    rw [List.append_assoc, skip_blank blank]
  cases json with
  | null =>
    rw [Json.Text] at written
    subst written
    rw [readValue_scalar (c := 110) deep (skipped.trans (skip_cons rfl)) (by decide)]
    exact (readScalar_literal path rest).1
  | boolean value =>
    rw [Json.Text] at written
    subst written
    cases value with
    | false =>
      rw [readValue_scalar (c := 102) deep (skipped.trans (skip_cons rfl)) (by decide)]
      exact (readScalar_literal path rest).2 false
    | true =>
      rw [readValue_scalar (c := 116) deep (skipped.trans (skip_cons rfl)) (by decide)]
      exact (readScalar_literal path rest).2 true
  | number numeral =>
    have number_written := written
    obtain ⟨c, more, opened, opens, -⟩ := written.opens
    rw [Json.Text] at number_written
    subst number_written
    rw [Json.Fits] at fits
    have scalar : c ≠ 34 ∧ c ≠ 123 ∧ c ≠ 91 := by
      obtain ⟨⟨d, others, same, digit⟩, -⟩ := numeric_of_isNumber numeral.valid
      rw [opened] at same
      obtain ⟨rfl, -⟩ := List.cons.inj same
      simp only [isDigit, Bool.and_eq_true, decide_eq_true_eq] at digit
      omega
    have first : skip (before ++ numeral.lexeme ++ rest) = c :: (more ++ rest) := by
      rw [skipped, opened]
      exact skip_cons opens
    rw [readValue_scalar deep first scalar, ← List.cons_append, ← opened]
    exact readScalar_number stops fits.2
  | text string =>
    rw [Json.Text] at written
    rw [Json.Fits] at fits
    obtain ⟨inner, rfl, spells⟩ := written
    have read : readString H (inner ++ 34 :: rest) = .ok (string, rest) :=
      (readString_ok H).mpr ⟨inner, rfl, spells, fits.2⟩
    have first : skip (before ++ quoted inner ++ rest) = 34 :: (inner ++ 34 :: rest) := by
      rw [skipped, quoted, List.cons_append, List.cons_append, List.append_assoc]
      exact skip_cons rfl
    simp only [readValue, if_pos deep, first, if_true, read]
    rfl
  | array items =>
    rw [Json.Text] at written
    rw [Json.Fits] at fits
    obtain ⟨inner, rfl, items_written⟩ := written
    have first : skip (before ++ ('['.toNat :: inner ++ [']'.toNat]) ++ rest) =
        91 :: (inner ++ 93 :: rest) := by
      rw [skipped, List.cons_append, List.cons_append, List.append_assoc]
      exact skip_cons rfl
    simp only [List.length_append, List.length_cons] at enough
    have not_quote : ¬(91 : Nat) = 34 := by decide
    have not_brace : ¬(91 : Nat) = 123 := by decide
    simp only [readValue, if_pos deep, first, if_neg not_quote, if_neg not_brace, if_true]
    cases items with
    | nil =>
      rw [ItemsText] at items_written
      rw [skip_blank items_written, skip_cons rfl]
      rfl
    | cons item items =>
      have some_item : item :: items ≠ [] := by simp
      have read := readsItems rest items_written some_item fits.2 (by omega)
      rw [if_neg (itemsText_opens items_written some_item), read]
      rfl
  | object members =>
    rw [Json.Text] at written
    rw [Json.Fits] at fits
    obtain ⟨inner, rfl, members_written⟩ := written
    have first : skip (before ++ ('\x7b'.toNat :: inner ++ ['\x7d'.toNat]) ++ rest) =
        123 :: (inner ++ 125 :: rest) := by
      rw [skipped, List.cons_append, List.cons_append, List.append_assoc]
      exact skip_cons rfl
    simp only [List.length_append, List.length_cons] at enough
    have not_quote : ¬(123 : Nat) = 34 := by decide
    simp only [readValue, if_pos deep, first, if_neg not_quote, if_true]
    cases members with
    | nil =>
      rw [MembersText] at members_written
      rw [skip_blank members_written, skip_cons rfl]
      rfl
    | cons member members =>
      have some_member : member :: members ≠ [] := by simp
      have read := readsMembers rest members_written some_member fits.2 (by omega)
      have not_closed : ¬(skip (inner ++ 125 :: rest)).head? = some 125 := by
        rw [membersText_opens members_written some_member]
        decide
      rw [if_neg not_closed, read]
      rfl

theorem reads_complete (fuel : Nat) :
    ValueComplete H fuel ∧ MembersComplete H fuel ∧ ItemsComplete H fuel := by
  induction fuel with
  | zero =>
    refine ⟨?_, ?_, ?_⟩
    · intro depth path before body json rest blank written fits stops enough
      obtain ⟨c, more, rfl, -⟩ := written.opens
      simp at enough
    · intro depth path keys inner members rest written some_member fits enough
      omega
    · intro depth path index inner items rest written some_item fits enough
      omega
  | succ fuel ih =>
    obtain ⟨value, members, items⟩ := ih
    exact ⟨readValue_complete members items, readMembers_complete value members,
      readItems_complete value items⟩

/-! ### The recursion ends -/

theorem readScalar_error {path : List (List Nat)} {text : List Nat} :
    readScalar H path text ≠ .error .fuel := by
  intro failed
  simp only [readScalar] at failed
  split at failed
  · cases failed
  split at failed
  · cases failed
  split at failed
  · cases failed
  split at failed <;> cases failed

theorem except_bind_error {ε α β : Type} {x : Except ε α} {f : α → Except ε β} {e : ε}
    (failed : (x >>= f) = .error e) : x = .error e ∨ ∃ a, x = .ok a ∧ f a = .error e := by
  cases x with
  | error refusal =>
    cases failed
    exact .inl rfl
  | ok a => exact .inr ⟨a, rfl, failed⟩

def ValueEnds (H : Checks) (fuel : Nat) : Prop :=
  ∀ {depth path text}, 2 * text.length + 1 ≤ fuel → readValue H fuel depth path text ≠ .error .fuel

def MembersEnd (H : Checks) (fuel : Nat) : Prop :=
  ∀ {depth path keys text}, 2 * text.length + 2 ≤ fuel →
    readMembers H fuel depth path keys text ≠ .error .fuel

def ItemsEnd (H : Checks) (fuel : Nat) : Prop :=
  ∀ {depth path index text}, 2 * text.length + 2 ≤ fuel →
    readItems H fuel depth path index text ≠ .error .fuel

theorem skip_length (text : List Nat) : (skip text).length ≤ text.length :=
  (List.dropWhile_sublist _).length_le

theorem readValue_shorter {fuel depth : Nat} {path : List (List Nat)} {text rest : List Nat}
    {json : Json} (read : readValue H fuel depth path text = .ok (json, rest)) :
    rest.length < text.length := by
  obtain ⟨⟨before, body, rfl, -, written⟩, -⟩ := (reads_sound fuel).1 read
  obtain ⟨c, more, rfl, -⟩ := written.opens
  simp only [List.length_append, List.length_cons]
  omega

theorem readValue_ends {fuel : Nat} (membersEnd : MembersEnd H fuel) (itemsEnd : ItemsEnd H fuel) :
    ValueEnds H (fuel + 1) := by
  intro depth path text enough failed
  rw [readValue] at failed
  split at failed
  rotate_left
  · cases failed
  split at failed
  · exact readScalar_error failed
  next c behind opened =>
  have shorter := skip_length text
  rw [opened, List.length_cons] at shorter
  split at failed
  · rcases except_bind_error failed with failed | ⟨_, -, failed⟩
    · exact readString_error H failed
    · cases failed
  split at failed
  · split at failed
    · cases failed
    · rcases except_bind_error failed with failed | ⟨_, -, failed⟩
      · exact membersEnd (by omega) failed
      · cases failed
  split at failed
  · split at failed
    · cases failed
    · rcases except_bind_error failed with failed | ⟨_, -, failed⟩
      · exact itemsEnd (by omega) failed
      · cases failed
  · exact readScalar_error failed

theorem readItems_ends {fuel : Nat} (valueEnds : ValueEnds H fuel) (itemsEnd : ItemsEnd H fuel) :
    ItemsEnd H (fuel + 1) := by
  intro depth path index text enough failed
  rw [readItems] at failed
  rcases except_bind_error failed with failed | ⟨⟨item, behind⟩, item_read, goesOn⟩
  · exact valueEnds (by omega) failed
  have shorter := readValue_shorter item_read
  have skipped := skip_length behind
  simp only at goesOn
  split at goesOn
  · cases goesOn
  next c more opened =>
  rw [opened, List.length_cons] at skipped
  split at goesOn
  · cases goesOn
  split at goesOn
  · rcases except_bind_error goesOn with failed | ⟨_, -, failed⟩
    · exact itemsEnd (by omega) failed
    · cases failed
  · cases goesOn

theorem readMembers_ends {fuel : Nat} (valueEnds : ValueEnds H fuel)
    (membersEnd : MembersEnd H fuel) : MembersEnd H (fuel + 1) := by
  intro depth path keys text enough failed
  have skipped := skip_length text
  rw [readMembers] at failed
  split at failed
  · cases failed
  next c behind opened =>
  rw [opened, List.length_cons] at skipped
  split at failed
  rotate_left
  · cases failed
  rcases except_bind_error failed with failed | ⟨⟨key, behind'⟩, key_read, goesOn⟩
  · exact readString_error H failed
  obtain ⟨name, rfl, -⟩ := (readString_ok H).mp key_read
  simp only [List.length_append, List.length_cons] at skipped
  have skipped' := skip_length behind'
  simp only at goesOn
  split at goesOn
  · cases goesOn
  split at goesOn
  · cases goesOn
  next d more opened' =>
  rw [opened', List.length_cons] at skipped'
  split at goesOn
  rotate_left
  · cases goesOn
  rcases except_bind_error goesOn with failed | ⟨⟨value, behind''⟩, value_read, closes⟩
  · exact valueEnds (by omega) failed
  have shorter := readValue_shorter value_read
  have skipped'' := skip_length behind''
  simp only at closes
  split at closes
  · cases closes
  next e more opened'' =>
  rw [opened'', List.length_cons] at skipped''
  split at closes
  · cases closes
  split at closes
  · rcases except_bind_error closes with failed | ⟨_, -, failed⟩
    · exact membersEnd (by omega) failed
    · cases failed
  · cases closes

theorem reads_end (fuel : Nat) : ValueEnds H fuel ∧ MembersEnd H fuel ∧ ItemsEnd H fuel := by
  induction fuel with
  | zero =>
    refine ⟨?_, ?_, ?_⟩
    · intro depth path text enough
      omega
    · intro depth path keys text enough
      omega
    · intro depth path index text enough
      omega
  | succ fuel ih =>
    obtain ⟨value, members, items⟩ := ih
    exact ⟨readValue_ends members items, readMembers_ends value members, readItems_ends value items⟩

/-! ### The whole text -/

/-- The texts taken are those of the values that pass the checks. -/
theorem read_ok {text : List Nat} {json : Json} :
    read H text = .ok json ↔ json.Document text ∧ json.Fits H 0 [] := by
  constructor
  · intro took
    obtain ⟨⟨json', rest⟩, value_read, ends⟩ := except_bind_eq_ok.mp took
    simp only at ends
    split at ends
    · next blank =>
      cases ends
      obtain ⟨⟨before, body, rfl, blank', written⟩, fits⟩ := (reads_sound _).1 value_read
      exact ⟨⟨before, body, rest, rfl, blank', written, skip_eq_nil.mp blank⟩, fits⟩
    · cases ends
  · rintro ⟨⟨before, body, after, rfl, blank, written, blank'⟩, fits⟩
    have stops : Stops after := by
      have none := Stops.behind blank' stops_nil
      rwa [List.append_nil] at none
    have value_read := (reads_complete (2 * (before ++ body ++ after).length + 1)).1 after blank written
      fits stops (by simp only [List.length_append]; omega)
    rw [read, value_read]
    simp [bind, Except.bind, skip_eq_nil.mpr blank', pure, Except.pure]

theorem read_ends (text : List Nat) : read H text ≠ .error .fuel := by
  intro failed
  rcases except_bind_error failed with failed | ⟨⟨json, rest⟩, -, ends⟩
  · exact (reads_end _).1 (Nat.le_refl _) failed
  · simp only at ends
    split at ends <;> cases ends

end Values

/-! ### One text, one value -/

/-- No check but the grammar. -/
def grammar : Checks where
  depth _ := true
  string _ := true
  number _ token := isNumber token
  distinct := false
  number_isNumber _ _ number := number

mutual

theorem Json.fits_grammar : ∀ (json : Json) (depth : Nat) (path : List (List Nat)),
    json.Fits grammar depth path
  | .null, _, _ => rfl
  | .boolean _, _, _ => rfl
  | .text _, _, _ => by
    rw [Json.Fits]
    exact ⟨rfl, rfl⟩
  | .number numeral, _, _ => by
    rw [Json.Fits]
    exact ⟨rfl, numeral.valid⟩
  | .array items, depth, path => by
    rw [Json.Fits]
    exact ⟨rfl, itemsFit_grammar items depth path 0⟩
  | .object members, depth, path => by
    rw [Json.Fits]
    exact ⟨rfl, membersFit_grammar members depth path []⟩

theorem itemsFit_grammar : ∀ (items : List Json) (depth : Nat) (path : List (List Nat)) (index : Nat),
    ItemsFit grammar depth path index items
  | [], _, _, _ => by
    rw [ItemsFit]
    trivial
  | item :: items, depth, path, index => by
    rw [ItemsFit]
    exact ⟨item.fits_grammar _ _, itemsFit_grammar items depth path _⟩

theorem membersFit_grammar : ∀ (members : List (List Nat × Json)) (depth : Nat)
    (path keys : List (List Nat)), MembersFit grammar depth path keys members
  | [], _, _, _ => by
    rw [MembersFit]
    trivial
  | (key, value) :: members, depth, path, keys => by
    rw [MembersFit]
    refine ⟨rfl, ?_, value.fits_grammar _ _, membersFit_grammar members depth path _⟩
    intro never
    cases never

end

theorem read_grammar {text : List Nat} {json : Json} :
    read grammar text = .ok json ↔ json.Document text := by
  rw [read_ok, and_iff_left (json.fits_grammar 0 [])]

theorem Json.Document.unique {v w : Json} {text : List Nat} (first : v.Document text)
    (second : w.Document text) : v = w := by
  have same := (read_grammar.mpr first).symm.trans (read_grammar.mpr second)
  injection same

/-- What is read back of what was written. -/
theorem stringify_injective {v w : Json} (same : stringify v = stringify w) : v = w := by
  have document := document_stringify w
  rw [← same] at document
  exact (document_stringify v).unique document

end Foundation.JsonUnits
