import LedgerDesk.Contracts.Strict

/-!
# The wire decoder of the access contracts

A text that JSON takes is scanned a second time, for what JSON lets through: repeated keys, numbers that
are no plain integers, strings with lone halves, and depth. The scanner reads no further than the text,
and passes the values that meet its checks and no others.
-/
namespace LedgerDesk.Contracts

open Foundation Foundation.JsonUnits Foundation.Surrogates

inductive AccessFailure where
  | PAYLOAD_LIMIT
  | INVALID_JSON
  | JSON_DEPTH_LIMIT
  | DUPLICATE_KEY
  | INVALID_INTEGER
  /-- A loop that looks for a closing quote where there is none. -/
  | runaway
  /-- The recursion has been cut off. -/
  | fuel
  deriving DecidableEq, Repr

/-- A failure the code reports. -/
def AccessFailure.Thrown (failure : AccessFailure) : Prop := failure ≠ .runaway ∧ failure ≠ .fuel

instance (failure : AccessFailure) : Decidable failure.Thrown :=
  inferInstanceAs (Decidable (failure ≠ .runaway ∧ failure ≠ .fuel))

/-- `string`, from behind the quote it starts at. -/
def scanString (text : List Nat) : Except AccessFailure (List Nat × List Nat) :=
  match closeString text with
  | none => .error .runaway
  | some (inner, rest) =>
    match unescape inner with
    | none => .error .INVALID_JSON
    | some value => if hasLone (removePairs value) then .error .INVALID_JSON else .ok (value, rest)

section Scan

variable {ν : Type} (N : Numbers ν)

local instance unitsLawful : LawfulBEq (List Nat) := inferInstance

def scanScalar (text : List Nat) : Except AccessFailure (List Nat) :=
  let scalar := text.takeWhile inToken
  if scalar ∈ [units "true", units "false", units "null"] ∨
      isInteger scalar = true ∧ (N.natural (N.ofText scalar)).isSome = true then
    .ok (text.dropWhile inToken)
  else .error .INVALID_INTEGER

mutual

def scan : Nat → Nat → List Nat → Except AccessFailure (List Nat)
  | 0, _, _ => .error .fuel
  | fuel + 1, depth, text =>
    if depth > 12 then .error .JSON_DEPTH_LIMIT
    else
      match skip text with
      | [] => scanScalar N []
      | c :: rest =>
        if c = 34 then (scanString rest).map Prod.snd
        else if c = 123 then
          if (skip rest).head? = some 125 then .ok (skip rest).tail
          else scanMembers fuel depth [] rest
        else if c = 91 then
          if (skip rest).head? = some 93 then .ok (skip rest).tail else scanItems fuel depth rest
        else scanScalar N (c :: rest)

/-- One round of the loop over the members; what a key and a value are followed by is not looked at. -/
def scanMembers : Nat → Nat → List (List Nat) → List Nat → Except AccessFailure (List Nat)
  | 0, _, _, _ => .error .fuel
  | fuel + 1, depth, keys, text => do
    let (key, rest) ← scanString (skip text).tail
    if keys.contains key then .error .DUPLICATE_KEY
    else do
      let rest ← scan fuel (depth + 1) (skip rest).tail
      match skip rest with
      | [] => return []
      | c :: rest =>
        if c = 125 then return rest
        else if rest = [] then return [] else scanMembers fuel depth (keys ++ [key]) rest

def scanItems : Nat → Nat → List Nat → Except AccessFailure (List Nat)
  | 0, _, _ => .error .fuel
  | fuel + 1, depth, text => do
    let rest ← scan fuel (depth + 1) text
    match skip rest with
    | [] => return []
    | c :: rest =>
      if c = 93 then return rest
      else if rest = [] then return [] else scanItems fuel depth rest

end

def decodeAccess (bytes : ByteArray) : Except AccessFailure (Value ν) :=
  if bytes.size > 16384 then .error .PAYLOAD_LIMIT
  else
    match decodeUtf8 bytes with
    | none => .error .INVALID_JSON
    | some source =>
      match read grammar source with
      | .error _ => .error .INVALID_JSON
      | .ok parsed =>
        match scan N (2 * source.length + 1) 0 source with
        | .error failure => .error failure
        | .ok _ => .ok (parsed.value N)

/-- What the scanner asks of the values of a text. -/
def accessChecks : Checks where
  depth depth := depth ≤ 12
  string := scalarText
  number _ token := isInteger token && (N.natural (N.ofText token)).isSome
  distinct := true
  number_isNumber := by
    intro path token fits
    exact isNumber_of_isInteger ((Bool.and_eq_true ..).mp fits).1

/-! ### The scanner on a text of JSON -/

theorem scanString_spelled {inner string : List Nat} (spells : Spells string inner) (rest : List Nat) :
    scanString (inner ++ 34 :: rest) =
      if scalarText string then .ok (string, rest) else .error .INVALID_JSON := by
  rw [scanString, closeString_spells spells]
  simp only [unescape_iff.mpr spells, scalarText, Bool.not_eq_true']
  split <;> simp_all

/-- Passed to the end of what was to be scanned, or reported, as the checks say. -/
def Verdict (fits : Prop) (rest : List Nat) (outcome : Except AccessFailure (List Nat)) : Prop :=
  fits ∧ outcome = .ok rest ∨ ¬fits ∧ ∃ failure, outcome = .error failure ∧ failure.Thrown

def ValueScanned (fuel : Nat) : Prop :=
  ∀ {depth path before body} {json : Json} (rest), Blank before → json.Text body → Stops rest →
    2 * body.length ≤ fuel →
    Verdict (json.Fits (accessChecks N) depth path) rest (scan N fuel depth (before ++ body ++ rest))

def MembersScanned (fuel : Nat) : Prop :=
  ∀ {depth path keys inner members} (rest), MembersText members inner → members ≠ [] →
    2 * inner.length + 1 ≤ fuel → Verdict (MembersFit (accessChecks N) depth path keys members) rest
      (scanMembers N fuel depth keys (inner ++ 125 :: rest))

def ItemsScanned (fuel : Nat) : Prop :=
  ∀ {depth path index inner items} (rest), ItemsText items inner → items ≠ [] →
    2 * inner.length + 1 ≤ fuel → Verdict (ItemsFit (accessChecks N) depth path index items) rest
      (scanItems N fuel depth (inner ++ 93 :: rest))

variable {N}

/-- A second part after a first one that has been scanned. -/
theorem Verdict.bind {fits others : Prop} {rest rest' : List Nat}
    {outcome : Except AccessFailure (List Nat)}
    {continue_ : List Nat → Except AccessFailure (List Nat)} (first : Verdict fits rest outcome)
    (second : Verdict others rest' (continue_ rest)) :
    Verdict (fits ∧ others) rest' (outcome >>= continue_) := by
  rcases first with ⟨passed, rfl⟩ | ⟨failed, failure, rfl, thrown⟩
  · rcases second with ⟨passed', done⟩ | ⟨failed', failure, done, thrown⟩
    · exact .inl ⟨⟨passed, passed'⟩, done⟩
    · exact .inr ⟨fun both => failed' both.2, failure, done, thrown⟩
  · exact .inr ⟨fun both => failed both.1, failure, rfl, thrown⟩

theorem Verdict.congr {fits fits' : Prop} {rest : List Nat}
    {outcome outcome' : Except AccessFailure (List Nat)} (verdict : Verdict fits rest outcome)
    (same : fits' ↔ fits) (same' : outcome' = outcome) : Verdict fits' rest outcome' := by
  rwa [same', propext same]

theorem scanItems_verdict {fuel : Nat} (scansValue : ValueScanned N fuel)
    (scansItems : ItemsScanned N fuel) : ItemsScanned N (fuel + 1) := by
  intro depth path index inner items rest written some_item enough
  cases items with
  | nil => exact absurd rfl some_item
  | cons item items =>
    rw [ItemsText] at written
    obtain ⟨before, body, after, more, rfl, blank, body_written, blank', later⟩ := written
    simp only [List.length_append] at enough
    have stops : Stops (after ++ (more ++ 93 :: rest)) := by
      refine Stops.behind blank' ?_
      rcases later with ⟨-, rfl⟩ | ⟨-, others, rfl, -⟩
      · exact stops_cons rfl
      · exact stops_cons rfl
    have item_scanned : Verdict (item.Fits (accessChecks N) (depth + 1) (path ++ [indexUnits index]))
        _ _ := scansValue (after ++ (more ++ 93 :: rest)) blank body_written stops (by omega)
    have regroup : before ++ body ++ after ++ more ++ 93 :: rest =
        before ++ body ++ (after ++ (more ++ 93 :: rest)) := by simp
    rw [scanItems, regroup, ItemsFit]
    refine item_scanned.bind ?_
    rw [skip_blank blank']
    rcases later with ⟨rfl, rfl⟩ | ⟨some_item', others, rfl, written'⟩
    · rw [List.nil_append, skip_cons rfl, ItemsFit]
      exact .inl ⟨trivial, rfl⟩
    · have comma : isSpace ','.toNat = false := rfl
      rw [List.cons_append, skip_cons comma]
      simp only [List.length_cons] at enough
      have not_closed : ¬ ','.toNat = 93 := by decide
      have goes_on : ¬others ++ 93 :: rest = [] := by simp
      simp only [if_neg not_closed, if_neg goes_on]
      exact scansItems rest written' some_item' (by omega)

theorem scanMembers_verdict {fuel : Nat} (scansValue : ValueScanned N fuel)
    (scansMembers : MembersScanned N fuel) : MembersScanned N (fuel + 1) := by
  intro depth path keys inner members rest written some_member enough
  match members, some_member with
  | [], some_member => exact absurd rfl some_member
  | (key, value) :: members, _ =>
    rw [MembersText] at written
    obtain ⟨before, name, gap, gap', body, after, more, rfl, blank, spells, blankGap, blankGap',
      body_written, blank', later⟩ := written
    simp only [List.length_append, List.length_cons] at enough
    have stops : Stops (after ++ (more ++ 125 :: rest)) := by
      refine Stops.behind blank' ?_
      rcases later with ⟨-, rfl⟩ | ⟨-, others, rfl, -⟩
      · exact stops_cons rfl
      · exact stops_cons rfl
    have value_scanned : Verdict (value.Fits (accessChecks N) (depth + 1) (path ++ [key])) _ _ :=
      scansValue (after ++ (more ++ 125 :: rest)) blankGap' body_written stops (by omega)
    have regroup : before ++ quoted name ++ gap ++ ':'.toNat :: gap' ++ body ++ after ++ more ++
        125 :: rest = before ++ 34 :: (name ++ 34 :: (gap ++ 58 :: (gap' ++ body ++
        (after ++ (more ++ 125 :: rest))))) := by
      simp [quoted, quoteMark]
    rw [scanMembers, regroup, skip_blank blank, skip_cons rfl, List.tail_cons,
      scanString_spelled spells, MembersFit]
    -- A key is tested before its value is reached, and so is its repetition.
    by_cases passes : scalarText key = true
    rotate_left
    · refine .inr ⟨fun fits => passes fits.1, .INVALID_JSON, ?_, by decide⟩
      rw [if_neg passes]
      rfl
    rw [if_pos passes]
    by_cases fresh : key ∈ keys
    · refine .inr ⟨fun fits => fits.2.1 rfl fresh, .DUPLICATE_KEY, ?_, by decide⟩
      simp [bind, Except.bind, fresh]
    have goes_on : ¬keys.contains key = true := by simpa using fresh
    simp only [bind, Except.bind, if_neg goes_on, skip_blank blankGap]
    rw [skip_cons rfl, List.tail_cons]
    have rest_scanned : Verdict (MembersFit (accessChecks N) depth path (keys ++ [key]) members) rest
        (match skip (after ++ (more ++ 125 :: rest)) with
        | [] => return []
        | c :: rest =>
          if c = 125 then return rest
          else if rest = [] then return [] else scanMembers N fuel depth (keys ++ [key]) rest) := by
      rw [skip_blank blank']
      rcases later with ⟨rfl, rfl⟩ | ⟨some_member', others, rfl, written'⟩
      · rw [List.nil_append, skip_cons rfl, MembersFit]
        exact .inl ⟨trivial, rfl⟩
      · have comma : isSpace ','.toNat = false := rfl
        rw [List.cons_append, skip_cons comma]
        simp only [List.length_cons] at enough
        have not_closed : ¬ ','.toNat = 125 := by decide
        have others_left : ¬others ++ 125 :: rest = [] := by simp
        simp only [if_neg not_closed, if_neg others_left]
        exact scansMembers rest written' some_member' (by omega)
    refine (value_scanned.bind rest_scanned).congr ?_ rfl
    constructor
    · rintro ⟨-, -, value_fits, others⟩
      exact ⟨value_fits, others⟩
    · rintro ⟨value_fits, others⟩
      exact ⟨passes, fun _ => fresh, value_fits, others⟩

theorem scanScalar_literal (word : List Nat) {rest : List Nat}
    (literal : word ∈ [units "true", units "false", units "null"]) (stops : Stops rest) :
    scanScalar N (word ++ rest) = .ok rest := by
  have within_ : ∀ c ∈ word, inToken c = true := by
    simp only [List.mem_cons, List.not_mem_nil, or_false] at literal
    rcases literal with rfl | rfl | rfl <;> decide
  obtain ⟨token, left⟩ := token_split within_ stops
  simp only [scanScalar, token, left, if_pos (Or.inl literal)]

theorem scanScalar_number {rest : List Nat} {numeral : Numeral} (stops : Stops rest) :
    scanScalar N (numeral.lexeme ++ rest) =
      if isInteger numeral.lexeme = true ∧ (N.natural (N.ofText numeral.lexeme)).isSome = true then
        .ok rest
      else .error .INVALID_INTEGER := by
  obtain ⟨⟨c, more, opened, opens⟩, letters⟩ := numeric_of_isNumber numeral.valid
  obtain ⟨token, left⟩ := token_split (fun d member => inToken_of_isNumeric (letters d member)) stops
  have word : numeral.lexeme ∉ [units "true", units "false", units "null"] := by
    rw [opened]
    simp only [isDigit, Bool.and_eq_true, decide_eq_true_eq] at opens
    simp only [List.mem_cons, List.not_mem_nil, or_false, not_or]
    refine ⟨fun same => ?_, fun same => ?_, fun same => ?_⟩
    all_goals
      obtain ⟨rfl, -⟩ := List.cons.inj same
      revert opens
      decide
  simp only [scanScalar, token, left, word, false_or]

theorem scan_opened {fuel depth c : Nat} {text rest : List Nat} (deep : ¬depth > 12)
    (opened : skip text = c :: rest) : scan N (fuel + 1) depth text =
      if c = 34 then (scanString rest).map Prod.snd
      else if c = 123 then
        if (skip rest).head? = some 125 then .ok (skip rest).tail
        else scanMembers N fuel depth [] rest
      else if c = 91 then
        if (skip rest).head? = some 93 then .ok (skip rest).tail else scanItems N fuel depth rest
      else scanScalar N (c :: rest) := by
  simp only [scan, if_neg deep, opened]

theorem scan_scalar {fuel depth c : Nat} {text rest : List Nat} (deep : ¬depth > 12)
    (opened : skip text = c :: rest) (scalar : c ≠ 34 ∧ c ≠ 123 ∧ c ≠ 91) :
    scan N (fuel + 1) depth text = scanScalar N (c :: rest) := by
  rw [scan_opened deep opened, if_neg scalar.1, if_neg scalar.2.1, if_neg scalar.2.2]

theorem fits_deep {depth : Nat} {path : List (List Nat)} {json : Json} (deep : depth > 12) :
    ¬json.Fits (accessChecks N) depth path := by
  intro fits
  have shallow := fits.depth
  simp only [accessChecks, decide_eq_true_eq] at shallow
  omega

theorem scan_verdict {fuel : Nat} (scansMembers : MembersScanned N fuel)
    (scansItems : ItemsScanned N fuel) : ValueScanned N (fuel + 1) := by
  intro depth path before body json rest blank written stops enough
  by_cases deep : depth > 12
  · refine .inr ⟨fits_deep deep, .JSON_DEPTH_LIMIT, ?_, by decide⟩
    rw [scan, if_pos deep]
  have shallow : (accessChecks N).depth depth = true := by simpa [accessChecks] using deep
  have skipped : skip (before ++ body ++ rest) = skip (body ++ rest) := by
    rw [List.append_assoc, skip_blank blank]
  cases json with
  | null =>
    rw [Json.Text] at written
    subst written
    rw [scan_scalar (c := 110) deep (skipped.trans (skip_cons rfl)) (by decide)]
    exact .inl ⟨shallow, scanScalar_literal (units "null") (by simp) stops⟩
  | boolean value =>
    rw [Json.Text] at written
    subst written
    cases value with
    | false =>
      rw [scan_scalar (c := 102) deep (skipped.trans (skip_cons rfl)) (by decide)]
      exact .inl ⟨shallow, scanScalar_literal (units "false") (by simp) stops⟩
    | true =>
      rw [scan_scalar (c := 116) deep (skipped.trans (skip_cons rfl)) (by decide)]
      exact .inl ⟨shallow, scanScalar_literal (units "true") (by simp) stops⟩
  | number numeral =>
    have number_written := written
    obtain ⟨c, more, opened, opens, -⟩ := written.opens
    rw [Json.Text] at number_written
    subst number_written
    have scalar : c ≠ 34 ∧ c ≠ 123 ∧ c ≠ 91 := by
      obtain ⟨⟨d, others, same, digit⟩, -⟩ := numeric_of_isNumber numeral.valid
      rw [opened] at same
      obtain ⟨rfl, -⟩ := List.cons.inj same
      simp only [isDigit, Bool.and_eq_true, decide_eq_true_eq] at digit
      omega
    have first : skip (before ++ numeral.lexeme ++ rest) = c :: (more ++ rest) := by
      rw [skipped, opened]
      exact skip_cons opens
    rw [scan_scalar deep first scalar, ← List.cons_append, ← opened, scanScalar_number stops, Json.Fits]
    have same : (accessChecks N).number path numeral.lexeme = true ↔
        isInteger numeral.lexeme = true ∧ (N.natural (N.ofText numeral.lexeme)).isSome = true := by
      simp [accessChecks]
    rw [same]
    split
    · next fits => exact .inl ⟨⟨shallow, fits⟩, rfl⟩
    · next other => exact .inr ⟨fun fits => other fits.2, _, rfl, by decide⟩
  | text string =>
    rw [Json.Text] at written
    obtain ⟨inner, rfl, spells⟩ := written
    have first : skip (before ++ quoted inner ++ rest) = 34 :: (inner ++ 34 :: rest) := by
      rw [skipped, quoted, List.cons_append, List.cons_append, List.append_assoc]
      exact skip_cons rfl
    rw [scan_opened deep first, if_pos rfl, scanString_spelled spells, Json.Fits]
    by_cases passes : scalarText string = true
    · rw [if_pos passes]
      exact .inl ⟨⟨shallow, passes⟩, rfl⟩
    · rw [if_neg passes]
      exact .inr ⟨fun fits => passes fits.2, _, rfl, by decide⟩
  | array items =>
    rw [Json.Text] at written
    obtain ⟨inner, rfl, items_written⟩ := written
    have first : skip (before ++ ('['.toNat :: inner ++ [']'.toNat]) ++ rest) =
        91 :: (inner ++ 93 :: rest) := by
      rw [skipped, List.cons_append, List.cons_append, List.append_assoc]
      exact skip_cons rfl
    simp only [List.length_append, List.length_cons] at enough
    rw [scan_opened deep first, if_neg (by decide), if_neg (by decide), if_pos rfl, Json.Fits]
    cases items with
    | nil =>
      rw [ItemsText] at items_written
      rw [skip_blank items_written, skip_cons rfl, ItemsFit]
      exact .inl ⟨⟨shallow, trivial⟩, rfl⟩
    | cons item items =>
      have some_item : item :: items ≠ [] := by simp
      have items_scanned : Verdict (ItemsFit (accessChecks N) depth path 0 (item :: items)) _ _ :=
        scansItems rest items_written some_item (by omega)
      rw [if_neg (itemsText_opens items_written some_item)]
      exact items_scanned.congr (and_iff_right shallow) rfl
  | object members =>
    rw [Json.Text] at written
    obtain ⟨inner, rfl, members_written⟩ := written
    have first : skip (before ++ ('\x7b'.toNat :: inner ++ ['\x7d'.toNat]) ++ rest) =
        123 :: (inner ++ 125 :: rest) := by
      rw [skipped, List.cons_append, List.cons_append, List.append_assoc]
      exact skip_cons rfl
    simp only [List.length_append, List.length_cons] at enough
    rw [scan_opened deep first, if_neg (by decide), if_pos rfl, Json.Fits]
    cases members with
    | nil =>
      rw [MembersText] at members_written
      rw [skip_blank members_written, skip_cons rfl, MembersFit]
      exact .inl ⟨⟨shallow, trivial⟩, rfl⟩
    | cons member members =>
      have some_member : member :: members ≠ [] := by simp
      have members_scanned : Verdict (MembersFit (accessChecks N) depth path [] (member :: members))
          _ _ := scansMembers rest members_written some_member (by omega)
      have not_closed : ¬(skip (inner ++ 125 :: rest)).head? = some 125 := by
        rw [membersText_opens members_written some_member]
        decide
      rw [if_neg not_closed]
      exact members_scanned.congr (and_iff_right shallow) rfl

theorem scans (fuel : Nat) :
    ValueScanned N fuel ∧ MembersScanned N fuel ∧ ItemsScanned N fuel := by
  induction fuel with
  | zero =>
    refine ⟨?_, ?_, ?_⟩
    · intro depth path before body json rest blank written stops enough
      obtain ⟨c, more, rfl, -⟩ := written.opens
      simp at enough
    · intro depth path keys inner members rest written some_member enough
      omega
    · intro depth path index inner items rest written some_item enough
      omega
  | succ fuel ih =>
    obtain ⟨value, members, items⟩ := ih
    exact ⟨scan_verdict members items, scanMembers_verdict value members,
      scanItems_verdict value items⟩

/-- On a text of JSON the scanner stops at its end, and at nothing but the checks. -/
theorem scan_document {json : Json} {text : List Nat} (document : json.Document text) :
    ∃ rest, Verdict (json.Fits (accessChecks N) 0 []) rest (scan N (2 * text.length + 1) 0 text) := by
  obtain ⟨before, body, after, rfl, blank, written, blank'⟩ := document
  have stops : Stops after := by
    have none := Stops.behind blank' stops_nil
    rwa [List.append_nil] at none
  refine ⟨after, (scans _).1 after blank written stops ?_⟩
  simp only [List.length_append]
  omega

/-! ### What is taken -/

variable (N)

/-- Bytes of the bounded subset: no string with a lone half. -/
def AccessText (bytes : ByteArray) : Prop :=
  ∃ json, Encodes bytes 16384 json ∧
    ∀ place ∈ json.places 0 [], InGrammar N 12 (fun _ => false) WellFormed place

/-- Bytes of the subset but for strings with lone halves that only whole pairs keep apart. -/
def SpoiledAccessText (bytes : ByteArray) : Prop :=
  ∃ json, Encodes bytes 16384 json ∧
    (∀ place ∈ json.places 0 [], InGrammar N 12 (fun _ => false) (fun s => WellFormed s ∨ Parted s) place) ∧
    ∃ place ∈ json.places 0 [], ∃ string ∈ place.strings, Parted string

theorem passes_access (place : Place) : place.Passes (accessChecks N) ↔
    InGrammar N 12 (fun _ => false) (fun s => WellFormed s ∨ Parted s) place := by
  obtain ⟨containers, path, json⟩ := place
  cases json with
  | null => simp [Place.Passes, InGrammar, Place.strings, accessChecks]
  | boolean => simp [Place.Passes, InGrammar, Place.strings, accessChecks]
  | array => simp [Place.Passes, InGrammar, Place.strings, accessChecks]
  | text string => simp [Place.Passes, InGrammar, Place.strings, accessChecks, scalarText_iff]
  | number numeral =>
    have same : (accessChecks N).number path numeral.lexeme = true ↔ PlainInteger numeral.lexeme :=
      number_strict N (fun _ => false) path numeral
    simp only [Place.Passes, InGrammar, Place.strings, same]
    simp [accessChecks]
  | object members =>
    simp [Place.Passes, InGrammar, Place.strings, accessChecks, scalarText_iff]

theorem decodeAccess_ok {bytes : ByteArray} {v : Value ν} : decodeAccess N bytes = .ok v ↔
    ∃ json, Encodes bytes 16384 json ∧ (∀ place ∈ json.places 0 [],
      InGrammar N 12 (fun _ => false) (fun s => WellFormed s ∨ Parted s) place) ∧
      v = json.value N := by
  have fits : ∀ json : Json, json.Fits (accessChecks N) 0 [] ↔ ∀ place ∈ json.places 0 [],
      InGrammar N 12 (fun _ => false) (fun s => WellFormed s ∨ Parted s) place := by
    intro json
    rw [json.fits_iff]
    exact forall₂_congr fun place _ => passes_access N place
  constructor
  · intro decoded
    rw [decodeAccess] at decoded
    split at decoded
    · cases decoded
    next within_ =>
    split at decoded
    · cases decoded
    next source utf8 =>
    split at decoded
    · cases decoded
    next parsed taken =>
    have document := read_grammar.mp taken
    split at decoded
    · cases decoded
    · next rest' passed =>
      cases decoded
      obtain ⟨rest, ⟨passes, -⟩ | ⟨-, failure, failed, -⟩⟩ := scan_document (N := N) document
      · exact ⟨parsed, ⟨by omega, by decide, source, utf8, document⟩, (fits parsed).mp passes, rfl⟩
      · rw [passed] at failed
        cases failed
  · rintro ⟨json, ⟨within_, -, source, utf8, document⟩, places, rfl⟩
    obtain ⟨rest, ⟨-, passed⟩ | ⟨refused, -⟩⟩ := scan_document (N := N) document
    · rw [decodeAccess, if_neg (by omega), utf8]
      simp only [read_grammar.mpr document, passed]
    · exact absurd ((fits json).mpr places) refused

theorem access_iff_subset (bytes : ByteArray) :
    ((∃ v, decodeAccess N bytes = .ok v) ↔ AccessText N bytes) ↔ ¬SpoiledAccessText N bytes := by
  constructor
  · rintro exact_ ⟨json, encodes, places, place, member, string, among, parted⟩
    obtain ⟨json', encodes', places'⟩ :=
      exact_.mp ⟨_, (decodeAccess_ok N).mpr ⟨json, encodes, places, rfl⟩⟩
    obtain rfl := encodes.unique encodes'
    exact not_wellFormed_of_parted parted ((places' place member).2.1 string among)
  · intro whole
    constructor
    · rintro ⟨v, decoded⟩
      obtain ⟨json, encodes, places, -⟩ := (decodeAccess_ok N).mp decoded
      refine ⟨json, encodes, fun place member => ?_⟩
      obtain ⟨shallow, strings, rest⟩ := places place member
      refine ⟨shallow, fun string among => (strings string among).resolve_right fun parted => ?_, rest⟩
      exact whole ⟨json, encodes, places, place, member, string, among, parted⟩
    · rintro ⟨json, encodes, places⟩
      refine ⟨_, (decodeAccess_ok N).mpr ⟨json, encodes, fun place member => ?_, rfl⟩⟩
      obtain ⟨shallow, strings, rest⟩ := places place member
      exact ⟨shallow, fun string among => .inl (strings string among), rest⟩

/-- The scanner is only run on what JSON takes, and there it comes to an end. -/
theorem decodeAccess_ends (bytes : ByteArray) {failure : AccessFailure}
    (failed : decodeAccess N bytes = .error failure) : failure.Thrown := by
  rw [decodeAccess] at failed
  split at failed
  · cases failed
    decide
  split at failed
  · cases failed
    decide
  split at failed
  · cases failed
    decide
  next parsed taken =>
  split at failed
  · next failure' refused =>
    cases failed
    obtain ⟨rest, ⟨-, passed⟩ | ⟨-, failure'', failed, thrown⟩⟩ :=
      scan_document (N := N) (read_grammar.mp taken)
    · rw [refused] at passed
      cases passed
    · rw [refused] at failed
      cases failed
      exact thrown
  · cases failed

theorem decodeAccess_canonical {v : Value ν} {text : List Nat} (written : canonicalUnits N v = some text)
    (inUnits : InUnits v) (names : v.OneOfAName) (low : v.height ≤ 12)
    (within_ : (encodeUtf8 text).size ≤ 16384) :
    decodeAccess N (encodeUtf8 text) = .ok (sorted v) := by
  have keeps := keeps_canonicalUnits inUnits written
  rw [canonicalUnits_eq] at written
  obtain ⟨json, json_written, rfl⟩ := Option.map_eq_some_iff.mp written
  refine (decodeAccess_ok N).mpr ⟨json, ⟨by omega, by decide, _, (survives_iff keeps.1).mpr keeps.2,
    document_stringify json⟩, ?_, (value_canonicalJson N json_written).symm⟩
  intro place member
  obtain ⟨shallow, strings, rest⟩ := taken_canonical N 12 (fun _ => false) json_written names 0 []
    (by omega) place member
  exact ⟨shallow, fun string among => (scalarText_iff string).mp (strings string among), rest⟩

/-- The decoder takes the bounded subset and nothing else, except bytes that a string with parted halves
spoils. Its scanner comes to an end on every text that JSON takes, and every canonical text within the
bounds reads as its value. -/
theorem decodeAccess_exact (bytes : ByteArray) :
    (((∃ v, decodeAccess N bytes = .ok v) ↔ AccessText N bytes) ↔ ¬SpoiledAccessText N bytes) ∧
    (∀ (json : Json) (text : List Nat), json.Document text → ∀ failure,
      scan N (2 * text.length + 1) 0 text = .error failure → failure.Thrown) ∧
    ∀ (v : Value ν) (text : List Nat), canonicalUnits N v = some text → InUnits v → v.OneOfAName →
      v.height ≤ 12 → (encodeUtf8 text).size ≤ 16384 →
      decodeAccess N (encodeUtf8 text) = .ok (sorted v) := by
  refine ⟨access_iff_subset N bytes, ?_, ?_⟩
  · intro json text document failure failed
    obtain ⟨rest, ⟨-, passed⟩ | ⟨-, failure', refused, thrown⟩⟩ := scan_document (N := N) document
    · rw [passed] at failed
      cases failed
    · rw [refused] at failed
      cases failed
      exact thrown
  · intro v text written inUnits names low within_
    exact decodeAccess_canonical N written inUnits names low within_

end Scan

/-- An object with its keys out of order comes back in order. -/
theorem decodeAccess_exact_object :
    decodeAccess Numbers.safe (encodeUtf8 (units "\x7b\"a\":7,\"b\":[null]\x7d")) =
      .ok (.object [([97], .number (some 7)), ([98], .array [.null])]) := by
  have exact_ := decodeAccess_exact Numbers.safe (encodeUtf8 [])
  have names : (.object [([98], .array [.null]), ([97], .number (some 7))] :
      Value (Option (Fin (maxSafe + 1)))).OneOfAName := by
    simp [Value.OneOfAName, OneOfANameMembers, OneOfANameItems]
  exact exact_.2.2 (.object [([98], .array [.null]), ([97], .number (some 7))])
    (units "\x7b\"a\":7,\"b\":[null]\x7d") rfl (by decide) names (by decide) (by decide)

/-- The wire decoder takes a string of a lone half, a whole pair and another lone half. -/
theorem decodeAccess_takes_parted :
    ¬((∃ v, decodeAccess Numbers.safe (encodeUtf8 partedText) = .ok v) ↔
      AccessText Numbers.safe (encodeUtf8 partedText)) := by
  obtain ⟨document, parted⟩ := document_partedText
  have keeps : Keeps partedText := keeps_ascii (by decide)
  rw [access_iff_subset, not_not]
  refine ⟨.text [0xD800, 0xD83D, 0xDE00, 0xDC00], ⟨by decide, by decide, partedText,
    (survives_iff keeps.1).mpr keeps.2, document⟩, ?_, ?_⟩
  · intro place member
    obtain rfl := List.mem_singleton.mp member
    exact ⟨by decide, by simpa [Place.strings] using .inr parted, trivial⟩
  · exact ⟨_, List.mem_singleton_self _, _, List.mem_singleton_self _, parted⟩

end LedgerDesk.Contracts
