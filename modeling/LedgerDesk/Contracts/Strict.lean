import LedgerDesk.Contracts.Scalars

/-!
# The strict decoder

A command is read with checks that JSON does not have: on depth, on repeated keys, on strings and on
numbers. What it takes is a grammar, but for strings whose lone halves pass the test of scalar text; and
every canonical text is in it and reads as the value it was written for.
-/
namespace LedgerDesk.Contracts

open Foundation Foundation.JsonUnits Foundation.Surrogates

inductive DecodeFailure where
  | INTAKE_DECODER_BOUND
  | INTAKE_BODY_LIMIT
  | utf8
  | reader (failure : ReadError)
  deriving DecidableEq, Repr

section Decoder

variable {ν : Type} (N : Numbers ν)

/-- What the decoder asks of a text beyond JSON; at the paths `admits` takes any finite number will do. -/
def strictChecks (admits : List (List Nat) → Bool) : Checks where
  depth depth := depth ≤ 32
  string := scalarText
  number path token :=
    if admits path then isNumber token && N.isFinite (N.ofText token)
    else isInteger token && (N.natural (N.ofText token)).isSome
  distinct := true
  number_isNumber := by
    intro path token fits
    split at fits
    · exact ((Bool.and_eq_true ..).mp fits).1
    · exact isNumber_of_isInteger ((Bool.and_eq_true ..).mp fits).1

def decodeStrict (bytes : ByteArray) (maxBytes : Int) (admits : List (List Nat) → Bool) :
    Except DecodeFailure (Value ν) :=
  if maxBytes < 0 ∨ maxBytes > maxSafe then .error .INTAKE_DECODER_BOUND
  else if maxBytes < bytes.size then .error .INTAKE_BODY_LIMIT
  else
    match decodeUtf8 bytes with
    | none => .error .utf8
    | some source =>
      match read (strictChecks N admits) source with
      | .ok json => .ok (json.value N)
      | .error failure => .error (.reader failure)

/-- Safe, not negative, and written without sign, fraction or exponent. -/
def PlainInteger (lexeme : List Nat) : Prop := isInteger lexeme = true ∧ decimal lexeme ≤ maxSafe

/-- What a grammar of this depth asks of a value where it stands, its strings all such as `ok` takes. -/
def InGrammar (deepest : Nat) (admits : List (List Nat) → Bool) (ok : List Nat → Prop)
    (place : Place) : Prop :=
  place.containers ≤ deepest ∧ (∀ string ∈ place.strings, ok string) ∧
    match place.json with
    | .number numeral =>
      if admits place.path then N.isFinite (N.ofText numeral.lexeme) = true
      else PlainInteger numeral.lexeme
    | .object members => (members.map Prod.fst).Nodup
    | _ => True

/-- Bytes within the bound that are the UTF-8 of a JSON text, this value's. -/
def Encodes (bytes : ByteArray) (maxBytes : Int) (json : Json) : Prop :=
  bytes.size ≤ maxBytes ∧ maxBytes ≤ maxSafe ∧
    ∃ text, decodeUtf8 bytes = some text ∧ json.Document text

/-- Bytes of the grammar: no string with a lone half. -/
def Strict (bytes : ByteArray) (maxBytes : Int) (admits : List (List Nat) → Bool) : Prop :=
  ∃ json, Encodes bytes maxBytes json ∧ ∀ place ∈ json.places 0 [], InGrammar N 32 admits WellFormed place

/-- Bytes that are of the grammar but for strings with lone halves that only whole pairs keep apart. -/
def Spoiled (bytes : ByteArray) (maxBytes : Int) (admits : List (List Nat) → Bool) : Prop :=
  ∃ json, Encodes bytes maxBytes json ∧
    (∀ place ∈ json.places 0 [], InGrammar N 32 admits (fun s => WellFormed s ∨ Parted s) place) ∧
    ∃ place ∈ json.places 0 [], ∃ string ∈ place.strings, Parted string

/-! ### What is taken -/

theorem Encodes.unique {bytes : ByteArray} {maxBytes : Int} {v w : Json}
    (first : Encodes bytes maxBytes v) (second : Encodes bytes maxBytes w) : v = w := by
  obtain ⟨-, -, text, decoded, document⟩ := first
  obtain ⟨-, -, text', decoded', document'⟩ := second
  obtain rfl := Option.some_inj.mp (decoded.symm.trans decoded')
  exact document.unique document'

theorem number_strict (admits : List (List Nat) → Bool) (path : List (List Nat)) (numeral : Numeral) :
    (strictChecks N admits).number path numeral.lexeme = true ↔
      if admits path then N.isFinite (N.ofText numeral.lexeme) = true
      else PlainInteger numeral.lexeme := by
  simp only [strictChecks, PlainInteger]
  split
  · simp [numeral.valid]
  · rw [Bool.and_eq_true]
    refine and_congr_right fun integer => ?_
    rw [N.natural_ofText integer]
    split <;> simp_all

theorem passes_iff_inGrammar {admits : List (List Nat) → Bool} (place : Place) :
    place.Passes (strictChecks N admits) ↔
      InGrammar N 32 admits (fun s => WellFormed s ∨ Parted s) place := by
  obtain ⟨containers, path, json⟩ := place
  cases json with
  | null => simp [Place.Passes, InGrammar, Place.strings, strictChecks]
  | boolean => simp [Place.Passes, InGrammar, Place.strings, strictChecks]
  | array => simp [Place.Passes, InGrammar, Place.strings, strictChecks]
  | text string => simp [Place.Passes, InGrammar, Place.strings, strictChecks, scalarText_iff]
  | number numeral =>
    have same := number_strict N admits path numeral
    simp only [Place.Passes, InGrammar, Place.strings, same]
    simp [strictChecks]
  | object members =>
    simp [Place.Passes, InGrammar, Place.strings, strictChecks, scalarText_iff]

theorem decodeStrict_ok {bytes : ByteArray} {maxBytes : Int} {admits : List (List Nat) → Bool}
    {v : Value ν} : decodeStrict N bytes maxBytes admits = .ok v ↔
      ∃ json, Encodes bytes maxBytes json ∧
        (∀ place ∈ json.places 0 [], InGrammar N 32 admits (fun s => WellFormed s ∨ Parted s) place) ∧
        v = json.value N := by
  have fits : ∀ json : Json, json.Fits (strictChecks N admits) 0 [] ↔
      ∀ place ∈ json.places 0 [], InGrammar N 32 admits (fun s => WellFormed s ∨ Parted s) place := by
    intro json
    rw [json.fits_iff]
    exact forall₂_congr fun place _ => passes_iff_inGrammar N place
  constructor
  · intro decoded
    rw [decodeStrict] at decoded
    split at decoded
    · cases decoded
    next bound =>
    split at decoded
    · cases decoded
    next within_ =>
    split at decoded
    · cases decoded
    next source utf8 =>
    split at decoded
    · next json taken =>
      cases decoded
      obtain ⟨document, places⟩ := read_ok.mp taken
      exact ⟨json, ⟨by omega, by omega, source, utf8, document⟩, (fits json).mp places, rfl⟩
    · cases decoded
  · rintro ⟨json, ⟨within_, bound, source, utf8, document⟩, places, rfl⟩
    have taken := read_ok.mpr ⟨document, (fits json).mpr places⟩
    rw [decodeStrict, if_neg (by omega), if_neg (by omega), utf8]
    simp only [taken]

/-! ### Canonical texts are taken -/

theorem canonicalMembers_keys {members : List (List Nat × Value ν)} {jsons : List (List Nat × Json)}
    (written : canonicalJsonMembers N members = some jsons) :
    jsons.map Prod.fst = members.map Prod.fst := by
  induction members generalizing jsons with
  | nil =>
    cases written
    rfl
  | cons m members ih =>
    obtain ⟨key, value⟩ := m
    rw [canonicalJsonMembers] at written
    obtain ⟨json, -, later⟩ := Option.bind_eq_some_iff.mp written
    obtain ⟨others, others_written, done⟩ := Option.bind_eq_some_iff.mp later
    cases done
    rw [List.map_cons, List.map_cons, ih others_written]

/-- What a canonical number has to offer at any path. -/
theorem number_canonical {admits : List (List Nat) → Bool} {path : List (List Nat)} {n : ν} {k : Nat}
    (natural : N.natural n = some k) :
    if admits path then N.isFinite (N.ofText (indexUnits k)) = true
    else PlainInteger (indexUnits k) := by
  split
  · rw [N.ofText_natural natural]
    exact N.natural_finite natural
  · refine ⟨isInteger_indexUnits k, ?_⟩
    rw [decimal_indexUnits]
    exact N.natural_safe natural

section Canonical

variable (deepest : Nat) (admits : List (List Nat) → Bool)

/-- A place that a decoder of this depth passes. -/
def Taken (place : Place) : Prop := InGrammar N deepest admits (fun s => scalarText s = true) place

mutual

theorem taken_canonical : ∀ {v : Value ν} {json : Json}, canonicalJson N v = some json →
    v.OneOfAName → ∀ (containers : Nat) (path : List (List Nat)), containers + v.height ≤ deepest →
    ∀ place ∈ json.places containers path, Taken N deepest admits place
  | .null, _, written, _, containers, path, low, place, member => by
    cases written
    obtain rfl := List.mem_singleton.mp member
    exact ⟨Nat.le_of_add_right_le low, by simp [Place.strings], trivial⟩
  | .boolean _, _, written, _, containers, path, low, place, member => by
    cases written
    obtain rfl := List.mem_singleton.mp member
    exact ⟨Nat.le_of_add_right_le low, by simp [Place.strings], trivial⟩
  | .text string, _, written, _, containers, path, low, place, member => by
    rw [canonicalJson] at written
    split at written
    · next passes =>
      cases written
      obtain rfl := List.mem_singleton.mp member
      exact ⟨Nat.le_of_add_right_le low, by simpa [Place.strings] using passes, trivial⟩
    · cases written
  | .number n, _, written, _, containers, path, low, place, member => by
    rw [canonicalJson] at written
    obtain ⟨k, natural, rfl⟩ := Option.map_eq_some_iff.mp written
    obtain rfl := List.mem_singleton.mp member
    exact ⟨Nat.le_of_add_right_le low, by simp [Place.strings], number_canonical N natural⟩
  | .array items, _, written, names, containers, path, low, place, member => by
    rw [canonicalJson] at written
    obtain ⟨jsons, items_written, rfl⟩ := Option.map_eq_some_iff.mp written
    rw [Value.OneOfAName] at names
    rw [Value.height] at low
    rw [Json.places, List.mem_cons] at member
    rcases member with rfl | member
    · exact ⟨Nat.le_of_add_right_le low, by simp [Place.strings], trivial⟩
    · obtain ⟨item, among, path', there⟩ := mem_itemsPlaces member
      exact taken_canonicalItems items_written names containers path' low item among place there
  | .object members, _, written, names, containers, path, low, place, member => by
    rw [canonicalJson] at written
    obtain ⟨jsons, members_written, kept⟩ := Option.bind_eq_some_iff.mp written
    rw [Value.OneOfAName, ← canonicalMembers_keys N members_written] at names
    rw [Value.height] at low
    split at kept
    rotate_left
    · cases kept
    next passes =>
    cases kept
    have perm := List.perm_insertionSort (fun a b : List Nat × Json => scalarFirst a.1 b.1) jsons
    rw [List.all_eq_true] at passes
    rw [Json.places, List.mem_cons] at member
    rcases member with rfl | member
    · refine ⟨Nat.le_of_add_right_le low, ?_, (perm.map Prod.fst).nodup_iff.mpr names.1⟩
      simp only [Place.strings, List.forall_mem_map]
      exact fun m among => passes m (perm.mem_iff.mp among)
    · obtain ⟨m, among, there⟩ := mem_membersPlaces.mp member
      exact taken_canonicalMembers members_written names.2 containers _ low m
        (perm.mem_iff.mp among) place there

theorem taken_canonicalItems : ∀ {items : List (Value ν)} {jsons : List Json},
    canonicalJsonItems N items = some jsons → OneOfANameItems items →
    ∀ (containers : Nat) (path : List (List Nat)), containers + heightOfItems items ≤ deepest →
    ∀ json ∈ jsons, ∀ place ∈ json.places (containers + 1) path, Taken N deepest admits place
  | [], _, written, _, _, _, _, json, among => by
    cases written
    cases among
  | item :: items, _, written, names, containers, path, low, json, among => by
    rw [canonicalJsonItems] at written
    obtain ⟨first, item_written, later⟩ := Option.bind_eq_some_iff.mp written
    obtain ⟨others, items_written, done⟩ := Option.bind_eq_some_iff.mp later
    cases done
    rw [OneOfANameItems] at names
    rw [heightOfItems] at low
    rcases List.mem_cons.mp among with rfl | among
    · exact taken_canonical item_written names.1 _ _ (by omega)
    · exact taken_canonicalItems items_written names.2 _ _ (by omega) json among

theorem taken_canonicalMembers : ∀ {members : List (List Nat × Value ν)}
    {jsons : List (List Nat × Json)}, canonicalJsonMembers N members = some jsons →
    OneOfANameMembers members → ∀ (containers : Nat) (path : List (List Nat)),
    containers + heightOfMembers members ≤ deepest →
    ∀ m ∈ jsons, ∀ place ∈ m.2.places (containers + 1) path, Taken N deepest admits place
  | [], _, written, _, _, _, _, m, among => by
    cases written
    cases among
  | (key, value) :: members, _, written, names, containers, path, low, m, among => by
    rw [canonicalJsonMembers] at written
    obtain ⟨first, value_written, later⟩ := Option.bind_eq_some_iff.mp written
    obtain ⟨others, members_written, done⟩ := Option.bind_eq_some_iff.mp later
    cases done
    rw [OneOfANameMembers] at names
    rw [heightOfMembers] at low
    rcases List.mem_cons.mp among with rfl | among
    · exact taken_canonical value_written names.1 _ _ (by omega)
    · exact taken_canonicalMembers members_written names.2 _ _ (by omega) m among

end

/-- The canonical text of a value reads as the value, its keys in order. -/
theorem decodeStrict_canonical {v : Value ν} {text : List Nat} {maxBytes : Int}
    (written : canonicalUnits N v = some text) (inUnits : InUnits v) (names : v.OneOfAName)
    (low : v.height ≤ 32) (within_ : (encodeUtf8 text).size ≤ maxBytes) (bound : maxBytes ≤ maxSafe) :
    decodeStrict N (encodeUtf8 text) maxBytes admits = .ok (sorted v) := by
  have keeps := keeps_canonicalUnits inUnits written
  rw [canonicalUnits_eq] at written
  obtain ⟨json, json_written, rfl⟩ := Option.map_eq_some_iff.mp written
  refine (decodeStrict_ok N).mpr ⟨json, ⟨within_, bound, _, (survives_iff keeps.1).mpr keeps.2,
    document_stringify json⟩, ?_, (value_canonicalJson N json_written).symm⟩
  intro place member
  obtain ⟨shallow, strings, rest⟩ := taken_canonical N 32 admits json_written names 0 [] (by omega)
    place member
  exact ⟨shallow, fun string among => (scalarText_iff string).mp (strings string among), rest⟩

end Canonical

/-! ### The grammar -/

theorem taken_iff_strict (bytes : ByteArray) (maxBytes : Int) (admits : List (List Nat) → Bool) :
    ((∃ v, decodeStrict N bytes maxBytes admits = .ok v) ↔ Strict N bytes maxBytes admits) ↔
      ¬Spoiled N bytes maxBytes admits := by
  constructor
  · rintro exact_ ⟨json, encodes, places, place, member, string, among, parted⟩
    obtain ⟨json', encodes', places'⟩ :=
      exact_.mp ⟨_, (decodeStrict_ok N).mpr ⟨json, encodes, places, rfl⟩⟩
    obtain rfl := encodes.unique encodes'
    exact not_wellFormed_of_parted parted ((places' place member).2.1 string among)
  · intro whole
    constructor
    · rintro ⟨v, decoded⟩
      obtain ⟨json, encodes, places, -⟩ := (decodeStrict_ok N).mp decoded
      refine ⟨json, encodes, fun place member => ?_⟩
      obtain ⟨shallow, strings, rest⟩ := places place member
      refine ⟨shallow, fun string among => (strings string among).resolve_right fun parted => ?_, rest⟩
      exact whole ⟨json, encodes, places, place, member, string, among, parted⟩
    · rintro ⟨json, encodes, places⟩
      refine ⟨_, (decodeStrict_ok N).mpr ⟨json, encodes, fun place member => ?_, rfl⟩⟩
      obtain ⟨shallow, strings, rest⟩ := places place member
      exact ⟨shallow, fun string among => .inl (strings string among), rest⟩

theorem decodeStrict_ends (bytes : ByteArray) (maxBytes : Int) (admits : List (List Nat) → Bool) :
    decodeStrict N bytes maxBytes admits ≠ .error (.reader .fuel) := by
  intro failed
  rw [decodeStrict] at failed
  split at failed
  · cases failed
  split at failed
  · cases failed
  split at failed
  · cases failed
  split at failed
  · cases failed
  · next failure cut =>
    cases failed
    exact read_ends _ cut

/-- The decoder takes the grammar and nothing else, except bytes that a string with parted halves spoils.
It comes to an end on all bytes, what it takes reads as JSON does, and every canonical text within the
bounds reads as its value. -/
theorem decodeStrict_exact (bytes : ByteArray) (maxBytes : Int) (admits : List (List Nat) → Bool) :
    decodeStrict N bytes maxBytes admits ≠ .error (.reader .fuel) ∧
    (((∃ v, decodeStrict N bytes maxBytes admits = .ok v) ↔ Strict N bytes maxBytes admits) ↔
      ¬Spoiled N bytes maxBytes admits) ∧
    (∀ (v : Value ν) (text : List Nat) (json : Json), decodeStrict N bytes maxBytes admits = .ok v → decodeUtf8 bytes = some text →
      json.Document text → v = json.value N) ∧
    ∀ (v : Value ν) (text : List Nat), canonicalUnits N v = some text → InUnits v → v.OneOfAName →
      v.height ≤ 32 → (encodeUtf8 text).size ≤ maxBytes → maxBytes ≤ maxSafe →
      decodeStrict N (encodeUtf8 text) maxBytes admits = .ok (sorted v) := by
  refine ⟨decodeStrict_ends N bytes maxBytes admits, taken_iff_strict N bytes maxBytes admits, ?_, ?_⟩
  · intro v text json decoded utf8 document
    obtain ⟨json', ⟨-, -, text', utf8', document'⟩, -, rfl⟩ := (decodeStrict_ok N).mp decoded
    obtain rfl := Option.some_inj.mp (utf8.symm.trans utf8')
    rw [document.unique document']
  · intro v text written inUnits names low within_ bound
    exact decodeStrict_canonical N admits written inUnits names low within_ bound

end Decoder

/-- An object with its keys out of order comes back in order. -/
theorem decodeStrict_exact_object :
    decodeStrict Numbers.safe (encodeUtf8 (units "\x7b\"a\":7,\"b\":[null]\x7d")) 64 (fun _ => false) =
      .ok (.object [([97], .number (some 7)), ([98], .array [.null])]) := by
  have exact_ := decodeStrict_exact Numbers.safe (encodeUtf8 []) 64 fun _ => false
  have names : (.object [([98], .array [.null]), ([97], .number (some 7))] :
      Value (Option (Fin (maxSafe + 1)))).OneOfAName := by
    simp [Value.OneOfAName, OneOfANameMembers, OneOfANameItems]
  exact exact_.2.2.2 (.object [([98], .array [.null]), ([97], .number (some 7))])
    (units "\x7b\"a\":7,\"b\":[null]\x7d") rfl (by decide) names (by decide) (by decide) (by decide)

def partedInner : List Nat := units "\\ud800\\ud83d\\ude00\\udc00"

def partedText : List Nat := quoted partedInner

theorem document_partedText :
    (Json.text [0xD800, 0xD83D, 0xDE00, 0xDC00]).Document partedText ∧
      Parted [0xD800, 0xD83D, 0xDE00, 0xDC00] := by
  have spelled : Spells [0xD800, 0xD83D, 0xDE00, 0xDC00] partedInner :=
    unescape_iff.mp (by decide +kernel)
  constructor
  · refine ⟨[], partedText, [], by simp, blank_nil, ?_, blank_nil⟩
    rw [Json.Text]
    exact ⟨partedInner, rfl, spelled⟩
  · exact @Joins.parted false 0xD800 0xDC00 [] [(0xD83D, 0xDE00)] rfl
      (by simp [Pairs, isHigh, isLow]) (by simp) rfl .nil

/-- A string of a lone half, a whole pair and another lone half is taken. -/
theorem decodeStrict_takes_parted :
    ¬((∃ v, decodeStrict Numbers.safe (encodeUtf8 partedText) 64 (fun _ => false) = .ok v) ↔
      Strict Numbers.safe (encodeUtf8 partedText) 64 fun _ => false) := by
  obtain ⟨document, parted⟩ := document_partedText
  have keeps : Keeps partedText := keeps_ascii (by decide)
  rw [taken_iff_strict, not_not]
  refine ⟨.text [0xD800, 0xD83D, 0xDE00, 0xDC00], ⟨by decide, by decide, partedText,
    (survives_iff keeps.1).mpr keeps.2, document⟩, ?_, ?_⟩
  · intro place member
    obtain rfl := List.mem_singleton.mp member
    exact ⟨by decide, by simpa [Place.strings] using .inr parted, trivial⟩
  · exact ⟨_, List.mem_singleton_self _, _, List.mem_singleton_self _, parted⟩

end LedgerDesk.Contracts
