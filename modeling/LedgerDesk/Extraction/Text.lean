import LedgerDesk.Contracts.Scalars
import LedgerDesk.Foundation.Lines
import LedgerDesk.Foundation.PathTemplate

/-!
# The text extractor

An original of plain text is decoded, cut into its lines, and each line is located in the bytes and
in the characters of the original. The observation that is kept of it projects the lines with both
locations as they are.
-/
namespace LedgerDesk.Extraction

open Foundation Foundation.JsonUnits Foundation.Lines Foundation.Surrogates
open Contracts (scalarText)
open PathTemplate (isIdentifier)

/-! ### The adapter -/

inductive Failure where
  | inputLimit
  | unsupportedEncoding
  | invalidUtf8
  deriving DecidableEq, Repr

def Failure.code : Failure → String
  | .inputLimit => "input_limit"
  | .unsupportedEncoding => "unsupported_encoding"
  | .invalidUtf8 => "invalid_utf8"

/-- `PROFILE.limits.inputBytes`. -/
def inputBytes : Nat := 1048576

structure Decoded where
  text : List Nat
  bomBytes : Nat
  deriving DecidableEq, Repr

/-- The mark of UTF-16 in one of the two byte orders. -/
def hasUtf16Mark (bytes : ByteArray) : Bool :=
  decide (bytes.extract 0 2 = ⟨#[255, 254]⟩) || decide (bytes.extract 0 2 = ⟨#[254, 255]⟩)

def bomBytes (bytes : ByteArray) : Nat := if bytes.extract 0 3 = ⟨#[239, 187, 191]⟩ then 3 else 0

def strictText (bytes : ByteArray) : Except Failure Decoded :=
  if hasUtf16Mark bytes then .error .unsupportedEncoding
  else match decodeUtf8 (bytes.extract (bomBytes bytes) bytes.size) with
    | some text => .ok ⟨text, bomBytes bytes⟩
    | none => .error .invalidUtf8

structure Locator where
  original : List Nat
  byteRange : Nat × Nat
  codePointRange : Nat × Nat
  deriving DecidableEq, Repr

structure Element where
  id : List Nat
  text : List Nat
  locator : Locator
  deriving DecidableEq, Repr

structure Original where
  name : List Nat
  bytes : Nat
  sha256 : List Nat
  deriving DecidableEq, Repr

structure Inventory where
  bytes : Nat
  decodedCodePoints : Nat
  elements : Nat
  bomBytes : Nat
  deriving DecidableEq, Repr

inductive Outcome where
  | completed
  | incomplete
  deriving DecidableEq, Repr

/-- An extraction of the text profile, which has no relations and no resources. -/
structure TextExtraction where
  original : Original
  outcome : Outcome
  unsupported : List (List Nat)
  inventory : Inventory
  elements : List Element
  deriving DecidableEq, Repr

structure Runtime where
  node : List Nat
  sheetjs : List Nat
  rssBytes : Nat
  deriving DecidableEq, Repr

structure Produced where
  raw : Decoded
  extraction : TextExtraction
  runtime : Runtime
  deriving DecidableEq, Repr

/-- `Buffer.byteLength(value)`. -/
def byteLength (value : List Nat) : Nat := (encodeUtf8 value).size

/-- `[...value].length`. -/
def codePointCount (value : List Nat) : Nat := (scalars value).length

/-- The callback over the lines, with the place in the bytes and in the characters it has come to. -/
def elementsFrom (sha256 : List Nat) : Nat → Nat → Nat → List (List Nat) → List Element
  | _, _, _, [] => []
  | index, byte, point, value :: rest =>
    let size := byteLength value
    let points := codePointCount value
    { id := units "line-" ++ indexUnits (index + 1)
      text := value
      locator := ⟨sha256, (byte, byte + size), (point, point + points)⟩ } ::
        elementsFrom sha256 (index + 1) (byte + size) (point + points) rest

section Adapter

variable (digest : ByteArray → List Nat) (runtime : Runtime)

/-- `extract(bytes, 'text')`. -/
def extract (bytes : ByteArray) : Except Failure Produced :=
  if inputBytes < bytes.size then .error .inputLimit
  else match strictText bytes with
    | .error failure => .error failure
    | .ok decoded =>
      let elements := elementsFrom (digest bytes) 0 decoded.bomBytes 0 (lines decoded.text)
      .ok {
        raw := decoded
        extraction := {
          original := ⟨units "original", bytes.size, digest bytes⟩
          outcome := .completed
          unsupported := []
          inventory := ⟨bytes.size, codePointCount decoded.text, elements.length, decoded.bomBytes⟩
          elements := elements }
        runtime := runtime }

end Adapter

/-! ### The projection -/

inductive MappingError where
  | producer
  | extractionReferences
  | extraction
  | coverage
  | original
  | originalReference
  | textCardinality
  deriving DecidableEq, Repr

def MappingError.code : MappingError → String
  | .producer => "MAPPING_PRODUCER"
  | .extractionReferences => "MAPPING_EXTRACTION_REFERENCES"
  | .extraction => "MAPPING_EXTRACTION"
  | .coverage => "MAPPING_COVERAGE"
  | .original => "MAPPING_ORIGINAL"
  | .originalReference => "MAPPING_ORIGINAL_REFERENCE"
  | .textCardinality => "MAPPING_TEXT_CARDINALITY"

structure ExactReference where
  id : List Nat
  revision : Nat
  sha256 : List Nat
  deriving DecidableEq, Repr

/-- `Number.isSafeInteger(v) && v >= 0`. -/
def isSafe (n : Nat) : Bool := n ≤ maxSafe

/-- `/^[a-f0-9]{64}$/`. -/
def isSha256 (text : List Nat) : Bool :=
  text.length == 64 && text.all fun c => isDigit c || (97 ≤ c && c ≤ 102)

def isText (most : Nat) (text : List Nat) : Bool := scalarText text && decide (text.length ≤ most)

def exactReference (reference : ExactReference) : Bool :=
  isIdentifier reference.id && decide (0 < reference.revision) && isSafe reference.revision &&
    isSha256 reference.sha256

def isPair (range : Nat × Nat) : Bool := isSafe range.1 && isSafe range.2 && decide (range.1 ≤ range.2)

def isOriginal (original : Original) : Bool :=
  isText 256 original.name && decide (original.bytes ≤ 1048576) && isSha256 original.sha256

def textLocator (locator : Locator) : Bool :=
  isSha256 locator.original && isPair locator.byteRange && isPair locator.codePointRange

def trialElement (element : Element) : Bool :=
  isIdentifier element.id && isText 1048576 element.text && textLocator element.locator

/-- `EXTRACTION_BOUNDS.textElements`. -/
def textElements : Nat := 1048576

def processingExtractionShape (x : TextExtraction) : Bool :=
  isOriginal x.original && decide (x.unsupported.length ≤ 10000) && x.unsupported.all (isText 512) &&
    decide (x.elements.length ≤ textElements) && x.elements.all trialElement

/-- `inventories.text`. -/
def isInventory (inventory : Inventory) : Bool :=
  isSafe inventory.bytes && isSafe inventory.decodedCodePoints && isSafe inventory.elements &&
    isSafe inventory.bomBytes

def isRuntime (runtime : Runtime) : Bool :=
  isText 32 runtime.node && runtime.sheetjs == units "0.20.3" && isSafe runtime.rssBytes

/-- `jsonValue(raw)`: a text that can be retained. -/
def jsonValue (raw : Decoded) : Bool := scalarText raw.text

def inspectExtraction (x : TextExtraction) : Except MappingError Unit :=
  if !(processingExtractionShape x && isInventory x.inventory) then .error .extraction
  else if decide (x.outcome = .incomplete) != decide (0 < x.unsupported.length) then .error .coverage
  else if x.elements.any fun e => e.locator.original != x.original.sha256 then .error .original
  else .ok ()

structure ObservedElement where
  id : List Nat
  text : List Nat
  originalBytes : Nat × Nat
  originalCodePoints : Nat × Nat
  deriving DecidableEq, Repr

structure Component where
  id : List Nat
  execution : String
  coverage : String
  fidelity : String
  limitations : List String
  incidents : List (List Nat)
  deriving DecidableEq, Repr

structure Incident where
  id : List Nat
  component : List Nat
  cause : String
  detail : List Nat
  deriving DecidableEq, Repr

structure Observation where
  elements : List ObservedElement
  components : List Component
  incidents : List Incident
  inventory : String
  currentUse : String
  deriving DecidableEq, Repr

def projectCoverage (x : TextExtraction) : List Component × List Incident :=
  let limitations := ["syntactic-profile-only", "raw-properties-retained-not-interpreted",
    "semantic-fidelity-unverified"]
  let extraction : Component :=
    ⟨units "extraction", "completed",
      if x.outcome = .incomplete then "partial" else "complete", "unchecked", limitations, []⟩
  let left := x.unsupported.mapIdx fun i name =>
    let id := units "unprocessed-" ++ indexUnits i
    let incident := units "incident-" ++ indexUnits i
    ((⟨id, "not_attempted", "none", "unchecked", ["component-not-offered"], [incident]⟩ : Component),
      (⟨incident, id, "route_unoffered", name⟩ : Incident))
  (extraction :: left.map Prod.fst, left.map Prod.snd)

/-- `projectExtractionObservation` of a producer of the text profile. -/
def projectExtractionObservation (producer : Produced) (originalReference sourceReference : ExactReference) :
    Except MappingError Observation :=
  let x := producer.extraction
  if !(jsonValue producer.raw && processingExtractionShape x && isRuntime producer.runtime) then
    .error .producer
  else if !(exactReference originalReference && exactReference sourceReference) then
    .error .extractionReferences
  else match inspectExtraction x with
    | .error error => .error error
    | .ok () =>
      if originalReference.sha256 ≠ x.original.sha256 then .error .originalReference
      else if max 1 x.original.bytes < x.elements.length then .error .textCardinality
      else
        let coverage := projectCoverage x
        .ok {
          elements := x.elements.map fun e =>
            ⟨e.id, e.text, e.locator.byteRange, e.locator.codePointRange⟩
          components := coverage.1
          incidents := coverage.2
          inventory := "unknown"
          currentUse := "not_evaluated" }

/-! ### What is read -/

/-- The bytes are what stands before the text, and the bytes of the text. -/
theorem strictText_ok {bytes : ByteArray} {decoded : Decoded} (read : strictText bytes = .ok decoded) :
    ∃ front, bytes = front ++ encodeUtf8 decoded.text ∧ front.size = decoded.bomBytes ∧
      WellFormed decoded.text := by
  rw [strictText] at read
  split at read
  · cases read
  · split at read
    · next text found =>
      cases read
      obtain ⟨encoded, formed⟩ := encodeUtf8_decodeUtf8 found
      refine ⟨bytes.extract 0 (bomBytes bytes), ?_, ?_, formed⟩
      · rw [encoded, ByteArray.extract_append_extract, Nat.zero_min, ByteArray.extract_zero_max_size]
      · rw [bomBytes]
        split
        · next mark => rw [mark]; rfl
        · exact congrArg ByteArray.size ByteArray.extract_same
    · cases read

/-- What is read is valid UTF-8 behind a mark of its own, without a mark of UTF-16. -/
theorem strictText_iff (bytes : ByteArray) : (∃ decoded, strictText bytes = .ok decoded) ↔
    hasUtf16Mark bytes = false ∧
      ∃ text : String, bytes.extract (bomBytes bytes) bytes.size = text.toUTF8 := by
  rw [strictText]
  constructor
  · rintro ⟨decoded, read⟩
    split at read
    · cases read
    · next plain =>
      refine ⟨by simpa using plain, ?_⟩
      split at read
      · next text found =>
        exact ⟨String.ofList (scalars text), (encodeUtf8_decodeUtf8 found).1.symm⟩
      · cases read
  · rintro ⟨plain, text, valid⟩
    rw [plain, valid, decodeUtf8, fromUTF8?_toUTF8]
    exact ⟨_, rfl⟩

/-! ### The elements -/

section Elements

variable (sha256 : List Nat) (index byte point : Nat) (values : List (List Nat))

theorem elementsFrom_text : (elementsFrom sha256 index byte point values).map Element.text = values := by
  induction values generalizing index byte point with
  | nil => rfl
  | cons value rest ih => rw [elementsFrom, List.map_cons, ih]

theorem elementsFrom_byteRange : (elementsFrom sha256 index byte point values).map
    (fun e => e.locator.byteRange) = ranges byteLength byte values := by
  induction values generalizing index byte point with
  | nil => rfl
  | cons value rest ih => rw [elementsFrom, List.map_cons, ih, ranges]

theorem elementsFrom_codePointRange : (elementsFrom sha256 index byte point values).map
    (fun e => e.locator.codePointRange) = ranges codePointCount point values := by
  induction values generalizing index byte point with
  | nil => rfl
  | cons value rest ih => rw [elementsFrom, List.map_cons, ih, ranges]

end Elements

/-- The elements are the decoded text, line by line, and are located in the bytes of the original and
in its characters. -/
structure Partitions (bytes : ByteArray) (decoded : Decoded) (elements : List Element) : Prop where
  nonempty : ∀ e ∈ elements, e.text ≠ []
  concatenate : (elements.map Element.text).flatten = decoded.text
  /-- A terminator stands at the end of an element or nowhere in it. -/
  terminated : ∀ e ∈ elements, Ended e.text ∨ Clean e.text
  allButLast : ∀ e ∈ elements.dropLast, Ended e.text
  /-- No element ends in a carriage return whose line feed begins the next one. -/
  unsplit : (elements.map Element.text).IsChain fun a b =>
    ¬(a.getLast? = some 13 ∧ b.head? = some 10)
  byteRanges : Contiguous decoded.bomBytes bytes.size (elements.map fun e => e.locator.byteRange)
  slices : ∀ e ∈ elements,
    bytes.extract e.locator.byteRange.1 e.locator.byteRange.2 = encodeUtf8 e.text
  codePointRanges : Contiguous 0 (codePointCount decoded.text)
    (elements.map fun e => e.locator.codePointRange)

theorem partitions {bytes front : ByteArray} {decoded : Decoded}
    (read : bytes = front ++ encodeUtf8 decoded.text) (before : front.size = decoded.bomBytes)
    (sha256 : List Nat) :
    Partitions bytes decoded (elementsFrom sha256 0 decoded.bomBytes 0 (lines decoded.text)) := by
  have cut := cut_lines decoded.text
  generalize lines decoded.text = parts at cut
  have texts := elementsFrom_text sha256 0 decoded.bomBytes 0 parts
  have byteRanges := elementsFrom_byteRange sha256 0 decoded.bomBytes 0 parts
  have pointRanges := elementsFrom_codePointRange sha256 0 decoded.bomBytes 0 parts
  generalize elementsFrom sha256 0 decoded.bomBytes 0 parts = elements at *
  have part : ∀ e ∈ elements, e.text ∈ parts := by
    intro e member
    rw [← texts]
    exact List.mem_map_of_mem member
  constructor
  case nonempty => exact fun e member => cut.ne_nil e.text (part e member)
  case concatenate => rw [texts, cut.flatten]
  case terminated => exact fun e member => cut.ended.1 e.text (part e member)
  case allButLast =>
    intro e member
    apply cut.ended.2
    rw [← texts, ← List.map_dropLast]
    exact List.mem_map_of_mem member
  case unsplit =>
    rw [texts]
    exact cut.whole
  case byteRanges =>
    have total : decoded.bomBytes + (parts.map byteLength).sum = bytes.size := by
      rw [read, ByteArray.size_append, before]
      exact congrArg _ cut.bytes
    rw [byteRanges, ← total]
    exact contiguous_ranges ..
  case slices =>
    have slices := cut.slices front
    rw [← read, before] at slices
    change List.Forall₂ _ (ranges byteLength _ _) _ at slices
    rw [← byteRanges, ← texts, List.forall₂_map_left_iff, List.forall₂_map_right_iff,
      List.forall₂_same] at slices
    exact slices
  case codePointRanges =>
    have total : 0 + (parts.map codePointCount).sum = codePointCount decoded.text := by
      rw [Nat.zero_add]
      exact cut.points
    rw [pointRanges, ← total]
    exact contiguous_ranges ..

section Extracted

variable {digest : ByteArray → List Nat} {runtime : Runtime} {bytes : ByteArray} {produced : Produced}

theorem extract_ok (extracted : extract digest runtime bytes = .ok produced) :
    bytes.size ≤ inputBytes ∧ strictText bytes = .ok produced.raw ∧
      produced.extraction.elements =
        elementsFrom (digest bytes) 0 produced.raw.bomBytes 0 (lines produced.raw.text) ∧
      produced.extraction.original = ⟨units "original", bytes.size, digest bytes⟩ ∧
      produced.extraction.outcome = .completed ∧ produced.extraction.unsupported = [] ∧
      produced.extraction.inventory = ⟨bytes.size, codePointCount produced.raw.text,
        produced.extraction.elements.length, produced.raw.bomBytes⟩ ∧
      produced.runtime = runtime := by
  rw [extract] at extracted
  split at extracted
  · cases extracted
  · next within_ =>
    split at extracted
    · cases extracted
    · next decoded read =>
      cases extracted
      exact ⟨not_lt.mp within_, read, rfl, rfl, rfl, rfl, rfl, rfl⟩

theorem extract_returns : (∃ produced, extract digest runtime bytes = .ok produced) ↔
    bytes.size ≤ inputBytes ∧ ∃ decoded, strictText bytes = .ok decoded := by
  constructor
  · rintro ⟨produced, extracted⟩
    obtain ⟨within_, read, -⟩ := extract_ok extracted
    exact ⟨within_, _, read⟩
  · rintro ⟨within_, decoded, read⟩
    rw [extract, if_neg (not_lt.mpr within_), read]
    exact ⟨_, rfl⟩

end Extracted

/-- What is projected is what was extracted, element by element. -/
theorem projected_elements {producer : Produced} {originalReference sourceReference : ExactReference}
    {observation : Observation}
    (projected : projectExtractionObservation producer originalReference sourceReference =
      .ok observation) : observation.elements = producer.extraction.elements.map fun e =>
        ⟨e.id, e.text, e.locator.byteRange, e.locator.codePointRange⟩ := by
  rw [projectExtractionObservation] at projected
  split at projected
  · cases projected
  · split at projected
    · cases projected
    · split at projected
      · cases projected
      · split at projected
        · cases projected
        · split at projected
          · cases projected
          · cases projected
            rfl

/-! ### What is extracted can be projected -/

theorem scalarText_of_wellFormed {s : List Nat} (formed : WellFormed s) : scalarText s = true := by
  rw [scalarText, (passes_iff s).mpr (Or.inl formed)]
  rfl

theorem indexUnits_length {k : Nat} : ∀ {n : Nat}, n < 10 ^ (k + 1) → (indexUnits n).length ≤ k + 1 := by
  induction k with
  | zero =>
    intro n small
    rw [indexUnits_small (by simpa using small)]
    simp
  | succ k ih =>
    intro n small
    by_cases digit : n < 10
    · rw [indexUnits_small digit]
      simp
    · have front : n / 10 < 10 ^ (k + 1) := by
        rw [Nat.div_lt_iff_lt_mul (by decide)]
        rwa [Nat.pow_succ] at small
      rw [indexUnits_large digit, List.length_append, List.length_singleton]
      have := ih front
      omega

/-- `line-1`, `line-2` and so on are identifiers. -/
theorem isIdentifier_line {n : Nat} (small : n ≤ 1048576) :
    isIdentifier (units "line-" ++ indexUnits n) = true := by
  have short := indexUnits_length (k := 6) (n := n) (by omega)
  have opened : units "line-" ++ indexUnits n = 108 :: ([105, 110, 101, 45] ++ indexUnits n) := rfl
  rw [opened]
  simp only [isIdentifier, Bool.and_eq_true, decide_eq_true_eq, List.length_append, List.all_append]
  refine ⟨⟨by decide, by simp; omega⟩, by decide, ?_⟩
  rw [List.all_eq_true]
  intro c member
  have digit := digits_indexUnits n c member
  simp [PathTemplate.isAlnum, digit]

theorem isSafe_iff {n : Nat} : isSafe n = true ↔ n ≤ 9007199254740991 := by
  rw [isSafe, decide_eq_true_eq, maxSafe]

/-- Ranges within an original are pairs. -/
theorem isPair_of_le {start stop : Nat} (ordered : start ≤ stop) (small : stop ≤ 1048576) :
    isPair (start, stop) = true := by
  rw [isPair, isSafe_iff.mpr (by omega), isSafe_iff.mpr (by omega), decide_eq_true ordered]
  rfl

/-- Lines of a text within the limit make elements of the shape. -/
theorem trialElement_elementsFrom {sha256 : List Nat} (digest : isSha256 sha256 = true)
    {values : List (List Nat)} : ∀ {index byte point : Nat},
    (∀ value ∈ values, WellFormed value) → index + values.length ≤ 1048576 →
    byte + (values.map byteLength).sum ≤ 1048576 →
    point + (values.map codePointCount).sum ≤ 1048576 →
    ∀ e ∈ elementsFrom sha256 index byte point values,
      trialElement e = true ∧ e.locator.original = sha256 := by
  induction values with
  | nil => simp [elementsFrom]
  | cons value rest ih =>
    intro index byte point formed count bytes points e member
    rw [List.length_cons] at count
    rw [List.map_cons, List.sum_cons] at bytes points
    rcases List.mem_cons.mp member with rfl | later
    · have scalar := scalarText_of_wellFormed (formed value (List.mem_cons_self ..))
      have size := length_le_size value
      rw [← byteLength] at size
      have short : value.length ≤ 1048576 := by omega
      have low : index + 1 ≤ 1048576 := by omega
      have here := isPair_of_le (Nat.le_add_right byte (byteLength value)) (by omega)
      have here' := isPair_of_le (Nat.le_add_right point (codePointCount value)) (by omega)
      refine ⟨?_, rfl⟩
      simp only [trialElement, isText, textLocator, isIdentifier_line low, scalar, digest, here, here',
        decide_eq_true short, Bool.and_self]
    · exact ih (fun v inside => formed v (List.mem_cons_of_mem _ inside)) (by omega) (by omega)
        (by omega) e later

section Projected

variable {digest : ByteArray → List Nat} {runtime : Runtime} {bytes : ByteArray} {produced : Produced}

/-- The extractor's output has the shape that the projection asks for. -/
theorem extract_shape (extracted : extract digest runtime bytes = .ok produced)
    (hex : isSha256 (digest bytes) = true) :
    jsonValue produced.raw = true ∧ processingExtractionShape produced.extraction = true ∧
      isInventory produced.extraction.inventory = true ∧
      (∀ e ∈ produced.extraction.elements, e.locator.original = digest bytes) ∧
      produced.extraction.elements.length ≤ bytes.size := by
  obtain ⟨within_, read, elements, original, outcome, unsupported, inventory, -⟩ := extract_ok extracted
  obtain ⟨front, whole, before, formed⟩ := strictText_ok read
  have cut := cut_lines produced.raw.text
  have texts := elementsFrom_text (digest bytes) 0 produced.raw.bomBytes 0 (lines produced.raw.text)
  rw [← elements] at texts
  have size : produced.raw.bomBytes + (encodeUtf8 produced.raw.text).size = bytes.size := by
    rw [← before, ← ByteArray.size_append, ← whole]
  have letters_le := length_le_size produced.raw.text
  have points : codePointCount produced.raw.text ≤ produced.raw.text.length := scalars_length_le _
  -- No line is empty, so there are no more of them than units.
  have count : (lines produced.raw.text).length ≤ produced.raw.text.length := by
    have letters := congrArg List.length cut.flatten
    rw [List.length_flatten] at letters
    exact letters ▸ length_le_sum_length cut.ne_nil
  have listed : produced.extraction.elements.length = (lines produced.raw.text).length := by
    rw [← texts, List.length_map]
  rw [inputBytes] at within_
  have each := @trialElement_elementsFrom _ hex (lines produced.raw.text) 0 produced.raw.bomBytes 0
    (cut.wellFormed formed) (by omega)
    (by rw [show ((lines produced.raw.text).map byteLength).sum = _ from cut.bytes]; omega)
    (by
      rw [show ((lines produced.raw.text).map codePointCount).sum = _ from cut.points]
      rw [codePointCount] at points
      omega)
  rw [← elements] at each
  refine ⟨scalarText_of_wellFormed formed, ?_, ?_, fun e member => (each e member).2, by omega⟩
  · have all : produced.extraction.elements.all trialElement = true := by
      rw [List.all_eq_true]
      exact fun e member => (each e member).1
    have named : isOriginal produced.extraction.original = true := by
      have name : isText 256 (units "original") = true := by decide +kernel
      simp only [original, isOriginal, hex, decide_eq_true within_, name, Bool.and_self]
    have few : produced.extraction.elements.length ≤ textElements := by
      rw [textElements]
      omega
    simp only [processingExtractionShape, all, named, unsupported, decide_eq_true few]
    rfl
  · simp only [inventory, isInventory, Bool.and_eq_true, isSafe_iff]
    omega

/-- With references to the original and to the source, the extractor's output is projected. -/
theorem extract_projects (extracted : extract digest runtime bytes = .ok produced)
    (machine : isRuntime runtime = true) {originalReference sourceReference : ExactReference}
    (exact : exactReference originalReference = true) (exact' : exactReference sourceReference = true)
    (same : originalReference.sha256 = digest bytes) : ∃ observation,
      projectExtractionObservation produced originalReference sourceReference = .ok observation := by
  have hex : isSha256 (digest bytes) = true := by
    rw [exactReference, Bool.and_eq_true] at exact
    rw [← same]
    exact exact.2
  obtain ⟨json, shape, inventory, located, count⟩ := extract_shape extracted hex
  obtain ⟨-, -, -, original, outcome, unsupported, -, run⟩ := extract_ok extracted
  have inspected : inspectExtraction produced.extraction = .ok () := by
    have none : (produced.extraction.elements.any fun e =>
        e.locator.original != produced.extraction.original.sha256) = false := by
      rw [List.any_eq_false, original]
      intro e member
      simp [located e member]
    rw [inspectExtraction, shape, inventory, outcome, unsupported, none]
    rfl
  have bound : ¬max 1 produced.extraction.original.bytes < produced.extraction.elements.length := by
    rw [original]
    exact not_lt.mpr (le_max_of_le_right count)
  rw [projectExtractionObservation, json, shape, run, machine, exact, exact', inspected]
  simp only [Bool.and_self, Bool.not_true, Bool.false_eq_true, if_false, if_neg bound]
  rw [if_neg (by rw [original]; exact not_not.mpr same)]
  exact ⟨_, rfl⟩

end Projected

/-- The extractor returns for valid UTF-8 within the limit. Its elements partition the original, and the
projection keeps their texts and both their ranges. -/
theorem extract_partitions (digest : ByteArray → List Nat) (runtime : Runtime) (bytes : ByteArray) :
    ((∃ produced, extract digest runtime bytes = .ok produced) ↔ bytes.size ≤ inputBytes ∧
      hasUtf16Mark bytes = false ∧
        ∃ text : String, bytes.extract (bomBytes bytes) bytes.size = text.toUTF8) ∧
    ∀ produced, extract digest runtime bytes = .ok produced →
      strictText bytes = .ok produced.raw ∧
      Partitions bytes produced.raw produced.extraction.elements ∧
      (∀ originalReference sourceReference observation,
        projectExtractionObservation produced originalReference sourceReference = .ok observation →
          observation.elements = produced.extraction.elements.map fun e =>
            ⟨e.id, e.text, e.locator.byteRange, e.locator.codePointRange⟩) ∧
      ∀ originalReference sourceReference, isRuntime runtime = true →
        exactReference originalReference = true → exactReference sourceReference = true →
        originalReference.sha256 = digest bytes → ∃ observation,
          projectExtractionObservation produced originalReference sourceReference = .ok observation := by
  constructor
  · rw [extract_returns, strictText_iff]
  · intro produced extracted
    obtain ⟨-, read, elements, -⟩ := extract_ok extracted
    obtain ⟨front, whole, before, -⟩ := strictText_ok read
    refine ⟨read, ?_, ?_, ?_⟩
    · rw [elements]
      exact partitions whole before (digest bytes)
    · intro originalReference sourceReference observation projected
      exact projected_elements projected
    · intro originalReference sourceReference machine exact exact' same
      exact extract_projects extracted machine exact exact' same

/-- A mark, a line ended by both letters, an empty line and a rest beyond the first plane. -/
def markedText : ByteArray := ⟨#[239, 187, 191, 97, 13, 10, 10, 240, 159, 153, 130]⟩

/-- The digest of these bytes. -/
def markedDigest : List Nat :=
  units "f91de9b137c16663c3a7d27705e1bcf0748e444a2c298287dcee0a5d9db9f95e"

theorem extract_partitions_marked : Partitions markedText ⟨[97, 13, 10, 10, 0xD83D, 0xDE42], 3⟩
    (elementsFrom markedDigest 0 3 0 [[97, 13, 10], [10], [0xD83D, 0xDE42]]) := by
  have extracted : extract (fun _ => markedDigest) ⟨[], [], 0⟩ markedText = .ok {
      raw := ⟨[97, 13, 10, 10, 0xD83D, 0xDE42], 3⟩
      extraction := {
        original := ⟨units "original", 11, markedDigest⟩
        outcome := .completed
        unsupported := []
        inventory := ⟨11, 5, 3, 3⟩
        elements := elementsFrom markedDigest 0 3 0 [[97, 13, 10], [10], [0xD83D, 0xDE42]] }
      runtime := ⟨[], [], 0⟩ } := by
    decide +kernel
  exact ((extract_partitions (fun _ => markedDigest) ⟨[], [], 0⟩ markedText).2 _ extracted).2.1

end LedgerDesk.Extraction
