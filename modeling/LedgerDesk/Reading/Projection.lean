import LedgerDesk.Reading.Policy

/-!
# Preparing a reading

What the grant of a material lets the response show of it, the highest kind first. The stored
columns have the types the tables give them; what is inside them is any JSON value, and reading it
may throw, which is `none` here.
-/
namespace LedgerDesk.Reading

open Agents (Json codeUnits numberText)

/-! ### The contract -/

namespace TrialLimits

def references : Nat := 16
def fragments : Nat := 8
def text : Nat := 100000
def titleOrCondition : Nat := 256
def id : Nat := 128

end TrialLimits

def editorialStates : List String :=
  ["CANDIDATE", "REJECTED", "APPROVED_UNPUBLISHED", "PUBLISHED", "SUSPENDED", "SUPERSEDED",
    "WITHDRAWN"]

def substantiveFunctions : List String := ["DEFINITIONAL", "NORMATIVE", "OPERATIONAL", "FACTUAL"]

def validityBases : List String :=
  ["SCOPE_ADOPTION", "APPLICABLE_EXTERNAL_AUTHORITY", "VERIFIABLE_ATTESTATION",
    "NON_AUTHORITATIVE_REFERENCE"]

def applicationScopes : List String := ["REUSABLE_WITH_CONDITIONS", "SITUATED"]

inductive OriginalLanguage where
  | es
  | en
  deriving DecidableEq, Repr

structure Classification where
  substantive_function : String
  validity_basis : String
  application_scope : String
  deriving DecidableEq, Repr

structure Metadata where
  title : Option String
  locator : Option String
  editorial_state : Option String
  classification : Option Classification
  reading_conditions : Option (List String)
  deriving DecidableEq, Repr

structure Fragment where
  fragment_id : String
  text : String
  locator : Option String
  deriving DecidableEq, Repr

inductive View where
  | REFERENCE
  | EXCERPT (original_language : OriginalLanguage) (fragments : List Fragment)
  | CONTENT (original_language : OriginalLanguage) (original_text : String)
  deriving DecidableEq, Repr

/-- `unit_id` and `version_id`. -/
abbrev ExactRequest := String × String

structure Projection where
  reference : ExactRequest
  metadata : Metadata
  view : View
  deriving DecidableEq, Repr

def View.kind : View → Disclosure
  | .REFERENCE => .REFERENCE
  | .EXCERPT _ _ => .EXCERPT
  | .CONTENT _ _ => .CONTENT

def View.fragments : View → List Fragment
  | .EXCERPT _ fragments => fragments
  | _ => []

def Metadata.has (metadata : Metadata) : MetadataKey → Bool
  | .title => metadata.title.isSome
  | .locator => metadata.locator.isSome
  | .editorial_state => metadata.editorial_state.isSome
  | .classification => metadata.classification.isSome
  | .reading_conditions => metadata.reading_conditions.isSome

/-- By code points. -/
def isString (maximum minimum : Nat) (value : String) : Bool :=
  value.toList.length ≤ maximum && minimum ≤ value.toList.length

def validId (value : String) : Bool := isString TrialLimits.id 1 value

def Metadata.valid (metadata : Metadata) : Bool :=
  metadata.title.all (isString TrialLimits.titleOrCondition 0) &&
    metadata.locator.all (isString TrialLimits.text 0) &&
    metadata.editorial_state.all (· ∈ editorialStates) &&
    (metadata.classification.all fun c => c.substantive_function ∈ substantiveFunctions &&
      c.validity_basis ∈ validityBases && c.application_scope ∈ applicationScopes) &&
    metadata.reading_conditions.all fun conditions =>
      conditions.all (isString TrialLimits.titleOrCondition 0)

def Fragment.valid (fragment : Fragment) : Bool :=
  validId fragment.fragment_id && isString TrialLimits.text 0 fragment.text &&
    fragment.locator.all (isString TrialLimits.text 0)

def View.valid : View → Bool
  | .REFERENCE => true
  | .EXCERPT _ fragments =>
    !fragments.isEmpty && fragments.length ≤ TrialLimits.fragments && fragments.all Fragment.valid
  | .CONTENT _ text => isString TrialLimits.text 0 text

/-- What `validateDetailResponse` asks beyond the types of the fields. -/
def Projection.valid (projection : Projection) : Bool :=
  validId projection.reference.1 && validId projection.reference.2 &&
    projection.metadata.valid && projection.view.valid

inductive Problem where
  | unavailable
  | technical
  deriving DecidableEq, Repr

def Problem.status : Problem → Nat
  | .unavailable => 404
  | .technical => 503

inductive Response where
  | list (items : List Projection) (existence_signal : Bool)
  | detail (projection : Projection)
  | problem (problem : Problem)
  deriving DecidableEq, Repr

def validateListResponse (items : List Projection) : Bool :=
  items.length ≤ TrialLimits.references && items.all fun p => p.view.kind = .REFERENCE && p.valid

/-! ### What a grant shows of a material -/

structure StoredMaterial where
  deploymentId : String
  scopeId : String
  reference : ExactRequest
  originalLanguage : OriginalLanguage
  originalText : String
  metadata : List (String × Json)
  fragments : List Json
  requirements : List (String × Json)
  policy : Json

structure RawFragment where
  fragment_id : String
  text : Option Json
  locator : Option Json

/-- A property of any value: null has none to read. -/
def property : Option Json → String → Option (Option Json)
  | none, _ => none
  | some .null, _ => none
  | some value, key => some (field value key)

/-- `Boolean(value.length)`. -/
def hasLength : Json → Bool
  | .text value => value ≠ ""
  | .array items => !items.isEmpty
  | .object members => truthy (members.lookup "length")
  | _ => false

/-- `===` of values that are not one object. -/
def strictlyEqual : Option Json → Option Json → Bool
  | none, none => true
  | some .null, some .null => true
  | some (.boolean a), some (.boolean b) => a = b
  | some (.number a), some (.number b) => a = b
  | some (.text a), some (.text b) => a = b
  | _, _ => false

mutual

/-- `String(value)`, which an object of its own `toString` does not let be done. -/
def coerced : Json → Option String
  | .null => some "null"
  | .boolean value => some (toString value)
  | .number value => some (numberText value)
  | .text value => some value
  | .array items => (coercedItems items).map (String.intercalate ",")
  | .object members => if members.any (·.1 = "toString") then none else some "[object Object]"

def coercedItems : List Json → Option (List String)
  | [] => some []
  | .null :: items => (coercedItems items).map ("" :: ·)
  | item :: items => do return (← coerced item) :: (← coercedItems items)

end

/-- `text.includes(value)`. -/
def includes (text : String) (value : Json) : Option Bool :=
  (coerced value).map fun part => decide (part.toList <:+: text.toList)

section Projected

variable (material : StoredMaterial) (grant : Grant)

def permittedMetadata : List (String × Json) :=
  metadataKeys.filterMap fun key =>
    if key ∈ grant.metadata then (material.metadata.lookup key.text).map (key.text, ·) else none

/-- The fragments of the grant, in the order of the material. -/
def permittedFragments : Option (List RawFragment) := do
  let fragments ← material.fragments.mapM fun fragment => do
    match (← property (some fragment) "fragment_id").bind text? with
    | none => return none
    | some id =>
      if id ∉ grant.fragmentIds then return none
      return some { fragment_id := id
                    text := field fragment "text"
                    locator := if id ∈ grant.fragmentLocatorIds then field fragment "locator" else none }
  return fragments.reduceOption

/-- The kind is asked for, and what it needs is among what is shown. -/
def prerequisites (kind : Disclosure) (kindText : String) (metadata : List (String × Json))
    (fragments : List RawFragment) : Option Bool := do
  let required := material.requirements.lookup kindText
  if !truthy required then return false
  let keys ← (← property required "metadata").bind items?
  let conditions := metadata.lookup "reading_conditions"
  if !keys.all fun key => (metadataKey? key).any fun key => (metadata.lookup key.text).isSome then
    return false
  if (keys.any fun key => text? key = some "reading_conditions") && !conditions.any hasLength then
    return false
  let state := material.metadata.lookup "editorial_state"
  let shown := metadata.lookup "editorial_state"
  if state.bind text? ≠ some "PUBLISHED" &&
      (!strictlyEqual shown state || !truthy shown || !conditions.any hasLength) then
    return false
  if kind = .EXCERPT then
    let ids ← match ← property required "fragmentIds" with
      | none => some []
      | some .null => some []
      | some value => items? value
    return ids.all fun id => fragments.any fun f => text? id = some f.fragment_id
  return true

/-- An empty fragment, or one that is not of the original. -/
def anyForeign : List RawFragment → Option Bool
  | [] => some false
  | fragment :: fragments => do
    match fragment.text with
    | none => none
    | some .null => none
    | some text =>
      if !hasLength text then return true
      if !(← includes material.originalText text) then return true
      anyForeign fragments

/-! The shape of what is shown, where it has one. -/

def optionalField {α : Type} (members : List (String × Json)) (key : String)
    (read : Json → Option α) : Option (Option α) :=
  match members.lookup key with
  | none => some none
  | some value => (read value).map some

def readClassification : Json → Option Classification
  | .object members => do
    guard (members.all fun member =>
      member.1 ∈ ["substantive_function", "validity_basis", "application_scope"])
    let substantive_function ← (members.lookup "substantive_function").bind text?
    let validity_basis ← (members.lookup "validity_basis").bind text?
    let application_scope ← (members.lookup "application_scope").bind text?
    return { substantive_function, validity_basis, application_scope }
  | _ => none

def readMetadata (members : List (String × Json)) : Option Metadata := do
  let title ← optionalField members "title" text?
  let locator ← optionalField members "locator" text?
  let editorial_state ← optionalField members "editorial_state" text?
  let classification ← optionalField members "classification" readClassification
  let reading_conditions ← optionalField members "reading_conditions" fun value =>
    (items? value).bind fun items => items.mapM text?
  return { title, locator, editorial_state, classification, reading_conditions }

def readFragment (fragment : RawFragment) : Option Fragment := do
  let text ← fragment.text.bind text?
  let locator ← match fragment.locator with
    | none => some none
    | some value => (text? value).map some
  return { fragment_id := fragment.fragment_id, text, locator }

/-- `validateDetailResponse` of the projection of a kind, with the projection it lets through. -/
def validateDetail (kind : Disclosure) (metadata : List (String × Json))
    (fragments : List RawFragment) : Option Projection := do
  let metadata ← readMetadata metadata
  let view ← match kind with
    | .CONTENT => some (.CONTENT material.originalLanguage material.originalText)
    | .EXCERPT => (fragments.mapM readFragment).map (.EXCERPT material.originalLanguage)
    | _ => some .REFERENCE
  let projection : Projection := ⟨material.reference, metadata, view⟩
  guard projection.valid
  return projection

structure Projected where
  projection : Option Projection
  invalid : Bool

/-- One turn of the loop over the kinds; nothing where the next one is tried. -/
def offer (metadata : List (String × Json)) (fragments : List RawFragment) (kind : Disclosure)
    (kindText : String) : Option (Option Projected) := do
  if grant.maximum.level < kind.level then return none
  if !(← prerequisites material kind kindText metadata fragments) then return none
  if kind = .EXCERPT then
    if fragments.isEmpty then return none
    if !(fragments.map RawFragment.fragment_id).Nodup then return some ⟨none, true⟩
    if ← anyForeign material fragments then return some ⟨none, true⟩
  match validateDetail material kind metadata fragments with
  | some projection => return some ⟨some projection, false⟩
  | none => return some ⟨none, true⟩

def offerFirst (metadata : List (String × Json)) (fragments : List RawFragment) :
    List (Disclosure × String) → Option Projected
  | [] => some ⟨none, false⟩
  | kind :: kinds => do
    match ← offer material grant metadata fragments kind.1 kind.2 with
    | some result => return result
    | none => offerFirst metadata fragments kinds

def candidateKinds : ReadingAction → List (Disclosure × String)
  | .list => [(.REFERENCE, "REFERENCE")]
  | .exact => [(.CONTENT, "CONTENT"), (.EXCERPT, "EXCERPT"), (.REFERENCE, "REFERENCE")]

def projected (action : ReadingAction) : Option Projected := do
  if grant.maximum.level < 2 then return ⟨none, false⟩
  let metadata := permittedMetadata material grant
  let fragments ← permittedFragments material grant
  offerFirst material grant metadata fragments (candidateKinds action)

end Projected

/-! ### The population -/

inductive ReadingOperation where
  | list
  | exact (reference : ExactRequest)
  deriving DecidableEq, Repr

def ReadingOperation.kind : ReadingOperation → ReadingAction
  | .list => .list
  | .exact _ => .exact

structure Prepared where
  decisions : List (ExactRequest × PolicyCause)
  visible : List Projection
  existence : Bool
  invalid : Bool
  earliestExpiry : Option ℚ

def Prepared.empty : Prepared := ⟨[], [], false, false, none⟩

def earlier (expiry : Option ℚ) (ending : ℚ) : Option ℚ :=
  some (expiry.elim ending (min · ending))

structure PreparedReading where
  response : Response
  decisions : List (ExactRequest × PolicyCause)
  earliestExpiry : Option ℚ

section Prepare

variable (context : ReadingContext) (operation : ReadingOperation) (now : Option ℚ)

def inContext (material : StoredMaterial) : Bool :=
  material.deploymentId = context.deploymentId && material.scopeId = context.scopeId

/-- The material is what the response is about. -/
def contributes (material : StoredMaterial) (grant : Grant) (prepared : Projected) : Bool :=
  match operation with
  | .list => prepared.projection.isSome || grant.maximum = .EXISTENCE
  | .exact reference => prepared.projection.isSome && material.reference = reference

/-- What a material that is granted adds, if it can be read. -/
def grantTurn (acc : Prepared) (material : StoredMaterial) (grant : Grant) : Prepared :=
  match projected material grant operation.kind with
  | none => { acc with decisions := acc.decisions ++ [(material.reference, .INDETERMINATE)] }
  | some prepared =>
    let earliestExpiry :=
      match grant.validUntil with
      | some ending =>
        if contributes operation material grant prepared then earlier acc.earliestExpiry ending
        else acc.earliestExpiry
      | none => acc.earliestExpiry
    if prepared.invalid then
      { acc with
        invalid := true
        earliestExpiry
        decisions := acc.decisions ++ [(material.reference, .PROFILE_INVALID)] }
    else if grant.maximum = .EXISTENCE then
      { acc with
        existence := true
        earliestExpiry
        decisions := acc.decisions ++ [(material.reference, .ALLOWED)] }
    else match prepared.projection with
      | some projection =>
        { acc with
          visible := acc.visible ++ [projection]
          earliestExpiry
          decisions := acc.decisions ++ [(material.reference, .ALLOWED)] }
      | none =>
        { acc with
          earliestExpiry
          decisions := acc.decisions ++ [(material.reference, .CONTEXT_UNAVAILABLE)] }

def turn (acc : Prepared) (material : StoredMaterial) : Prepared :=
  if !inContext context material then acc
  else
    let decision := evaluatePolicy context operation.kind material.policy now
    match decision.grant with
    | none => { acc with decisions := acc.decisions ++ [(material.reference, decision.cause)] }
    | some grant => grantTurn operation acc material grant

/-- By code units, the unit first. -/
def ordinalLe (a b : Projection) : Bool :=
  codeUnits a.reference.1 < codeUnits b.reference.1 ||
    (a.reference.1 = b.reference.1 && codeUnits a.reference.2 ≤ codeUnits b.reference.2)

/-- Two references have one JSON text exactly if they are one. -/
def respond (acc : Prepared) : Response :=
  if acc.invalid || !(acc.visible.map Projection.reference).Nodup then .problem .technical
  else match operation with
    | .list =>
      let items := acc.visible.mergeSort ordinalLe
      if validateListResponse items then .list items acc.existence else .problem .technical
    | .exact reference =>
      match acc.visible.find? fun p => p.reference = reference with
      | some projection => .detail projection
      | none => .problem .unavailable

def prepareReading (population : List StoredMaterial) : PreparedReading :=
  let acc := population.foldl (turn context operation now) .empty
  ⟨respond operation acc, acc.decisions, acc.earliestExpiry⟩

end Prepare

end LedgerDesk.Reading
