import LedgerDesk.Contracts.Scalars
import LedgerDesk.Gateway.Redaction
import LedgerDesk.Reading.Projection

/-!
# The reading contract

What a viewer takes for a response of the reading service. A check names the first thing that is
wrong with a value and the place where it is; what it lets through is read as it stands, and what a
problem has beside its four members is left out.
-/
namespace LedgerDesk.Reading

open Foundation Foundation.JsonUnits
open Contracts (codePoints)

/-! ### Checks -/

inductive IssueCode where
  | TYPE
  | REQUIRED
  | ADDITIONAL_PROPERTY
  | ENUM
  | CONST
  | MIN_LENGTH
  | MAX_LENGTH
  | MIN_ITEMS
  | MAX_ITEMS
  | HTTP_STATUS_MISMATCH
  deriving DecidableEq, Repr

structure ValidationIssue where
  code : IssueCode
  path : String
  deriving DecidableEq, Repr

abbrev Check (ν : Type) := Value ν → String → Option ValidationIssue

section Checks

variable {ν : Type}

def hasOwn (members : List (List Nat × Value ν)) (key : String) : Bool :=
  members.any fun member => member.1 = units key

def own (members : List (List Nat × Value ν)) (key : String) : Option (Value ν) :=
  members.lookup (units key)

/-- `object(fields, required)`. -/
def objectCheck (fields : List (String × Check ν)) (required : List String) : Check ν
  | .object members, path =>
    if members.any fun member => !fields.any fun field => units field.1 = member.1 then
      some ⟨.ADDITIONAL_PROPERTY, path⟩
    else match required.find? fun key => !hasOwn members key with
      | some key => some ⟨.REQUIRED, path ++ "." ++ key⟩
      | none => fields.findSome? fun field =>
          (own members field.1).bind fun value => field.2 value (path ++ "." ++ field.1)
  | _, path => some ⟨.TYPE, path⟩

/-- Every field is required. -/
def exactObject (fields : List (String × Check ν)) : Check ν :=
  objectCheck fields (fields.map Prod.fst)

/-- `string(max, min)`, by code points. -/
def stringCheck (max : Option Nat) (min : Nat) : Check ν
  | .text string, path =>
    if max.any fun max => max < (codePoints string).length then some ⟨.MAX_LENGTH, path⟩
    else if (codePoints string).length < min then some ⟨.MIN_LENGTH, path⟩
    else none
  | _, path => some ⟨.TYPE, path⟩

def isLiteral (expected : String) : Value ν → Bool
  | .text string => string = units expected
  | _ => false

def literalCheck (expected : String) : Check ν := fun value path =>
  if isLiteral expected value then none else some ⟨.CONST, path⟩

def enumeration (values : List String) : Check ν := fun value path =>
  if values.any fun expected => isLiteral expected value then none else some ⟨.ENUM, path⟩

/-- `array(item, min, max)`. -/
def arrayCheck (item : Check ν) (min : Nat) (max : Option Nat) : Check ν
  | .array items, path =>
    if items.length < min then some ⟨.MIN_ITEMS, path⟩
    else if max.any fun max => max < items.length then some ⟨.MAX_ITEMS, path⟩
    else items.zipIdx.findSome? fun (value, index) =>
      item value (path ++ "[" ++ toString index ++ "]")
  | _, path => some ⟨.TYPE, path⟩

def booleanCheck : Check ν
  | .boolean _, _ => none
  | _, path => some ⟨.TYPE, path⟩

/-! ### The responses -/

def idCheck : Check ν := stringCheck (some TrialLimits.id) 1

def textCheck : Check ν := stringCheck (some TrialLimits.text) 0

def shortText : Check ν := stringCheck (some TrialLimits.titleOrCondition) 0

def referenceCheck : Check ν := exactObject [("unit_id", idCheck), ("version_id", idCheck)]

def classificationCheck : Check ν :=
  exactObject [("substantive_function", enumeration substantiveFunctions),
    ("validity_basis", enumeration validityBases),
    ("application_scope", enumeration applicationScopes)]

def metadataCheck : Check ν :=
  objectCheck [("title", shortText), ("locator", textCheck),
    ("editorial_state", enumeration editorialStates), ("classification", classificationCheck),
    ("reading_conditions", arrayCheck shortText 0 none)] []

def referenceView : Check ν :=
  exactObject [("kind", literalCheck "REFERENCE"), ("reference", referenceCheck),
    ("metadata", metadataCheck)]

def fragmentCheck : Check ν :=
  objectCheck [("fragment_id", idCheck), ("text", textCheck), ("locator", textCheck)]
    ["fragment_id", "text"]

def excerptView : Check ν :=
  exactObject [("kind", literalCheck "EXCERPT"), ("reference", referenceCheck),
    ("metadata", metadataCheck), ("original_language", enumeration ["es", "en"]),
    ("fragments", arrayCheck fragmentCheck 1 (some TrialLimits.fragments))]

def contentView : Check ν :=
  exactObject [("kind", literalCheck "CONTENT"), ("reference", referenceCheck),
    ("metadata", metadataCheck), ("original_language", enumeration ["es", "en"]),
    ("original_text", textCheck)]

def projectionCheck : Check ν
  | .object members, path =>
    match own members "kind" with
    | none => some ⟨.REQUIRED, path ++ ".kind"⟩
    | some kind =>
      if isLiteral "REFERENCE" kind then referenceView (.object members) path
      else if isLiteral "EXCERPT" kind then excerptView (.object members) path
      else if isLiteral "CONTENT" kind then contentView (.object members) path
      else some ⟨.ENUM, path ++ ".kind"⟩
  | _, path => some ⟨.TYPE, path⟩

def listResponse : Check ν :=
  exactObject [("contract", literalCheck "reading/1"),
    ("items", arrayCheck referenceView 0 (some TrialLimits.references)),
    ("existence_signal", booleanCheck)]

def detailResponse : Check ν :=
  exactObject [("contract", literalCheck "reading/1"), ("projection", projectionCheck)]

/-! ### What is read -/

structure Reference where
  unit_id : List Nat
  version_id : List Nat
  deriving DecidableEq, Repr

/-- A projection: its reference, and the whole of it. -/
structure Shown (ν : Type) where
  reference : Reference
  value : Value ν

structure ListResponse (ν : Type) where
  items : List (Shown ν)
  existence_signal : Bool

def member : Value ν → String → Option (Value ν)
  | .object members, key => own members key
  | _, _ => none

def textOf : Value ν → Option (List Nat)
  | .text string => some string
  | _ => none

def readReference (value : Value ν) : Option Reference := do
  let unit_id ← (member value "unit_id").bind textOf
  let version_id ← (member value "version_id").bind textOf
  return { unit_id, version_id }

def readShown (value : Value ν) : Option (Shown ν) := do
  let reference ← (member value "reference").bind readReference
  return { reference, value }

def readList (value : Value ν) : Option (ListResponse ν) := do
  let .array items ← member value "items" | none
  let .boolean existence_signal ← member value "existence_signal" | none
  return { items := ← items.mapM readShown, existence_signal }

def readDetail (value : Value ν) : Option (Shown ν) := (member value "projection").bind readShown

/-- What passes a check, read. There is nothing that passes and cannot be read. -/
def validate {α : Type} (check : Check ν) (read : Value ν → Option α) (value : Value ν) :
    Except ValidationIssue α :=
  match check value "$", read value with
  | some issue, _ => .error issue
  | none, some result => .ok result
  | none, none => .error ⟨.TYPE, "$"⟩

def validateListWire (value : Value ν) : Except ValidationIssue (ListResponse ν) :=
  validate listResponse readList value

def validateDetailWire (value : Value ν) : Except ValidationIssue (Shown ν) :=
  validate detailResponse readDetail value

/-! ### Problems -/

/-- `PROBLEMS`. -/
def problems : List (Nat × String × String) :=
  [(400, "Invalid request", "REQUEST_NOT_ADMITTED"), (403, "Unauthenticated", "UNAUTHENTICATED"),
    (404, "Unavailable", "UNAVAILABLE"), (503, "Technical failure", "TECHNICAL_FAILURE")]

variable (N : Numbers ν)

def statusOf : Value ν → Option Nat
  | .number n => (N.natural n).bind fun status =>
    if (problems.lookup status).isSome then some status else none
  | _ => none

def statusCheck : Check ν := fun value path =>
  if (statusOf N value).isSome then none else some ⟨.ENUM, path⟩

def problemBase : Check ν :=
  exactObject [("type", literalCheck "about:blank"), ("title", stringCheck none 0),
    ("status", statusCheck N), ("code", stringCheck none 0)]

def problemCheck : Check ν := fun value path =>
  match problemBase N value path with
  | some issue => some issue
  | none =>
    match ((member value "status").bind (statusOf N)).bind (List.lookup · problems) with
    | none => some ⟨.ENUM, path ++ ".status"⟩
    | some (title, code) =>
      if !(member value "title").any (isLiteral title) then some ⟨.CONST, path ++ ".title"⟩
      else if !(member value "code").any (isLiteral code) then some ⟨.CONST, path ++ ".code"⟩
      else none

/-- The status of a problem, which is that of its response. -/
def consumeProblem (value : Value ν) (httpStatus : Nat) : Except ValidationIssue Nat :=
  match value with
  | .object members =>
    let projected := ["type", "title", "status", "code"].filterMap fun key =>
      (own members key).map fun value => (units key, value)
    match problemCheck N (.object projected) "$" with
    | some issue => .error issue
    | none =>
      match (own members "status").bind (statusOf N) with
      | none => .error ⟨.ENUM, "$.status"⟩
      | some status =>
        if status = httpStatus then .ok status else .error ⟨.HTTP_STATUS_MISMATCH, "$.status"⟩
  | _ => .error ⟨.TYPE, "$"⟩

end Checks

end LedgerDesk.Reading
