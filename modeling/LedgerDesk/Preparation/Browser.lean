import LedgerDesk.Foundation.Checks
import LedgerDesk.Preparation.Contract

/-!
# The document of the browser

What a person selects of an accepted extraction and declares about it is turned into the document
that is staged, with the selection and the input that are reserved for it.
-/
namespace LedgerDesk.Preparation

open Foundation

/-! ### The draft -/

structure ClassificationAxis (α : Type) where
  value : Option α
  reason : String
  deriving DecidableEq, Repr

structure ClassificationDraft where
  function : ClassificationAxis UnitFunction
  basis : ClassificationAxis UnitBasis
  scope : ClassificationAxis UnitScope
  deriving DecidableEq, Repr

structure DependencyDraft where
  id : String
  source : String
  target : String
  required : Bool
  deriving DecidableEq, Repr

structure ExaminationDraft where
  outcome : Option ExaminationOutcome
  reason : String
  deriving DecidableEq, Repr

structure CoverageDraft where
  completeSourceClaim : Bool
  reason : String
  deriving DecidableEq, Repr

structure PreparationDraft where
  selected : List String
  corrections : List (String × String)
  classification : ClassificationDraft
  conditions : List Condition
  dependencies : List DependencyDraft
  examination : ExaminationDraft
  coverage : CoverageDraft
  changeReason : String
  deriving DecidableEq, Repr

/-! ### The extraction, as the browser has it -/

inductive ExtractionView where
  | metadata
  | content
  deriving DecidableEq, Repr

structure ExtractionResult where
  effect : Exact
  content : Option ExtractionContent
  deriving DecidableEq, Repr

structure ExtractionResponse where
  id : String
  view : ExtractionView
  result : Option ExtractionResult
  deriving DecidableEq, Repr

/-- What is staged, and what is reserved for it. -/
structure BuiltDocument where
  document : Document
  selection : List Selection
  inputs : List Selector
  deriving DecidableEq, Repr

/-! ### The document -/

/-- The places of a source element in the one input. -/
def sourcePlaces : ExtractionOrigin → List Localizer
  | .stretch range =>
    [⟨"source", .bytes, "original:" ++ toString range.bytes.1 ++ ".." ++ toString range.bytes.2,
      some range.bytes, some range.code_points⟩]
  | .located antecedents =>
    antecedents.map fun loc => ⟨"source", loc.kind, loc.coordinates, loc.byte_range, none⟩

/-- A selected element with its correction, and whether that changes it. -/
def correctElement (corrections : List (String × String)) (source : ExtractionElement) :
    Except String (Element × Bool) :=
  match corrections.lookup source.id with
  | none => .ok (⟨source.id, source.body, sourcePlaces source.origin⟩, false)
  | some text =>
    match source.body with
    | .text old => .ok (⟨source.id, .text text, sourcePlaces source.origin⟩, text ≠ old)
    | _ => .error "Only text corrections are offered."

def selectionRow (source : ExtractionElement) : Selection where
  input_id := "source"
  element_id := source.id
  local_id := source.id
  resource := source.body.resource?
  local_resource_id := source.body.resource?.map fun _ => source.id

/-- A relation of the source is retained with both its ends. -/
def retainRelation (selected : List String) (relation : Relation) :
    Except String (Option Relation) :=
  if decide (relation.source ∈ selected) ≠ decide (relation.target ∈ selected) then
    .error "Retain both ends of the source dependency."
  else if relation.source ∈ selected then
    .ok (some { relation with id := "source:" ++ relation.id })
  else .ok none

def declareDependency (selected : List String) (relation : DependencyDraft) :
    Except String Relation :=
  if relation.source ∉ selected ∨ relation.target ∉ selected then
    .error "A declared dependency needs two selected endpoints."
  else .ok {
    id := relation.id
    source := relation.source
    target := relation.target
    role := if relation.required then .indispensable else .context
    scope := "Selected preparation unit"
    origin := .prepared }

def classifyAxis {α : Type} (axis : ClassificationAxis α) : Axis α where
  value := axis.value
  reason := if axis.value.isNone then some axis.reason else none

/-- What the document changes or adds. -/
def draftAffected (draft : PreparationDraft) (picked : List (Element × Bool)) : List Affected :=
  (picked.filter Prod.snd).map (fun p => ⟨.element, p.1.id⟩) ++
    draft.dependencies.map (fun relation => ⟨.relation, relation.id⟩) ++
    draft.conditions.map fun condition => ⟨.condition, condition.id⟩

def draftUnit (content : ExtractionContent) (draft : PreparationDraft) (outcome : ExaminationOutcome)
    (elements : List Element) : PreparedUnit where
  id := "selected-material"
  elements := elements.map Element.id
  conditions := draft.conditions.map Condition.id
  inseparable_group := none
  classification := ⟨classifyAxis draft.classification.function,
    classifyAxis draft.classification.basis, classifyAxis draft.classification.scope⟩
  examination := ⟨outcome, draft.examination.reason⟩
  coverage := {
    components := content.components.map fun c => "source:" ++ c.id
    complete_source_claim := draft.coverage.completeSourceClaim
    reason := draft.coverage.reason }

def draftDocument (content : ExtractionContent) (draft : PreparationDraft)
    (outcome : ExaminationOutcome) (picked : List (Element × Bool)) (relations : List Relation) :
    Document where
  transformation := if (draftAffected draft picked).isEmpty then .exact_selection else .correction
  elements := picked.map Prod.fst
  relations := relations
  conditions := draft.conditions
  units := [draftUnit content draft outcome (picked.map Prod.fst)]
  differences :=
    if (draftAffected draft picked).isEmpty then []
    else [⟨["source"], .correction, .cleanup, draft.changeReason, draftAffected draft picked⟩]
  transformations := none
  observation := none

def selectedOf (content : ExtractionContent) (draft : PreparationDraft) : List ExtractionElement :=
  content.elements.filter fun source => source.id ∈ draft.selected

def buildDocument (content : ExtractionContent) (draft : PreparationDraft)
    (outcome : ExaminationOutcome) : Except String Document := do
  let picked ← (selectedOf content draft).mapM (correctElement draft.corrections)
  ensure (picked.length = draft.selected.dedup.length)
    "The selection no longer matches the exact extraction."
  let retained ← content.relations.mapM (retainRelation draft.selected)
  let declared ← draft.dependencies.mapM (declareDependency draft.selected)
  ensure ((draftAffected draft picked).isEmpty || draft.changeReason ≠ "")
    "Explain the declared changes before saving."
  let document := draftDocument content draft outcome picked (retained.reduceOption ++ declared)
  ensure (isDocument document)
    "Complete the human declarations with values or explicit unresolved reasons."
  return document

def preparationDocument (extraction : ExtractionResponse) (draft : PreparationDraft) :
    Except String BuiltDocument :=
  let refused := "Select content and record an examination before saving."
  match extraction.result with
  | none => .error refused
  | some result =>
    match result.content, draft.examination.outcome with
    | some content, some outcome =>
      if extraction.view ≠ .content ∨ draft.selected = [] then .error refused
      else do
        let document ← buildDocument content draft outcome
        return {
          document
          selection := (selectedOf content draft).map selectionRow
          inputs := [⟨"source", result.effect, some extraction.id⟩] }
    | _, _ => .error refused

end LedgerDesk.Preparation
