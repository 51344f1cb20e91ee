import LedgerDesk.Preparation.Material

/-!
# The contract of a preparation

The command that reserves it, the document that is staged for it, the payload it comes to, and
the records that seal it.
-/
namespace LedgerDesk.Preparation

namespace Bounds

def documentBytes : Nat := 8388608
def payloadBytes : Nat := 8388608
def inputs : Nat := 128
def units : Nat := 128
def entries : Nat := 10000
def sheets : Nat := 8
def cells : Nat := 10000
def csvRecords : Nat := 1000
def normalizedBytes : Nat := 16777216
def textElements : Nat := 1048576

end Bounds

/-! ### Inputs -/

inductive InputKind where
  | extraction
  | preparation
  deriving DecidableEq, Repr

/-- What only the input of one kind has. -/
structure ExtractionInput where
  job_id : String
  receipt : Exact
  original : Artifact
  source : Exact
  deriving DecidableEq, Repr

/-- `PREPARATION_INPUT`: an extraction if it carries what only an extraction has. -/
structure Input where
  id : String
  reference : Exact
  source_artifact : Artifact
  extraction : Option ExtractionInput
  deriving DecidableEq, Repr

def Input.kind (input : Input) : InputKind :=
  if input.extraction.isSome then .extraction else .preparation

/-- `PREPARATION_INPUT_SELECTOR`: it names a job exactly if it selects an extraction. -/
structure Selector where
  id : String
  reference : Exact
  job_id : Option String
  deriving DecidableEq, Repr

def Selector.kind (selector : Selector) : InputKind :=
  if selector.job_id.isSome then .extraction else .preparation

def isInput (input : Input) : Bool :=
  identifier input.id && exactReference input.reference &&
    match input.extraction with
    | some extraction =>
      identifier extraction.job_id && exactReference extraction.receipt &&
        artifactReference extraction.original && exactReference extraction.source &&
        isArtifact Bounds.normalizedBytes input.source_artifact
    | none => artifactReference input.source_artifact

def isSelector (selector : Selector) : Bool :=
  identifier selector.id && isOptional identifier selector.job_id &&
    exactReference selector.reference

/-! ### Elements, conditions and units -/

structure Element where
  id : String
  body : Body
  antecedents : List Localizer
  deriving DecidableEq, Repr

structure Condition where
  id : String
  text : String
  scope : String
  deriving DecidableEq, Repr

structure ResourceAssociation where
  local_id : String
  element_id : String
  artifact : Artifact
  deriving DecidableEq, Repr

inductive InterruptionOrigin where
  | preparation_annotation
  | instrumented_preparation
  deriving DecidableEq, Repr

structure Interruption where
  component : String
  incident_id : String
  source : Exact
  origin : InterruptionOrigin
  deriving DecidableEq, Repr

inductive UnitFunction where
  | definitional
  | normative
  | operational
  | factual
  deriving DecidableEq, Repr

inductive UnitBasis where
  | domain_adoption
  | applicable_external_authority
  | verifiable_attestation
  | non_authoritative_reference
  deriving DecidableEq, Repr

inductive UnitScope where
  | reusable_with_conditions
  | situated
  deriving DecidableEq, Repr

/-- One axis of a classification: a value, or the reason there is none. -/
structure Axis (α : Type) where
  value : Option α
  reason : Option String
  deriving DecidableEq, Repr

structure Classification where
  function : Axis UnitFunction
  basis : Axis UnitBasis
  scope : Axis UnitScope
  deriving DecidableEq, Repr

inductive ExaminationOutcome where
  | classifiable
  | divide
  | transform
  | block
  | reject
  deriving DecidableEq, Repr

structure Examination where
  outcome : ExaminationOutcome
  reason : String
  deriving DecidableEq, Repr

structure UnitCoverage where
  components : List String
  complete_source_claim : Bool
  reason : String
  deriving DecidableEq, Repr

structure PreparedUnit where
  id : String
  elements : List String
  conditions : List String
  inseparable_group : Option String
  classification : Classification
  examination : Examination
  coverage : UnitCoverage
  deriving DecidableEq, Repr

/-- `PREPARATION_ELEMENT`. -/
def isElement (element : Element) : Bool :=
  identifier element.id && isBody element.body && isArray isLocalizer arrayMax element.antecedents

def isCondition (condition : Condition) : Bool :=
  identifier condition.id && isText 2048 condition.text && isText 512 condition.scope

def isAxis {α : Type} (axis : Axis α) : Bool :=
  isOptional (isText 2048) axis.reason &&
    if axis.value.isNone then axis.reason.any fun reason => 0 < textLength reason
    else axis.reason.isNone

def isUnit (unit : PreparedUnit) : Bool :=
  identifier unit.id && isNonempty identifier Bounds.entries unit.elements &&
    isArray identifier arrayMax unit.conditions && isOptional identifier unit.inseparable_group &&
    (isAxis unit.classification.function && isAxis unit.classification.basis &&
      isAxis unit.classification.scope) &&
    isText 2048 unit.examination.reason &&
    (isArray identifier arrayMax unit.coverage.components && isText 2048 unit.coverage.reason)

/-! ### The command that reserves -/

structure Selection where
  input_id : String
  element_id : String
  local_id : String
  resource : Option Artifact
  local_resource_id : Option String
  deriving DecidableEq, Repr

structure Context where
  scope_id : String
  purpose_id : String
  treatment_revision : Exact
  deriving DecidableEq, Repr

structure Reservation where
  inputs : List Selector
  base : Option Exact
  selection : List Selection
  documentBytes : Nat
  documentSha256 : String
  context : Context
  deriving DecidableEq, Repr

def isSelection (selection : Selection) : Bool :=
  identifier selection.input_id && identifier selection.element_id &&
    identifier selection.local_id && isOptional artifactReference selection.resource &&
    isOptional identifier selection.local_resource_id

/-- `validatePreparationCommand('reserve_preparation', …)`. -/
def validateReservation (reservation : Reservation) : Bool :=
  isNonempty isSelector Bounds.inputs reservation.inputs &&
    isOptional exactReference reservation.base &&
    isArray isSelection Bounds.entries reservation.selection &&
    (isInteger reservation.documentBytes && reservation.documentBytes ≤ Bounds.documentBytes &&
      isDigest reservation.documentSha256) &&
    (identifier reservation.context.scope_id && identifier reservation.context.purpose_id &&
      exactReference reservation.context.treatment_revision) &&
    distinct (reservation.inputs.map Selector.id) &&
    distinct (reservation.selection.map Selection.local_id) &&
    (reservation.selection.all fun row =>
      (reservation.inputs.any fun input => input.id = row.input_id) &&
        row.resource.isSome = row.local_resource_id.isSome) &&
    distinct (reservation.selection.filterMap Selection.local_resource_id)

/-! ### The document -/

inductive Method where
  | exact_selection
  | correction
  | synthesis
  deriving DecidableEq, Repr

inductive Treatment where
  | reproducible_normalization
  | cleanup
  | redaction
  deriving DecidableEq, Repr

inductive AffectedKind where
  | element
  | relation
  | condition
  | coverage
  | provenance
  deriving DecidableEq, Repr

structure Affected where
  kind : AffectedKind
  id : String
  deriving DecidableEq, Repr

structure DifferenceDraft where
  before : List String
  method : Method
  transformation : Treatment
  reason : String
  affected : List Affected
  deriving DecidableEq, Repr

structure Transformation where
  source : String
  target : String
  deriving DecidableEq, Repr

structure ObservedInterruption where
  component : String
  incident_id : String
  deriving DecidableEq, Repr

structure Observation where
  components : List Component
  incidents : List Incident
  inventory : Inventory
  interruptions : List ObservedInterruption
  deriving DecidableEq, Repr

structure Document where
  transformation : Method
  elements : List Element
  relations : List Relation
  conditions : List Condition
  units : List PreparedUnit
  differences : List DifferenceDraft
  transformations : Option (List Transformation)
  observation : Option Observation
  deriving DecidableEq, Repr

def isAffected (affected : Affected) : Bool := identifier affected.id

def isDifferenceDraft (difference : DifferenceDraft) : Bool :=
  isNonempty identifier arrayMax difference.before && isText 2048 difference.reason &&
    isNonempty isAffected Bounds.entries difference.affected

def isTransformation (transformation : Transformation) : Bool :=
  identifier transformation.source && identifier transformation.target

def isObservation (observation : Observation) : Bool :=
  isArray isComponent Bounds.entries observation.components &&
    isArray isIncident Bounds.entries observation.incidents &&
    isArray (fun edge : ObservedInterruption =>
      identifier edge.component && identifier edge.incident_id) Bounds.entries
      observation.interruptions

/-- `PREPARATION_DOCUMENT`. -/
def isDocument (document : Document) : Bool :=
  isArray isElement Bounds.entries document.elements &&
    isArray isRelation Bounds.entries document.relations &&
    isArray isCondition Bounds.entries document.conditions &&
    isArray isUnit Bounds.units document.units &&
    isArray isDifferenceDraft arrayMax document.differences &&
    isOptional (isArray isTransformation Bounds.entries) document.transformations &&
    isOptional isObservation document.observation &&
    (distinct (document.elements.map Element.id) && distinct (document.relations.map Relation.id) &&
      distinct (document.conditions.map Condition.id) &&
      distinct (document.units.map PreparedUnit.id))

/-! ### The payload -/

structure Payload where
  inputs : List Input
  elements : List Element
  relations : List Relation
  resources : List Artifact
  resource_associations : List ResourceAssociation
  conditions : List Condition
  units : List PreparedUnit
  components : List Component
  incidents : List Incident
  inventory : Inventory
  interruptions : List Interruption
  transformations : Option (List Transformation)
  deriving DecidableEq, Repr

namespace Payload

variable (payload : Payload)

def shaped : Bool :=
  isNonempty isInput Bounds.inputs payload.inputs &&
    isArray isElement Bounds.entries payload.elements &&
    isArray isRelation Bounds.entries payload.relations &&
    isArray artifactReference Bounds.entries payload.resources &&
    isArray (fun association : ResourceAssociation => identifier association.local_id &&
      identifier association.element_id && artifactReference association.artifact) Bounds.entries
      payload.resource_associations &&
    isArray isCondition Bounds.entries payload.conditions &&
    isArray isUnit Bounds.units payload.units &&
    isArray isComponent Bounds.entries payload.components &&
    isArray isIncident Bounds.entries payload.incidents &&
    isArray (fun edge : Interruption => identifier edge.component && identifier edge.incident_id &&
      exactReference edge.source) Bounds.entries payload.interruptions &&
    isOptional (isArray isTransformation Bounds.entries) payload.transformations

def idsDistinct : Bool :=
  distinct (payload.inputs.map Input.id) && distinct (payload.elements.map Element.id) &&
    distinct (payload.relations.map Relation.id) && distinct (payload.resources.map Artifact.id) &&
    distinct (payload.conditions.map Condition.id) && distinct (payload.units.map PreparedUnit.id) &&
    distinct (payload.components.map Component.id) && distinct (payload.incidents.map Incident.id)

def hasElement (id : String) : Bool := payload.elements.any fun e => e.id = id

def elementsPlaced : Bool :=
  payload.elements.all fun e => e.antecedents.all fun loc =>
    payload.inputs.any fun input => input.id = loc.input_id

def resourcesUsed : Bool :=
  (payload.elements.all fun e => e.body.resource?.all (· ∈ payload.resources)) &&
    payload.resources.all fun r => payload.elements.any fun e => e.body.resource? = some r

def resourcesAssociated : Bool :=
  distinct (payload.resource_associations.map ResourceAssociation.local_id) &&
    distinct (payload.resource_associations.map ResourceAssociation.element_id) &&
    payload.resource_associations.length =
      (payload.elements.filter fun e => e.body.resource?.isSome).length &&
    payload.resource_associations.all fun association => payload.elements.any fun e =>
      e.id = association.element_id && e.body.resource? = some association.artifact

def relationsPlaced : Bool :=
  payload.relations.all fun r => payload.hasElement r.source && payload.hasElement r.target

def interruptionsPlaced : Bool :=
  payload.interruptions.all fun edge =>
    (payload.components.any fun c => c.id = edge.component && c.execution = .not_attempted) &&
      payload.incidents.any fun i => i.id = edge.incident_id && i.component ≠ edge.component &&
        i.cause = .technical_failure

def unitsPlaced : Bool :=
  payload.units.all fun unit =>
    distinct unit.elements && distinct unit.conditions && unit.elements.all payload.hasElement &&
      (unit.conditions.all fun id => payload.conditions.any fun c => c.id = id) &&
      unit.coverage.components.all fun id => payload.components.any fun c => c.id = id

def transformationsPlaced : Bool :=
  payload.transformations.all fun transformations =>
    distinct (transformations.map Transformation.source) &&
      transformations.all fun t => payload.hasElement t.target

def tablesBounded : Bool :=
  let tables := payload.elements.filterMap fun e => e.body.table?
  (tables.filter fun table => table.sheet.isSome).length ≤ Bounds.sheets &&
    (tables.map fun table => table.cells.length).sum ≤ Bounds.cells &&
    (tables.map fun table => (table.rows.getD []).length).sum ≤ Bounds.csvRecords

end Payload

/-- `PREPARATION_PAYLOAD`. -/
def isPayload (payload : Payload) : Bool :=
  payload.shaped && payload.idsDistinct && payload.elementsPlaced && payload.resourcesUsed &&
    payload.resourcesAssociated && payload.relationsPlaced &&
    incidentsMatch payload.components payload.incidents && payload.interruptionsPlaced &&
    payload.unitsPlaced && payload.transformationsPlaced && payload.tablesBounded

/-! ### The content of an extraction -/

inductive ExtractionFormat where
  | text_utf8
  | markdown_inert
  | csv_utf8
  | xlsx_cells
  deriving DecidableEq, Repr

structure OriginalRange where
  bytes : Range
  code_points : Range
  deriving DecidableEq, Repr

/-- Where an element of an extraction comes from: places, or one stretch of the original. -/
inductive ExtractionOrigin where
  | located (antecedents : List ExtractionLocalizer)
  | stretch (range : OriginalRange)
  deriving DecidableEq, Repr

structure ExtractionElement where
  id : String
  body : Body
  origin : ExtractionOrigin
  deriving DecidableEq, Repr

structure ExtractionContent where
  original : Artifact
  source : Exact
  format_profile : ExtractionFormat
  elements : List ExtractionElement
  relations : List Relation
  resources : List Artifact
  components : List Component
  incidents : List Incident
  inventory : Inventory
  deriving DecidableEq, Repr

namespace ExtractionContent

variable (content : ExtractionContent)

/-- A compact text lies in the original of a text format; every other place names the source or
the original. -/
def elementPlaced (element : ExtractionElement) : Bool :=
  match element.origin with
  | .stretch range =>
    content.format_profile ∈ [.text_utf8, .markdown_inert] &&
      range.bytes.2 ≤ content.original.bytes && range.code_points.2 ≤ content.original.bytes
  | .located antecedents =>
    (antecedents.all fun loc => loc.antecedent ∈
      [content.source, ⟨content.original.id, content.original.generation, content.original.sha256⟩]) &&
      element.body.resource?.all (· ∈ content.resources)

def elementShaped (element : ExtractionElement) : Bool :=
  identifier element.id && isBody element.body &&
    match element.origin with
    | .stretch range => element.body.isText && isRange range.bytes && isRange range.code_points
    | .located antecedents => isArray isExtractionLocalizer arrayMax antecedents

end ExtractionContent

/-- `EXTRACTION_CONTENT`, but for the resources a trial carries along. -/
def isExtractionContent (content : ExtractionContent) : Bool :=
  artifactReference content.original && exactReference content.source &&
    isArray ExtractionContent.elementShaped Bounds.textElements content.elements &&
    isArray isRelation 10000 content.relations && isArray artifactReference 10000 content.resources &&
    isArray (fun c => isComponent c && c.execution ≠ .unknown) 10000 content.components &&
    isArray isIncident 10000 content.incidents &&
    (distinct (content.elements.map ExtractionElement.id) &&
      distinct (content.relations.map Relation.id) && distinct (content.resources.map Artifact.id) &&
      distinct (content.components.map Component.id) &&
      distinct (content.incidents.map Incident.id)) &&
    content.elements.all content.elementPlaced &&
    (content.relations.all fun r => (content.elements.any fun e => e.id = r.source) &&
      content.elements.any fun e => e.id = r.target) &&
    incidentsMatch content.components content.incidents

/-! ### Records -/

structure DifferenceBefore where
  input : Exact
  payload : Artifact
  deriving DecidableEq, Repr

/-- A revision of a preparation, under its payload. -/
structure Target where
  id : String
  revision : Nat
  payload : Artifact
  deriving DecidableEq, Repr

structure DifferenceBody where
  before : List DifferenceBefore
  after : Target
  method : Method
  transformation : Treatment
  affected : List Affected
  reason : String
  actor : String
  recorded_at : Nat
  deriving DecidableEq, Repr

structure DifferenceRecord where
  reference : Exact
  body : DifferenceBody
  deriving DecidableEq, Repr

structure Descriptor where
  id : String
  revision : Nat
  payload : Artifact
  inputs : List Input
  differences : List Exact
  operation : Exact
  actor : String
  recorded_at : Nat
  deriving DecidableEq, Repr

structure PreparedRecord where
  reference : Exact
  descriptor : Descriptor
  payload : Payload
  differences : List DifferenceRecord
  deriving DecidableEq, Repr

def isTarget (target : Target) : Bool :=
  identifier target.id && isRevision target.revision && artifactReference target.payload

/-- `PREPARATION_DIFFERENCE`. -/
def isDifference (body : DifferenceBody) : Bool :=
  isNonempty (fun before : DifferenceBefore => exactReference before.input &&
      isArtifact Bounds.normalizedBytes before.payload) arrayMax body.before &&
    isTarget body.after && isNonempty isAffected Bounds.entries body.affected &&
    isText 2048 body.reason && identifier body.actor && isInteger body.recorded_at

/-- `PREPARATION_DESCRIPTOR`. -/
def isDescriptor (descriptor : Descriptor) : Bool :=
  isTarget ⟨descriptor.id, descriptor.revision, descriptor.payload⟩ &&
    isNonempty isInput Bounds.inputs descriptor.inputs &&
    isArray exactReference arrayMax descriptor.differences && exactReference descriptor.operation &&
    identifier descriptor.actor && isInteger descriptor.recorded_at

end LedgerDesk.Preparation
