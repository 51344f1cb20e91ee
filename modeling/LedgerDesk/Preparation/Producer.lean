import LedgerDesk.Foundation.Checks
import LedgerDesk.Preparation.Contract

/-!
# Constructing a preparation

The reserved selection is taken from the retained sources under the alias of each, and the staged
document is compared with it. Rows are compared by their canonical texts; rows of these types
have one text exactly if they are equal.
-/
namespace LedgerDesk.Preparation

open Foundation

abbrev Bytes := List UInt8

/-- What texts are made of rows and read back, and their digest. -/
structure Codec where
  sha256Hex : Bytes → String
  decodeExtractionContent : Bytes → Option ExtractionContent
  readPreparationDocument : Bytes → Option Document
  payloadBytes : Payload → Bytes
  descriptorBytes : Descriptor → Bytes
  differenceBytes : DifferenceBody → Bytes

inductive PreparationFault where
  /-- `PreparationChangeFailure`. -/
  | change (message : String)
  | error (message : String)
  | limit
  deriving DecidableEq, Repr

abbrev Prepares := Except PreparationFault

structure RetainedSource where
  input : Input
  bytes : Bytes
  preparation : Option PreparedRecord

structure ResourceBody where
  artifact : Artifact
  bytes : Bytes

structure Production where
  record : PreparedRecord
  bytes : Bytes
  resources : List ResourceBody

structure ConstructArgs where
  reservation : Reservation
  document : Document
  staged : Artifact
  stagedBytes : Bytes
  sources : List RetainedSource
  id : String
  revision : Nat
  artifactId : String
  operation : Exact
  actor : String
  recordedAt : Nat
  resourceBodies : List ResourceBody

def join (a b : String) : String := a ++ ":" ++ b

def joined (a b : String) : Prepares String :=
  if identifier (join a b) then .ok (join a b) else .error (.error "PREPARATION_ALIAS_LIMIT")

/-! ### Records -/

section Records

variable (codec : Codec)

def artifactFor (id : String) (generation : Nat) (bytes : Bytes) : Prepares Artifact :=
  let artifact : Artifact := ⟨id, generation, bytes.length, codec.sha256Hex bytes⟩
  if artifactReference artifact then .ok artifact else .error (.error "PREPARATION_ARTIFACT")

/-- `referenceFor`, of a body under its domain. -/
def referenceFor (id : String) (revision : Nat) (body : Bytes) : Prepares Exact :=
  if identifier id && isRevision revision then .ok ⟨id, revision, codec.sha256Hex body⟩
  else .error (.error "PREPARATION_REFERENCE_ID")

def encodePayload (payload : Payload) : Prepares Bytes :=
  if !isPayload payload then .error (.error "PREPARATION_PAYLOAD")
  else if Bounds.payloadBytes < (codec.payloadBytes payload).length then .error .limit
  else .ok (codec.payloadBytes payload)

def sealDifference (id : String) (revision : Nat) (body : DifferenceBody) :
    Prepares DifferenceRecord := do
  ensure (isDifference body) (.error "PREPARATION_DIFFERENCE")
  let reference ← referenceFor codec id revision (codec.differenceBytes body)
  return ⟨reference, body⟩

/-- A reference that cannot be made throws, which is here to say that nothing matches. -/
def differenceMatches (difference : DifferenceRecord) (inputs : List Input) (target : Target) :
    Bool :=
  exactReference difference.reference && isDifference difference.body &&
    (match referenceFor codec difference.reference.id difference.reference.revision
        (codec.differenceBytes difference.body) with
      | .ok reference => reference = difference.reference
      | .error _ => false) &&
    difference.body.after = target &&
    (difference.body.before.all fun before => inputs.any fun input =>
      input.reference = before.input && input.source_artifact = before.payload) &&
    distinct (difference.body.before.map DifferenceBefore.input)

def verifyPreparation (record : PreparedRecord) (bytes : Bytes) : Bool :=
  let d := record.descriptor
  exactReference record.reference && isDescriptor d && isPayload record.payload &&
    (match referenceFor codec d.id d.revision (codec.descriptorBytes d) with
      | .ok reference => record.reference = reference
      | .error _ => false) &&
    (match artifactFor codec d.payload.id d.payload.generation bytes with
      | .ok artifact => d.payload = artifact
      | .error _ => false) &&
    (match encodePayload codec record.payload with
      | .ok encoded => bytes = encoded
      | .error _ => false) &&
    d.inputs = record.payload.inputs &&
    d.differences = record.differences.map DifferenceRecord.reference &&
    distinct (d.differences.map Exact.id) &&
    record.differences.all fun x =>
      differenceMatches codec x d.inputs ⟨d.id, d.revision, d.payload⟩

end Records

/-! ### Sources -/

/-- Where an element of a source comes from. -/
inductive SourceOrigin where
  | stretch (range : OriginalRange)
  | extracted (antecedents : List ExtractionLocalizer)
  | prepared (antecedents : List Localizer)
  deriving DecidableEq, Repr

structure SourceElement where
  id : String
  body : Body
  origin : SourceOrigin
  deriving DecidableEq, Repr

/-- The content of a source of either kind. Only a preparation has inputs, conditions, units and
interruptions. -/
structure SourceContent where
  inputs : List Input
  elements : List SourceElement
  relations : List Relation
  conditions : List Condition
  units : List PreparedUnit
  components : List Component
  incidents : List Incident
  inventory : Inventory
  interruptions : List Interruption
  deriving DecidableEq, Repr

def ExtractionContent.asSource (content : ExtractionContent) : SourceContent where
  inputs := []
  elements := content.elements.map fun e => ⟨e.id, e.body, match e.origin with
    | .stretch range => .stretch range
    | .located antecedents => .extracted antecedents⟩
  relations := content.relations
  conditions := []
  units := []
  components := content.components
  incidents := content.incidents
  inventory := content.inventory
  interruptions := []

def Payload.asSource (payload : Payload) : SourceContent where
  inputs := payload.inputs
  elements := payload.elements.map fun e => ⟨e.id, e.body, .prepared e.antecedents⟩
  relations := payload.relations
  conditions := payload.conditions
  units := payload.units
  components := payload.components
  incidents := payload.incidents
  inventory := payload.inventory
  interruptions := payload.interruptions

def exactSource (codec : Codec) (source : RetainedSource) : Prepares SourceContent := do
  let input := source.input
  ensure (isInput input && source.bytes.length = input.source_artifact.bytes &&
    codec.sha256Hex source.bytes = input.source_artifact.sha256) (.error "PREPARATION_SOURCE_INTEGRITY")
  match input.extraction with
  | some extraction =>
    match codec.decodeExtractionContent source.bytes with
    | none => .error (.error "INTAKE_JSON")
    | some content =>
      ensure (isExtractionContent content && content.original = extraction.original &&
        content.source = extraction.source) (.error "PREPARATION_SOURCE_ASSOCIATION")
      return content.asSource
  | none =>
    match source.preparation with
    | none => .error (.error "PREPARATION_SOURCE_ASSOCIATION")
    | some record =>
      ensure (record.reference = input.reference &&
        record.descriptor.payload = input.source_artifact &&
        verifyPreparation codec record source.bytes) (.error "PREPARATION_SOURCE_ASSOCIATION")
      return record.payload.asSource

/-! ### The selected material -/

/-- An entry of the source map. -/
structure MappedSource where
  input : Input
  content : SourceContent
  deriving DecidableEq, Repr

/-- What the selection comes to, before the document is looked at. -/
structure Mapped where
  inputs : List Input
  elements : List Element
  relations : List Relation
  components : List Component
  incidents : List Incident
  conditions : List Condition
  resources : List Artifact
  associations : List ResourceAssociation
  interruptions : List Interruption
  /-- The units of the sources, under local ids. -/
  sourceUnits : List PreparedUnit
  inventory : Inventory
  deriving DecidableEq, Repr

def Mapped.empty : Mapped := ⟨[], [], [], [], [], [], [], [], [], [], .known⟩

def mapComponent (inputAlias : String) (row : Component) : Prepares Component := do
  let id ← joined inputAlias row.id
  let incidents ← row.incidents.mapM (joined inputAlias)
  return { row with id, incidents }

def mapIncident (inputAlias : String) (row : Incident) : Prepares Incident := do
  let id ← joined inputAlias row.id
  let component ← joined inputAlias row.component
  return { row with id, component }

def mapInterruption (inputAlias : String) (edge : Interruption) : Prepares Interruption := do
  let component ← joined inputAlias edge.component
  let incident_id ← joined inputAlias edge.incident_id
  return { edge with component, incident_id }

def mapParent (inputAlias : String) (parent : Input) : Prepares Input := do
  let id ← joined inputAlias parent.id
  return { parent with id }

def rangeText (range : Range) : String := toString range.1 ++ ".." ++ toString range.2

def mapLocalizer (inputAlias : String) (loc : Localizer) : Prepares Localizer := do
  let input_id ← joined inputAlias loc.input_id
  return { loc with input_id }

/-- The places of a source element, as places in the input of the alias. -/
def mapOrigin (inputAlias : String) : SourceOrigin → Prepares (List Localizer)
  | .stretch range =>
    .ok [⟨inputAlias, .bytes, "original:" ++ rangeText range.bytes, some range.bytes,
      some range.code_points⟩]
  | .extracted antecedents =>
    .ok (antecedents.map fun loc => ⟨inputAlias, loc.kind, loc.coordinates, loc.byte_range, none⟩)
  | .prepared antecedents => antecedents.mapM (mapLocalizer inputAlias)

/-- The resource a selected element brings, which the selection names exactly if it is one. -/
def selectResource (selection : Selection) (body : Body) : Prepares (Option ResourceAssociation) :=
  match body.resource?, selection.resource with
  | some _, none => .error (.error "CANONICAL_VALUE")
  | some resource, some chosen =>
    if chosen ≠ resource then .error (.change "PREPARATION_SELECTED_RESOURCE")
    else .ok (some ⟨selection.local_resource_id.getD "", selection.local_id, resource⟩)
  | none, _ =>
    if selection.resource.isSome || selection.local_resource_id.isSome then
      .error (.change "PREPARATION_NONRESOURCE_SELECTION")
    else .ok none

/-- A selected element under its local id, with the resource it brings. -/
def mapSelection (inputAlias : String) (content : SourceContent) (selection : Selection) :
    Prepares (Element × Option ResourceAssociation) := do
  match content.elements.find? fun e => e.id = selection.element_id with
  | none => .error (.change "PREPARATION_SELECTED_ELEMENT")
  | some original =>
    let association ← selectResource selection original.body
    let antecedents ← mapOrigin inputAlias original.origin
    return (⟨selection.local_id, original.body, antecedents⟩, association)

/-- The selection of an element of the source, by its id there. -/
def selectedBy (selections : List Selection) (id : String) : Option Selection :=
  selections.find? fun s => s.element_id = id

/-- A relation is taken where both its ends are, and refused where one is. -/
def mapRelation (inputAlias : String) (selections : List Selection) (relation : Relation) :
    Prepares (Option Relation) :=
  match selectedBy selections relation.source, selectedBy selections relation.target with
  | some source, some target => do
    let id ← joined inputAlias relation.id
    return some { relation with id, source := source.local_id, target := target.local_id }
  | none, none => .ok none
  | _, _ => .error (.change "PREPARATION_DEPENDENCY_CLOSURE")

/-- The row is added unless one of its id is there. -/
def pushCondition (conditions : List Condition) (condition : Condition) : List Condition :=
  if conditions.any fun c => c.id = condition.id then conditions else conditions ++ [condition]

def mapCondition (inputAlias : String) (content : SourceContent) (id : String) : Prepares Condition :=
  match content.conditions.find? fun c => c.id = id with
  | none => .error (.error "PREPARATION_SOURCE_CONDITION")
  | some condition => do
    let id ← joined inputAlias id
    return { condition with id }

/-- A unit that has a selected element is taken under local ids, with its conditions. -/
def mapUnit (inputAlias : String) (content : SourceContent) (selections : List Selection)
    (unit : PreparedUnit) : Prepares (Option (PreparedUnit × List Condition)) := do
  if !unit.elements.any fun id => (selectedBy selections id).isSome then
    return none
  ensure (unit.elements.all fun id => (selectedBy selections id).isSome)
    (.change "PREPARATION_BASE_UNIT_CLOSURE")
  ensure (unit.inseparable_group.all fun group => group = "" || content.units.all fun other =>
    other.inseparable_group ≠ some group ||
      other.elements.all fun id => (selectedBy selections id).isSome)
    (.change "PREPARATION_INSEPARABLE_GROUP")
  let conditionIds ← unit.conditions.mapM (joined inputAlias)
  let conditions ← unit.conditions.mapM (mapCondition inputAlias content)
  return some ({ unit with
    elements := unit.elements.filterMap fun id =>
      (selectedBy selections id).map Selection.local_id
    conditions := conditionIds }, conditions)

/-- One turn of the loop over the sources. -/
def mapSource (selection : List Selection) (acc : Mapped) (source : MappedSource) :
    Prepares Mapped := do
  let inputAlias := source.input.id
  let content := source.content
  let parents ← content.inputs.mapM (mapParent inputAlias)
  let selections := selection.filter fun s => s.input_id = inputAlias
  ensure (distinct (selections.map Selection.element_id))
    (.change "PREPARATION_SELECTION_DUPLICATE")
  let components ← content.components.mapM (mapComponent inputAlias)
  let incidents ← content.incidents.mapM (mapIncident inputAlias)
  let interruptions ← content.interruptions.mapM (mapInterruption inputAlias)
  let picked ← selections.mapM (mapSelection inputAlias content)
  let relations ← content.relations.mapM (mapRelation inputAlias selections)
  let units ← content.units.mapM (mapUnit inputAlias content selections)
  let associations := picked.filterMap Prod.snd
  return {
    inputs := acc.inputs ++ source.input :: parents
    elements := acc.elements ++ picked.map Prod.fst
    relations := acc.relations ++ relations.reduceOption
    components := acc.components ++ components
    incidents := acc.incidents ++ incidents
    conditions := (units.reduceOption.flatMap Prod.snd).foldl pushCondition acc.conditions
    resources := (associations.map ResourceAssociation.artifact).foldl
      (fun resources r => if r ∈ resources then resources else resources ++ [r]) acc.resources
    associations := acc.associations ++ associations
    interruptions := acc.interruptions ++ interruptions
    sourceUnits := acc.sourceUnits ++ units.reduceOption.map Prod.fst
    inventory := if content.inventory = .unknown then .unknown else acc.inventory }

/-! ### The document against the selection -/

def AffectedKind.text : AffectedKind → String
  | .element => "element"
  | .relation => "relation"
  | .condition => "condition"
  | .coverage => "coverage"
  | .provenance => "provenance"

namespace Document

variable (d : Document)

/-- Some difference of the document names the row. -/
def affected (kind : AffectedKind) (id : String) : Bool :=
  d.differences.any fun difference => difference.affected.any (· = ⟨kind, id⟩)

/-- A change is let pass where it is declared. -/
def changed (kind : AffectedKind) (id : String) : Prepares Unit :=
  if d.transformation = .exact_selection || !d.affected kind id then
    .error (.change ("PREPARATION_UNDECLARED_CHANGE:" ++ kind.text))
  else .ok ()

def transforms : List Transformation := d.transformations.getD []

def transformed (id : String) : String :=
  match d.transforms.find? fun t => t.source = id with
  | some t => t.target
  | none => id

/-- The transformation takes the one element to the other. -/
def takes (source target : String) : Bool :=
  d.transforms.any fun t => t.source = source && t.target = target

def checkTransformations (elements : List Element) : Prepares Unit :=
  ensure (d.transforms.isEmpty ||
    (d.transformation = .synthesis && distinct (d.transforms.map Transformation.source) &&
      d.transforms.all fun t => (elements.any fun e => e.id = t.source && e.body.isText) &&
        d.elements.any fun e => e.id = t.target && e.body.isText))
    (.change "PREPARATION_TRANSFORMATION_MAP")

/-- The same elements in another order are a change of each. -/
def checkOrder (elements : List Element) : Prepares Unit :=
  if d.transforms.isEmpty && elements.length = d.elements.length &&
      (elements.all fun e => d.elements.any fun next => next.id = e.id) &&
      elements.map Element.id ≠ d.elements.map Element.id then
    checkEach (fun e : Element => d.changed .element e.id) elements
  else .ok ()

def checkKept (before : Element) : Prepares Unit :=
  match d.elements.find? fun e => e.id = before.id with
  | none => do
    ensure (d.transformed before.id ≠ before.id) (.change "PREPARATION_SELECTION_LOSS")
    d.changed .element before.id
    d.changed .element (d.transformed before.id)
  | some after => do
    ensure (!(before.body.resource?.isSome && before ≠ after)) (.change "PREPARATION_RESOURCE_CHANGE")
    if before ≠ after then d.changed .element before.id

/-- The locators name one stretch of one input. -/
def sameStretch (a loc : Localizer) : Bool :=
  loc.input_id = a.input_id && loc.byte_range = a.byte_range

def authoredFrom (elements : List Element) (after : Element) : Bool :=
  !after.antecedents.isEmpty && after.antecedents.all fun a =>
    a.kind = .nonliteral && elements.any fun before =>
      d.takes before.id after.id && before.antecedents.any fun loc =>
        sameStretch a loc && loc.code_point_range = a.code_point_range

def authoredKeeps (elements : List Element) (after : Element) : Bool :=
  (elements.filter fun before => d.takes before.id after.id).all fun before =>
    before.antecedents.all fun loc => after.antecedents.any fun a => sameStretch a loc

/-- An element the selection does not have. -/
def checkAuthored (elements : List Element) (after : Element) : Prepares Unit :=
  if elements.any fun e => e.id = after.id then .ok ()
  else do
    d.changed .element after.id
    ensure (d.authoredFrom elements after) (.change "PREPARATION_AUTHORED_PROVENANCE")
    ensure (d.authoredKeeps elements after) (.change "PREPARATION_AUTHORED_SOURCE_LOSS")

section Context

variable {ρ : Type} [DecidableEq ρ] (kind : AffectedKind) (id : ρ → String)

/-- A retained row is there, and as it was unless the change is declared and may be made. -/
def checkRetained (mayBecome : ρ → ρ → Bool) (after : List ρ) (row : ρ) : Prepares Unit :=
  match after.find? fun x => id x = id row with
  | none => .error (.change "PREPARATION_CONTEXT_LOSS")
  | some next =>
    if row = next then .ok ()
    else do
      d.changed kind (id row)
      ensure (mayBecome row next) (.change "PREPARATION_TRANSFORMED_CONTEXT")

def checkAdded (mayBeNew : ρ → Bool) (before : List ρ) (row : ρ) : Prepares Unit :=
  if before.any fun x => id x = id row then .ok ()
  else do
    ensure (mayBeNew row) (.change "PREPARATION_INVENTED_OBSERVATION")
    ensure (d.affected kind (id row)) (.change "PREPARATION_UNRECORDED_CONTEXT")

def checkContext (mayBecome : ρ → ρ → Bool) (mayBeNew : ρ → Bool) (before after : List ρ) :
    Prepares Unit := do
  checkEach (d.checkRetained kind id mayBecome after) before
  checkEach (d.checkAdded kind id mayBeNew before) after

end Context

/-- A relation keeps its role and scope, and its ends follow the transformations. -/
def relationMayBecome (row next : Relation) : Bool :=
  next.source = d.transformed row.source && next.target = d.transformed row.target &&
    next.role = row.role && next.scope = row.scope

def checkRelations (before : List Relation) : Prepares Unit :=
  d.checkContext .relation Relation.id d.relationMayBecome (fun row => row.origin ≠ .observed) before
    d.relations

def checkConditions (before : List Condition) : Prepares Unit :=
  d.checkContext .condition Condition.id (fun _ _ => true) (fun _ => true) before d.conditions

/-- Everything the document changes is declared. -/
def checkChanges (mapped : Mapped) : Prepares Unit := do
  d.checkTransformations mapped.elements
  d.checkOrder mapped.elements
  checkEach d.checkKept mapped.elements
  checkEach (d.checkAuthored mapped.elements) d.elements
  d.checkRelations mapped.relations
  d.checkConditions mapped.conditions

open InterruptionOrigin in
/-- An interruption by an incident of the statement, or by one the sources have. -/
def observeInterruption (observation : Observation) (source : Exact) (incidents : List Incident)
    (edge : ObservedInterruption) : Prepares Interruption := do
  let incidentId ←
    if observation.incidents.any fun i => i.id = edge.incident_id then
      joined "statement" edge.incident_id
    else pure edge.incident_id
  ensure (incidents.any fun i => i.id = incidentId && i.cause = .technical_failure)
    (.change "PREPARATION_INTERRUPTION_SOURCE")
  let component ← joined "statement" edge.component
  return ⟨component, incidentId, source, preparation_annotation⟩

/-- What the document states about the preparation itself. -/
def observe (staged : Artifact) (mapped : Mapped) : Prepares Mapped :=
  match d.observation with
  | none => .ok mapped
  | some observation => do
    ensure (d.differences.any fun x => x.affected.any fun a => a.kind = .coverage)
      (.change "PREPARATION_OBSERVATION_DIFFERENCE")
    let source : Exact := ⟨staged.id, staged.generation, staged.sha256⟩
    let components ← observation.components.mapM (mapComponent "statement")
    let incidents ← observation.incidents.mapM (mapIncident "statement")
    let allIncidents := mapped.incidents ++ incidents
    let interruptions ← observation.interruptions.mapM
      (observeInterruption observation source allIncidents)
    return { mapped with
      components := mapped.components ++ components
      incidents := allIncidents
      interruptions := mapped.interruptions ++ interruptions
      inventory := if observation.inventory = .unknown then .unknown else mapped.inventory }

/-- The coverage a unit claims, and the conditions of every source unit it has an element of. -/
def checkUnit (observed : Mapped) (unit : PreparedUnit) : Prepares Unit := do
  ensure (!unit.coverage.components.isEmpty && !(unit.coverage.complete_source_claim &&
      (observed.inventory ≠ .known || observed.components.any fun c =>
        c.coverage ≠ .complete || c.execution ≠ .completed || !c.limitations.isEmpty)))
    (.change "PREPARATION_COVERAGE_CLAIM")
  ensure (!observed.sourceUnits.any fun source =>
      (source.elements.any (· ∈ unit.elements)) && source.conditions.any (· ∉ unit.conditions))
    (.change "PREPARATION_UNIT_CONDITION")

def checkUnits (observed : Mapped) : Prepares Unit := do
  ensure ((d.units.flatMap PreparedUnit.elements).dedup.length = d.elements.length &&
      d.elements.all fun e => d.units.any fun u => e.id ∈ u.elements)
    (.change "PREPARATION_UNIT_COVERAGE")
  checkEach (checkUnit observed) d.units

def payloadOf (observed : Mapped) : Payload where
  inputs := observed.inputs
  elements := d.elements
  relations := d.relations
  resources := observed.resources
  resource_associations := observed.associations
  conditions := d.conditions
  units := d.units
  components := observed.components
  incidents := observed.incidents
  inventory := observed.inventory
  interruptions := observed.interruptions
  transformations := if d.transforms.isEmpty then none else some d.transforms

end Document

/-! ### Construction -/

section Construct

variable (codec : Codec) (args : ConstructArgs)

/-- The request is the one that was reserved, and the document the one that was staged. -/
def checkProductionInput : Prepares Unit := do
  let r := args.reservation
  let refused := PreparationFault.error "PREPARATION_PRODUCTION_INPUT"
  ensure (validateReservation r && isDocument args.document &&
    r.documentBytes = args.staged.bytes && r.documentSha256 = args.staged.sha256) refused
  let staged ← artifactFor codec args.staged.id args.staged.generation args.stagedBytes
  ensure (args.staged = staged) refused
  match codec.readPreparationDocument args.stagedBytes with
  | none => .error (.error "PREPARATION_DOCUMENT")
  | some document => ensure (args.document = document) refused

def admitSource (source : RetainedSource) : Prepares MappedSource := do
  match args.reservation.inputs.find? fun x => x.id = source.input.id with
  | none => .error (.error "PREPARATION_SOURCE_SELECTOR")
  | some selector =>
    ensure (selector.kind = source.input.kind && selector.reference = source.input.reference &&
      selector.job_id = source.input.extraction.map ExtractionInput.job_id)
      (.error "PREPARATION_SOURCE_SELECTOR")
    let content ← exactSource codec source
    return ⟨source.input, content⟩

/-- The source map, in the order of the sources. -/
def admitSources : Prepares (List MappedSource) := do
  ensure (args.sources.length = args.reservation.inputs.length &&
    distinct (args.sources.map fun s => s.input.id)) (.error "PREPARATION_SOURCE_SET")
  let sourceMap ← args.sources.mapM (admitSource codec args)
  ensure (args.reservation.base.all fun base => args.sources.any fun s =>
    s.input.kind = .preparation && s.input.reference = base)
    (.change "PREPARATION_BASE_SOURCE")
  return sourceMap

/-- The selection as the sources have it. -/
def mapSources (sourceMap : List MappedSource) : Prepares Mapped := do
  let mapped ← sourceMap.foldlM (mapSource args.reservation.selection) Mapped.empty
  ensure (mapped.inputs.length ≤ Bounds.inputs) (.error "PREPARATION_INPUT_LIMIT")
  return mapped

def differenceBefore (sourceMap : List MappedSource) (id : String) : Prepares DifferenceBefore :=
  match sourceMap.find? fun s => s.input.id = id with
  | none => .error (.error "PREPARATION_DIFFERENCE_SOURCE")
  | some source => .ok ⟨source.input.reference, source.input.source_artifact⟩

def sealDraft (sourceMap : List MappedSource) (target : Target) (draft : DifferenceDraft × Nat) :
    Prepares DifferenceRecord := do
  let before ← draft.1.before.mapM (differenceBefore sourceMap)
  let id ← joined args.id ("r" ++ toString args.revision ++ ":difference-" ++ toString draft.2)
  sealDifference codec id 1
    { before
      after := target
      method := draft.1.method
      transformation := draft.1.transformation
      affected := draft.1.affected
      reason := draft.1.reason
      actor := args.actor
      recorded_at := args.recordedAt }

def sealPreparation (payload : Payload) (differences : List DifferenceRecord) :
    Prepares (PreparedRecord × Bytes) := do
  let bytes ← encodePayload codec payload
  let artifact ← artifactFor codec args.artifactId args.revision bytes
  let target : Target := ⟨args.id, args.revision, artifact⟩
  ensure (differences.all fun d => differenceMatches codec d payload.inputs target)
    (.error "PREPARATION_DIFFERENCE_ASSOCIATION")
  ensure (distinct (differences.map fun d => d.reference.id))
    (.error "PREPARATION_DIFFERENCE_DUPLICATE")
  let descriptor : Descriptor :=
    { id := args.id
      revision := args.revision
      payload := artifact
      inputs := payload.inputs
      differences := differences.map DifferenceRecord.reference
      operation := args.operation
      actor := args.actor
      recorded_at := args.recordedAt }
  ensure (isDescriptor descriptor) (.error "PREPARATION_DESCRIPTOR")
  let reference ← referenceFor codec args.id args.revision (codec.descriptorBytes descriptor)
  return (⟨reference, descriptor, payload, differences⟩, bytes)

def resourceBody (artifact : Artifact) : Prepares ResourceBody :=
  match args.resourceBodies.find? fun r => r.artifact = artifact with
  | none => .error (.error "PREPARATION_RESOURCE_INTEGRITY")
  | some found =>
    if found.bytes.length = artifact.bytes && codec.sha256Hex found.bytes = artifact.sha256 then
      .ok ⟨artifact, found.bytes⟩
    else .error (.error "PREPARATION_RESOURCE_INTEGRITY")

def constructPreparation : Prepares Production := do
  let d := args.document
  checkProductionInput codec args
  let sourceMap ← admitSources codec args
  let mapped ← mapSources args sourceMap
  d.checkChanges mapped
  let observed ← d.observe args.staged mapped
  d.checkUnits observed
  let payload := d.payloadOf observed
  let bytes ← encodePayload codec payload
  let artifact ← artifactFor codec args.artifactId args.revision bytes
  let differences ← d.differences.zipIdx.mapM
    (sealDraft codec args sourceMap ⟨args.id, args.revision, artifact⟩)
  let (record, sealedBytes) ← sealPreparation codec args payload differences
  let bodies ← observed.resources.mapM (resourceBody codec args)
  ensure ((bodies.map fun r => r.bytes.length).sum + bytes.length ≤ Bounds.payloadBytes) .limit
  return ⟨record, sealedBytes, bodies⟩

end Construct

end LedgerDesk.Preparation
