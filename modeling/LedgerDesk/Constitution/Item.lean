import LedgerDesk.Preparation.Producer

/-!
# The item of a proposal

A proposal is about one unit of a prepared revision, with the units it cannot be separated from. What
identifies it is the content of that closure in its context; the names inside a preparation, and what
an element was taken from, are left out. Values are compared by their canonical texts; values of these
types have one text exactly if they are equal.
-/
namespace LedgerDesk.Constitution

open Foundation Preparation

/-- `IntakeFailure`, by its status. -/
inductive Failure where
  | notFound
  | conflict
  | tooMany
  | unavailable
  deriving DecidableEq, Repr

def Failure.status : Failure → Nat
  | .notFound => 404
  | .conflict => 409
  | .tooMany => 429
  | .unavailable => 503

structure Item where
  key : String
  units : List PreparedUnit
  elements : List Element
  relations : List Relation
  conditions : List Condition
  components : List Component
  incidents : List Incident
  resources : List Artifact
  deriving DecidableEq, Repr

/-- The group a unit names, if its name is not empty. -/
def group? (unit : PreparedUnit) : Option String := unit.inseparable_group.filter (· ≠ "")

def unitKey (unit : PreparedUnit) : String :=
  match group? unit with
  | some group => "group:" ++ group
  | none => "unit:" ++ unit.id

/-- The units of the item that a unit is of. -/
def unitsWith (payload : Payload) (selected : PreparedUnit) : List PreparedUnit :=
  match group? selected with
  | some group => payload.units.filter fun u => u.inseparable_group = some group
  | none => [selected]

/-- Explicit item closure, which no relation may cross. -/
def closeItem (payload : Payload) (selected : PreparedUnit) : Except Failure Item := do
  let units := unitsWith payload selected
  let elementIds := (units.flatMap PreparedUnit.elements).eraseDups
  let elements := payload.elements.filter fun e => e.id ∈ elementIds
  ensure (elements.length = elementIds.length && payload.relations.all fun r =>
    decide (r.source ∈ elementIds) = decide (r.target ∈ elementIds)) .conflict
  let relations := payload.relations.filter fun r => r.source ∈ elementIds
  let conditions := payload.conditions.filter fun c => units.any fun u => c.id ∈ u.conditions
  let components := payload.components.filter fun c => units.any fun u => c.id ∈ u.coverage.components
  let incidents := payload.incidents.filter fun i => components.any fun c => i.id ∈ c.incidents
  let resources := payload.resources.filter fun r => elements.any fun e => e.body.resource? = some r
  return { key := unitKey selected
           units, elements, relations, conditions, components, incidents, resources }

def proposalItem (payload : Payload) (unitId : String) : Except Failure Item :=
  match payload.units.find? fun u => u.id = unitId with
  | some selected => closeItem payload selected
  | none => .error .notFound

/-! ### What identifies an item -/

/-- The content of an element; of a resource, only its bytes. -/
inductive ElementContent where
  | text (text : String)
  | table (table : Table)
  | resource (bytes : Nat) (sha256 : String)
  deriving DecidableEq, Repr

def elementContent (element : Element) : ElementContent :=
  match element.body with
  | .text text => .text text
  | .table table => .table table
  | .resource artifact => .resource artifact.bytes artifact.sha256

structure RelationContent where
  source : Int
  target : Int
  role : RelationRole
  scope : String
  deriving DecidableEq, Repr

structure CoverageContent where
  execution : Execution
  coverage : Coverage
  fidelity : Fidelity
  limitations : List String
  deriving DecidableEq, Repr

structure IncidentContent where
  cause : IncidentCause
  code : Option String
  detail : Option String
  deriving DecidableEq, Repr

structure ItemContent where
  elements : List ElementContent
  relations : List RelationContent
  conditions : List (String × String)
  context : Context
  classifications : List Classification
  coverage : List CoverageContent
  incidents : List IncidentContent
  complete_source_claims : List Bool
  deriving DecidableEq, Repr

/-- `findIndex`. -/
def position (item : Item) (id : String) : Int :=
  match item.elements.findIdx? fun e => e.id = id with
  | some index => index
  | none => -1

def itemContent (item : Item) (context : Context) : ItemContent where
  elements := item.elements.map elementContent
  relations := item.relations.map fun r =>
    ⟨position item r.source, position item r.target, r.role, r.scope⟩
  conditions := item.conditions.map fun c => (c.text, c.scope)
  context
  classifications := item.units.map PreparedUnit.classification
  coverage := item.components.map fun c => ⟨c.execution, c.coverage, c.fidelity, c.limitations⟩
  incidents := item.incidents.map fun i => ⟨i.cause, i.code, i.detail⟩
  complete_source_claims := item.units.map fun u => u.coverage.complete_source_claim

/-! ### What a person proposes of an item -/

inductive TargetKind where
  | successor
  | relationship
  deriving DecidableEq, Repr

/-- `PREPARATION_TARGET`, with its explanatory declaration. -/
inductive Target where
  | new (declaration : String)
  | existing (kind : TargetKind) (unit_id : String) (version : Exact) (declaration : String)
  deriving DecidableEq, Repr

/-- Typed identity is separate from the person's explanatory declaration. -/
inductive TargetIdentity where
  | new
  | existing (kind : TargetKind) (unit_id : String) (version : Exact)
  deriving DecidableEq, Repr

def targetIdentity : Target → TargetIdentity
  | .new _ => .new
  | .existing kind unit_id version _ => .existing kind unit_id version

def Target.unit_id? : Target → Option String
  | .new _ => none
  | .existing _ unit_id _ _ => some unit_id

inductive JudgmentKind where
  | distinct
  | same_version
  | possible_duplicate
  deriving DecidableEq, Repr

structure Judgment where
  kind : JudgmentKind
  reason : String
  evidence : Option Exact
  deriving DecidableEq, Repr

inductive Disposition where
  | constituted
  | relationship_recorded
  | identity_collision
  | possible_duplicate
  deriving DecidableEq, Repr

/-- A candidate version, as a comparison reads it. -/
structure Compared where
  reference : Exact
  content_identity : String

/-- Explicit claims only: no similarity search, hash identity or implicit successor. -/
def comparisonDisposition (target : Target) (judgment : Judgment) (identity : String)
    (existing : Option Compared) : Except Failure Disposition :=
  match target with
  | .new _ => do
    ensure (judgment.evidence.isNone && judgment.kind ≠ .same_version) .conflict
    return if judgment.kind = .possible_duplicate then .possible_duplicate else .constituted
  | .existing kind _ _ _ =>
    match existing with
    | none => .error .conflict
    | some existing => do
      ensure (judgment.evidence = some existing.reference) .conflict
      if judgment.kind = .possible_duplicate then return .possible_duplicate
      match kind with
      | .relationship =>
        ensure (judgment.kind = .same_version) .conflict
        return if identity = existing.content_identity then .relationship_recorded
          else .identity_collision
      | .successor =>
        ensure (judgment.kind = .distinct) .conflict
        return .constituted

/-! ### Facts that the tables rest on -/

/-- The key of an item is the key of the unit that was asked for. -/
theorem proposalItem_key {payload : Payload} {unitId : String} {item : Item}
    (made : proposalItem payload unitId = .ok item) :
    ∃ unit ∈ payload.units, unit.id = unitId ∧ item.key = unitKey unit := by
  rw [proposalItem] at made
  split at made
  · next unit known =>
    obtain ⟨-, -, made⟩ := except_bind_eq_ok.mp made
    obtain rfl := Except.ok.inj made
    exact ⟨unit, List.mem_of_find?_eq_some known, by simpa using List.find?_some known, rfl⟩
  · cases made

/-- A relationship is recorded to a version of the same content. -/
theorem relationship_same {target : Target} {judgment : Judgment} {identity : String}
    {existing : Option Compared}
    (judged : comparisonDisposition target judgment identity existing = .ok .relationship_recorded) :
    ∃ compared, existing = some compared ∧ identity = compared.content_identity ∧
      ∃ unit_id version declaration,
        target = .existing .relationship unit_id version declaration := by
  rw [comparisonDisposition.eq_def] at judged
  split at judged
  · obtain ⟨-, -, judged⟩ := except_bind_eq_ok.mp judged
    split at judged <;> cases judged
  · next kind unit_id version declaration =>
    split at judged
    · cases judged
    · next compared =>
      obtain ⟨-, -, judged⟩ := except_bind_eq_ok.mp judged
      split at judged
      · cases judged
      · cases kind with
        | relationship =>
          obtain ⟨-, -, judged⟩ := except_bind_eq_ok.mp judged
          split at judged
          · next same => exact ⟨compared, rfl, same, unit_id, version, declaration, rfl⟩
          · cases judged
        | successor =>
          obtain ⟨-, -, judged⟩ := except_bind_eq_ok.mp judged
          cases judged

/-- What is constituted is a new unit or a successor. -/
theorem constituted_target {target : Target} {judgment : Judgment} {identity : String}
    {existing : Option Compared}
    (judged : comparisonDisposition target judgment identity existing = .ok .constituted) :
    (∃ declaration, target = .new declaration) ∨
      ∃ unit_id version declaration, target = .existing .successor unit_id version declaration := by
  rw [comparisonDisposition.eq_def] at judged
  split at judged
  · next declaration => exact .inl ⟨declaration, rfl⟩
  · next kind unit_id version declaration =>
    split at judged
    · cases judged
    · obtain ⟨-, -, judged⟩ := except_bind_eq_ok.mp judged
      split at judged
      · cases judged
      · cases kind with
        | relationship =>
          obtain ⟨-, -, judged⟩ := except_bind_eq_ok.mp judged
          split at judged <;> cases judged
        | successor => exact .inr ⟨unit_id, version, declaration, rfl⟩

end LedgerDesk.Constitution
