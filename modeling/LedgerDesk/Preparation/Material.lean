import LedgerDesk.Agents.Canonical

/-!
# Material

What extraction and preparation share: references, elements, relations, components and incidents,
each with the rule its closed shape puts on it. The shape itself is in the type.
-/
namespace LedgerDesk.Preparation

open Agents (codeUnits)

/-! ### Rules of the contract -/

def textLength (value : String) : Nat := (codeUnits value).length

/-- `text(max)`. -/
def isText (maximum : Nat) (value : String) : Bool := textLength value ≤ maximum

/-- `/^[A-Za-z0-9][A-Za-z0-9._:-]{0,127}$/`. -/
def identifier (value : String) : Bool :=
  match value.toList with
  | [] => false
  | first :: rest =>
    first.isAlphanum && rest.length ≤ 127 &&
      rest.all fun c => c.isAlphanum || c ∈ ['.', '_', ':', '-']

def isInteger (value : Nat) : Bool := value < 2 ^ 53

def isRevision (value : Nat) : Bool := isInteger value && 0 < value

def isDigest (value : String) : Bool :=
  value.toList.length = 64 && value.toList.all fun c => c.isDigit || ('a' ≤ c && c ≤ 'f')

section Arrays

variable {α : Type*}

def isArray (rule : α → Bool) (maximum : Nat) (values : List α) : Bool :=
  values.length ≤ maximum && values.all rule

def isNonempty (rule : α → Bool) (maximum : Nat) (values : List α) : Bool :=
  isArray rule maximum values && !values.isEmpty

def isOptional (rule : α → Bool) (value : Option α) : Bool := value.all rule

/-- No value twice. -/
def distinct [DecidableEq α] (values : List α) : Bool := values.Nodup

@[simp] theorem distinct_iff [DecidableEq α] {values : List α} :
    distinct values = true ↔ values.Nodup := by
  simp [distinct]

end Arrays

/-- The bound of an array that names none. -/
def arrayMax : Nat := 128

/-! ### References -/

structure Exact where
  id : String
  revision : Nat
  sha256 : String
  deriving DecidableEq, Repr

structure Artifact where
  id : String
  generation : Nat
  bytes : Nat
  sha256 : String
  deriving DecidableEq, Repr

def exactReference (reference : Exact) : Bool :=
  identifier reference.id && isRevision reference.revision && isDigest reference.sha256

/-- `extractionArtifact(maximum)`. -/
def isArtifact (maximum : Nat) (artifact : Artifact) : Bool :=
  identifier artifact.id && isRevision artifact.generation &&
    (isInteger artifact.bytes && artifact.bytes ≤ maximum) && isDigest artifact.sha256

def artifactBytes : Nat := 8388608

def artifactReference (artifact : Artifact) : Bool := isArtifact artifactBytes artifact

abbrev Range := Nat × Nat

def isRange (range : Range) : Bool :=
  isInteger range.1 && isInteger range.2 && range.1 ≤ range.2

/-! ### Elements -/

inductive ValueKind where
  | text
  | number_lexical
  | boolean_lexical
  | error
  | empty
  | missing
  deriving DecidableEq, Repr

structure CellValue where
  kind : ValueKind
  lexical : String
  deriving DecidableEq, Repr

structure Cell where
  address : String
  value : CellValue
  formula : Option String
  cached : Option CellValue
  number_format : Option String
  deriving DecidableEq, Repr

structure CsvRow where
  index : Nat
  fields : List String
  raw : String
  byte_range : Range
  deriving DecidableEq, Repr

structure SheetColumn where
  minimum : Nat
  maximum : Nat
  hidden : Option Bool
  width_lexical : Option String
  deriving DecidableEq, Repr

inductive Visibility where
  | visible
  | hidden
  | veryHidden
  deriving DecidableEq, Repr

structure Sheet where
  source_id : String
  name : String
  visibility : Visibility
  merged : List String
  hidden_rows : List String
  columns : List SheetColumn
  deriving DecidableEq, Repr

structure Table where
  cells : List Cell
  headers : Option (List String)
  rows : Option (List CsvRow)
  sheet : Option Sheet
  deriving DecidableEq, Repr

/-- What an element is, but for its name and where it comes from. -/
inductive Body where
  | text (text : String)
  | table (table : Table)
  | resource (resource : Artifact)
  deriving DecidableEq, Repr

namespace Body

def isText : Body → Bool
  | .text _ => true
  | _ => false

def resource? : Body → Option Artifact
  | .resource artifact => some artifact
  | _ => none

def table? : Body → Option Table
  | .table cells => some cells
  | _ => none

end Body

def isCellValue (value : CellValue) : Bool := isText 65536 value.lexical

def isCell (cell : Cell) : Bool :=
  isText 128 cell.address && isCellValue cell.value && isOptional (isText 65536) cell.formula &&
    isOptional isCellValue cell.cached && isOptional (isText 512) cell.number_format

def isCsvRow (row : CsvRow) : Bool :=
  isInteger row.index && isArray (isText 65536) 64 row.fields && isText 262144 row.raw &&
    isRange row.byte_range

def isSheet (sheet : Sheet) : Bool :=
  isText 128 sheet.source_id && isText 128 sheet.name && isArray (isText 128) 10000 sheet.merged &&
    isArray (isText 128) 10000 sheet.hidden_rows &&
    isArray (fun column : SheetColumn => isInteger column.minimum && isInteger column.maximum &&
      isOptional (isText 128) column.width_lexical) 10000 sheet.columns

def isTable (table : Table) : Bool :=
  isArray isCell 10000 table.cells && isOptional (isArray (isText 65536) 64) table.headers &&
    isOptional (isArray isCsvRow 1000) table.rows && isOptional isSheet table.sheet

def isBody : Body → Bool
  | .text text => isText 1048576 text
  | .table table => isTable table
  | .resource resource => artifactReference resource

/-! ### Places in a source -/

inductive LocatorKind where
  | bytes
  | cells
  | nonliteral
  deriving DecidableEq, Repr

/-- A place in what an extraction was made of. -/
structure ExtractionLocalizer where
  antecedent : Exact
  kind : LocatorKind
  coordinates : String
  byte_range : Option Range
  deriving DecidableEq, Repr

/-- A place in an input of a preparation. -/
structure Localizer where
  input_id : String
  kind : LocatorKind
  coordinates : String
  byte_range : Option Range
  code_point_range : Option Range
  deriving DecidableEq, Repr

def isExtractionLocalizer (loc : ExtractionLocalizer) : Bool :=
  exactReference loc.antecedent && isText 512 loc.coordinates && isOptional isRange loc.byte_range

/-- `PREPARATION_LOCALIZER`. -/
def isLocalizer (loc : Localizer) : Bool :=
  identifier loc.input_id && isText 512 loc.coordinates && isOptional isRange loc.byte_range &&
    isOptional isRange loc.code_point_range

/-! ### Relations, components and incidents -/

inductive RelationRole where
  | indispensable
  | context
  deriving DecidableEq, Repr

inductive RelationOrigin where
  | observed
  | prepared
  | proposed
  deriving DecidableEq, Repr

structure Relation where
  id : String
  source : String
  target : String
  role : RelationRole
  scope : String
  origin : RelationOrigin
  deriving DecidableEq, Repr

inductive Execution where
  | completed
  | failed
  | not_attempted
  | unknown
  deriving DecidableEq, Repr

inductive Coverage where
  | complete
  | partialCoverage
  | none
  | unknown
  deriving DecidableEq, Repr

inductive Fidelity where
  | checked
  | unchecked
  | disputed
  deriving DecidableEq, Repr

structure Component where
  id : String
  execution : Execution
  coverage : Coverage
  fidelity : Fidelity
  limitations : List String
  incidents : List String
  deriving DecidableEq, Repr

inductive IncidentCause where
  | unreadable
  | route_unoffered
  | technical_failure
  | unknown
  deriving DecidableEq, Repr

structure Incident where
  id : String
  component : String
  cause : IncidentCause
  code : Option String
  detail : Option String
  deriving DecidableEq, Repr

inductive Inventory where
  | known
  | unknown
  deriving DecidableEq, Repr

def isRelation (relation : Relation) : Bool :=
  identifier relation.id && identifier relation.source && identifier relation.target &&
    isText 512 relation.scope

def isComponent (component : Component) : Bool :=
  identifier component.id && isArray identifier arrayMax component.limitations &&
    isArray identifier arrayMax component.incidents

def isIncident (incident : Incident) : Bool :=
  identifier incident.id && identifier incident.component && isOptional (isText 128) incident.code &&
    isOptional (isText 512) incident.detail

/-- Every incident is one of its component's, and every incident of a component is there. -/
def incidentsMatch (components : List Component) (incidents : List Incident) : Bool :=
  incidents.all (fun i => components.any fun c => c.id = i.component && i.id ∈ c.incidents) &&
    components.all fun c => c.incidents.all fun id =>
      incidents.any fun i => i.id = id && i.component = c.id

end LedgerDesk.Preparation
