import LedgerDesk.Foundation.CounterRow
import LedgerDesk.Foundation.Rows

/-!
# Durable bytes

Extraction attempts with the space each has claimed, and what preparations keep. Every insert
charges a capacity row through a trigger, or raises; a statement comes here to the rows it
writes. The other checks of the statements only refuse, so a transaction may also be rolled
back at any moment.
-/
namespace LedgerDesk.Durable

open Foundation

abbrev Bytes := List UInt8

/-! ### Extraction -/

structure Attempt where
  job_id : String
  attempt_generation : Int
  claim_id : String
  channel_id : String
  dispatch_effect : String
  normalized_id : String
  deriving DecidableEq, Repr

structure Output where
  id : String
  job_id : String
  attempt_generation : Int
  channel_id : String
  raw_id : String
  raw_bytes : Int
  normalized_id : String
  normalized_bytes : Int
  location_binding : String
  deriving DecidableEq, Repr

inductive ReservationState where
  | reserved
  | durable
  deriving DecidableEq, Repr

structure Reservation where
  job_id : String
  attempt_generation : Int
  reserved_bytes : Int
  charged_bytes : Int
  state : ReservationState
  deriving DecidableEq, Repr

def Attempt.key (a : Attempt) : String × Int := (a.job_id, a.attempt_generation)

def Output.key (o : Output) : String × Int := (o.job_id, o.attempt_generation)

def Reservation.key (r : Reservation) : String × Int := (r.job_id, r.attempt_generation)

/-- The generated column. -/
def Output.bytes (o : Output) : Int := o.raw_bytes + o.normalized_bytes

structure ExtractionCapacity where
  capacity_bytes : Int
  charged_bytes : Int
  deriving DecidableEq, Repr

structure Extraction where
  attempts : List Attempt
  outputs : List Output
  reservations : List Reservation
  capacity : ExtractionCapacity
  deriving DecidableEq, Repr

inductive ExtractionWrite where
  | attempt (row : Attempt)
  | output (row : Output)
  | reservation (row : Reservation)
  | charged (bytes : Int)
  | settled (key : String × Int) (bytes : Int)
  deriving DecidableEq, Repr

def Extraction.write (e : Extraction) : ExtractionWrite → Extraction
  | .attempt row => { e with attempts := e.attempts ++ [row] }
  | .output row => { e with outputs := e.outputs ++ [row] }
  | .reservation row => { e with reservations := e.reservations ++ [row] }
  | .charged bytes => { e with capacity := { e.capacity with charged_bytes := bytes } }
  | .settled key bytes =>
    { e with
      reservations := Rows.update (fun r => r.key = key)
        (fun r => { r with state := .durable, charged_bytes := bytes }) e.reservations }

/-- The constraints of a claim's attempt. -/
def Attempt.allowed (e : Extraction) (a : Attempt) : Bool :=
  1 ≤ a.attempt_generation && a.attempt_generation ≤ 2 &&
    e.attempts.all fun old =>
      old.key != a.key && old.claim_id != a.claim_id && old.channel_id != a.channel_id &&
        old.dispatch_effect != a.dispatch_effect && old.normalized_id != a.normalized_id

/-- The constraints of an output, its attempt among them. -/
def Output.allowed (e : Extraction) (o : Output) : Bool :=
  0 ≤ o.raw_bytes && o.raw_bytes ≤ 41943040 &&
    0 ≤ o.normalized_bytes && o.normalized_bytes ≤ 16777216 && o.bytes ≤ 58720256 &&
    o.raw_id != o.normalized_id && o.raw_id == o.channel_id &&
    (e.attempts.any fun a => a.key == o.key && a.channel_id == o.channel_id) &&
    e.outputs.all fun old =>
      old.id != o.id && old.key != o.key && old.raw_id != o.raw_id &&
        old.normalized_id != o.normalized_id && old.location_binding != o.location_binding

/-- What the row of the capacity may hold. -/
def ExtractionCapacity.permits (c : ExtractionCapacity) (charged : Int) : Bool :=
  0 ≤ charged && charged ≤ c.capacity_bytes

def reserve_extraction_capacity (e : Extraction) (a : Attempt) : Option (List ExtractionWrite) :=
  if e.capacity.charged_bytes ≤ e.capacity.capacity_bytes - 58720256 &&
      e.capacity.permits (e.capacity.charged_bytes + 58720256) &&
      e.reservations.all fun r => r.key != a.key then
    some [.charged (e.capacity.charged_bytes + 58720256),
      .reservation ⟨a.job_id, a.attempt_generation, 58720256, 58720256, .reserved⟩]
  else none

def settle_extraction_capacity (e : Extraction) (o : Output) : Option (List ExtractionWrite) :=
  match e.reservations.find? fun r => r.key = o.key with
  | none => none
  | some held =>
    if held.state ≠ .reserved ∨ o.bytes > held.reserved_bytes then none
    else if e.capacity.permits (e.capacity.charged_bytes - held.charged_bytes + o.bytes) &&
        0 ≤ o.bytes then
      some [.charged (e.capacity.charged_bytes - held.charged_bytes + o.bytes),
        .settled o.key o.bytes]
    else none

inductive ExtractionStatement where
  /-- The attempt that `claim_extraction` inserts. -/
  | claim (row : Attempt)
  | store (row : Output)
  deriving DecidableEq, Repr

/-- An insert, then the trigger after it. -/
def Extraction.statement (e : Extraction) : ExtractionStatement → Option (List ExtractionWrite)
  | .claim row =>
    if row.allowed e then
      (reserve_extraction_capacity (e.write (.attempt row)) row).map (.attempt row :: ·)
    else none
  | .store row =>
    if row.allowed e then
      (settle_extraction_capacity (e.write (.output row)) row).map (.output row :: ·)
    else none

/-- What the capacity charges an attempt: its whole claim, and once its output is stored the
output's bytes. -/
def chargeOf (outputs : List Output) (a : Attempt) : Int :=
  match outputs.find? fun o => o.key = a.key with
  | none => 58720256
  | some o => o.bytes

def backfilled (outputs : List Output) (a : Attempt) : Reservation :=
  match outputs.find? fun o => o.key = a.key with
  | none => ⟨a.job_id, a.attempt_generation, 58720256, 58720256, .reserved⟩
  | some o => ⟨a.job_id, a.attempt_generation, 58720256, o.bytes, .durable⟩

/-- The attempts and outputs that there are are accounted for, where they fit. -/
def installExtraction (attempts : List Attempt) (outputs : List Output) : Option Extraction :=
  let reservations := attempts.map (backfilled outputs)
  let capacity : ExtractionCapacity := ⟨268435456, (reservations.map (·.charged_bytes)).sum⟩
  if capacity.permits capacity.charged_bytes then
    some ⟨attempts, outputs, reservations, capacity⟩
  else none

/-! ### Preparation -/

structure Stage where
  id : String
  attempt_id : String
  generation : Int
  bytes : Int
  sha256 : String
  body : Bytes
  deriving DecidableEq, Repr

structure Prepared where
  id : String
  revision : Int
  attempt_id : String
  sha256 : String
  artifact_id : String
  generation : Int
  bytes : Int
  payload_sha256 : String
  payload : Bytes
  deriving DecidableEq, Repr

structure Resource where
  id : String
  generation : Int
  bytes : Int
  sha256 : String
  body : Bytes
  deriving DecidableEq, Repr

structure Preparation where
  stages : List Stage
  preparations : List Prepared
  resources : List Resource
  charged_bytes : Int
  deriving DecidableEq, Repr

inductive PreparationWrite where
  | charged (bytes : Int)
  | stage (row : Stage)
  | preparation (row : Prepared)
  | resource (row : Resource)
  deriving DecidableEq, Repr

def Preparation.write (p : Preparation) : PreparationWrite → Preparation
  | .charged bytes => { p with charged_bytes := bytes }
  | .stage row => { p with stages := p.stages ++ [row] }
  | .preparation row => { p with preparations := p.preparations ++ [row] }
  | .resource row => { p with resources := p.resources ++ [row] }

/-- The length of a stored body is what its row says. -/
def stores (bytes : Int) (body : Bytes) : Bool :=
  0 ≤ bytes && bytes ≤ 8388608 && (body.length : Int) == bytes

def Stage.allowed (p : Preparation) (s : Stage) : Bool :=
  s.generation == 1 && stores s.bytes s.body &&
    p.stages.all fun old => old.id != s.id && old.attempt_id != s.attempt_id

def Prepared.allowed (p : Preparation) (row : Prepared) : Bool :=
  0 < row.revision && row.generation == row.revision && stores row.bytes row.payload &&
    p.preparations.all fun old =>
      (old.id, old.revision) != (row.id, row.revision) && old.attempt_id != row.attempt_id &&
        old.artifact_id != row.artifact_id

def Resource.allowed (p : Preparation) (r : Resource) : Bool :=
  0 < r.generation && stores r.bytes r.body &&
    p.resources.all fun old => (old.id, old.generation) != (r.id, r.generation)

def charge_preparation_bytes (p : Preparation) (bytes : Int) : Option PreparationWrite :=
  if p.charged_bytes ≤ 67108864 - bytes && 0 ≤ p.charged_bytes + bytes &&
      p.charged_bytes + bytes ≤ 67108864 then
    some (.charged (p.charged_bytes + bytes))
  else none

inductive PreparationStatement where
  | stage (row : Stage)
  | preparation (row : Prepared)
  /-- A selected resource: unless it is retained already it is inserted. -/
  | resource (row : Resource)
  deriving DecidableEq, Repr

/-- The trigger before an insert, then the insert. -/
def charging (p : Preparation) (bytes : Int) (allowed : Bool) (row : PreparationWrite) :
    Option (List PreparationWrite) :=
  match charge_preparation_bytes p bytes with
  | none => none
  | some charged => if allowed then some [charged, row] else none

section

variable (byteDigest : Bytes → String)

def Preparation.statement (p : Preparation) : PreparationStatement → Option (List PreparationWrite)
  | .stage row => charging p row.bytes (row.allowed p) (.stage row)
  | .preparation row => charging p row.bytes (row.allowed p) (.preparation row)
  | .resource row =>
    if (row.body.length : Int) ≠ row.bytes ∨ byteDigest row.body ≠ row.sha256 then none
    else
      match p.resources.find? fun r => (r.id, r.generation) = (row.id, row.generation) with
      | some retained =>
        if (retained.bytes, retained.sha256) ≠ (row.bytes, row.sha256) then none else some []
      | none => charging p row.bytes (row.allowed p) (.resource row)

end

def installPreparation : Preparation := ⟨[], [], [], 0⟩

/-- The inserts of a finalised preparation that hold bytes, one statement after the other. -/
def persistPreparation (row : Prepared) (resources : List Resource) : List PreparationStatement :=
  .preparation row :: resources.map .resource

/-! ### The database -/

inductive Account where
  | extraction
  | preparation
  deriving DecidableEq, Repr

def Tables : Account → Type
  | .extraction => Extraction
  | .preparation => Preparation

def Write : Account → Type
  | .extraction => ExtractionWrite
  | .preparation => PreparationWrite

def Statement : Account → Type
  | .extraction => ExtractionStatement
  | .preparation => PreparationStatement

def database (byteDigest : Bytes → String) : CounterRow.Database Account Tables Write Statement where
  write
    | .extraction => Extraction.write
    | .preparation => Preparation.write
  statement
    | .extraction => Extraction.statement
    | .preparation => Preparation.statement byteDigest

/-- The tables as the installation leaves them. -/
def installed (e : Extraction) : ∀ k, Tables k
  | .extraction => e
  | .preparation => installPreparation

end LedgerDesk.Durable
