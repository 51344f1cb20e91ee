import LedgerDesk.Foundation.Runs
import LedgerDesk.Reception.Data

/-!
# The transactions of the reception service

What a call does between two commits. A call that has work done outside commits before it and goes
on behind it with the rows it has read, which may have changed; only the lock of the quota is held
from the first transaction of a resumption to its last, and given up when the call is closed. A
transaction that is refused or raises leaves nothing behind.
-/
namespace LedgerDesk.Reception

open Foundation
open Intake (Raised)

namespace ReceptionBounds

def receptions : Nat := 32
def attempts : Nat := 3
def storageBytes : Nat := 67108864

end ReceptionBounds

inductive Refused where
  | raised (error : Raised)
  /-- `IntakeFailure`. -/
  | failure (status : Nat)
  deriving DecidableEq, Repr

abbrev Committed := Except Refused Data

/-- A statement of the transaction. -/
def statement (moves : Moves) : Committed := moves.mapError .raised

/-- A request to reserve, with the ids that are drawn for it. -/
structure Reservation where
  id : String
  operation_id : String
  artifact_id : String
  effect_id : String
  principal : String
  person_ref : String
  session : String
  client_key : String
  payload_digest : String
  incarnation : String
  deadline : Nat
  original : Declaration
  deriving DecidableEq, Repr

def newReception (b : Reservation) : ReceptionRow × Attempt :=
  ({ id := b.id, principal := b.principal, person_ref := b.person_ref, origin_session := b.session
     revision := 1, generation := 1, state := .reserved, declaration := b.original
     effect_slot := b.effect_id, stopped := false },
    { reception_id := b.id, generation := 1, artifact_id := b.artifact_id
      incarnation := b.incarnation, state := .reserved, expires_at := b.deadline
      reserved_bytes := b.original.bytes, actual_bytes := 0, actual_sha256 := none })

/-- A request about a reception, with the ids that are drawn for it. -/
structure Call where
  principal : String
  client_key : String
  payload_digest : String
  operation_id : String
  evidence_id : String
  receipt_id : String
  job_id : String
  /-- The original that the load of the admission names. -/
  load_original : String × Nat
  deriving DecidableEq, Repr

def Reservation.intention (b : Reservation) : Intention :=
  ⟨b.operation_id, b.principal, .reserve_reception, b.client_key, b.payload_digest, b.id, none⟩

def Call.intention (call : Call) (variant : Variant) (reception_id : String)
    (effect_id : Option String) : Intention :=
  ⟨call.operation_id, call.principal, variant, call.client_key, call.payload_digest, reception_id,
    effect_id⟩

namespace Data

variable (d : Data)

def quota : Nat := (d.attempts.map Attempt.reserved_bytes).sum

/-- The reception, and the attempt of its generation. -/
def selected (target : String) : Except Refused (ReceptionRow × Attempt) :=
  match d.receptions.find? fun r => r.id = target with
  | none => .error (.failure 404)
  | some reception =>
    match d.attempts.find? fun a => a.of target reception.generation with
    | none => .error (.failure 503)
    | some attempt => .ok (reception, attempt)

def reserve (b : Reservation) : Committed := do
  let (reception, attempt) := newReception b
  ensure (d.receptions.length < ReceptionBounds.receptions &&
    d.quota + b.original.bytes ≤ ReceptionBounds.storageBytes) (.failure 429)
  let d ← statement (d.insertReception reception)
  let d ← statement (d.insertAttempt attempt)
  let d ← statement (d.insertIntention b.intention)
  statement d.consistent_receipt

def appendChunk (associated : Bool) (target : String) (generation consumed next : Nat) :
    Committed := do
  let d ← statement (d.record_chunk associated target generation consumed next)
  statement d.consistent_receipt

/-- The original has been sealed outside. -/
def stageOriginal (reception : ReceptionRow) (attempt : Attempt) : Committed := do
  let d ← statement (d.insertArtifact ⟨attempt.artifact_id, reception.id, attempt.generation,
    reception.declaration.bytes, reception.declaration.sha256⟩)
  let d ← statement (d.stage_attempt reception.id attempt.generation reception.revision
    reception.declaration.sha256)
  statement d.consistent_receipt

def finalize (reception : ReceptionRow) (attempt : Attempt) (artifact : Artifact) (call : Call) :
    Committed := do
  ensure (!reception.stopped && reception.state = .staged && attempt.state = .sealed) (.failure 409)
  ensure (artifact.sha256 = reception.declaration.sha256 &&
    artifact.bytes = reception.declaration.bytes) (.failure 503)
  let d ← statement (d.insertIntention
    (call.intention .finalize_reception reception.id (some reception.effect_slot)))
  let d ← statement (d.insertEvidence ⟨call.evidence_id, .effect, some call.operation_id,
    some artifact.id, some artifact.generation, call.principal, 200⟩)
  let d ← statement (d.insertReceipt ⟨call.receipt_id, reception.id, call.operation_id,
    reception.effect_slot, artifact.id, artifact.generation, artifact.bytes, artifact.sha256,
    reception.person_ref, call.load_original, call.evidence_id⟩)
  let d ← statement (d.insertWork ⟨call.job_id, call.receipt_id, artifact.id, artifact.generation,
    .not_started⟩)
  let d ← statement (d.complete_reception reception.id attempt.generation reception.revision)
  statement d.consistent_receipt

def cancel (guard : Except Raised Unit) (reception : ReceptionRow) (attempt : Attempt)
    (call : Call) : Committed := do
  let d ← statement (d.stop_reception guard reception.id attempt.generation reception.revision)
  let d ← statement (d.insertIntention (call.intention .cancel_reception reception.id none))
  statement d.consistent_receipt

/-- The reception has work at an extraction: its stop is asked for, and comes when the work is known
to be closed, in the same transaction or a later one. -/
def requestStop (reception : ReceptionRow) (call : Call) : Committed := do
  let d ← statement (d.insertIntention (call.intention .cancel_reception reception.id none))
  statement d.consistent_receipt

def finishStop (guard : Except Raised Unit) (reception : ReceptionRow) : Committed := do
  ensure (reception.state = .received) (.failure 503)
  let d ← statement
    (d.stop_reception guard reception.id reception.generation reception.revision)
  statement d.consistent_receipt

/-- What a resumption looks at before the attempt is fenced outside. -/
def resumable (reception : ReceptionRow) (attempt : Attempt) (expected_generation : Nat) :
    Except Refused Unit := do
  ensure (expected_generation = attempt.generation && !reception.stopped &&
    reception.generation < ReceptionBounds.attempts &&
    reception.state ∈ [.interrupted, .reserved, .receiving]) (.failure 409)
  ensure (d.quota + reception.declaration.bytes ≤ ReceptionBounds.storageBytes) (.failure 429)

def resume (guard : Except Raised Unit) (reception : ReceptionRow) (attempt : Attempt) (call : Call)
    (artifact_id incarnation : String) (deadline : Nat) : Committed := do
  let d ← statement (d.resume_attempt guard reception.id attempt.generation reception.revision
    artifact_id incarnation deadline)
  let d ← statement (d.insertIntention (call.intention .resume_reception reception.id none))
  statement d.consistent_receipt

def recordIncomplete (target : String) (generation : Nat) (incarnation session : String)
    (unresolved : Bool) : Committed :=
  match d.record_incomplete target generation incarnation session unresolved with
  | (d, true) => statement d.consistent_receipt
  | (d, false) => .ok d

end Data

/-! ### Calls at work -/

/-- The data, and what the call that has the lock of the quota has read. -/
structure ReceptionWorld where
  data : Data
  quota : Option (ReceptionRow × Attempt)
  deriving DecidableEq, Repr

/-- The rows that come with an act are whatever its call has read before. -/
inductive ReceptionAct where
  | reserve (b : Reservation)
  | chunk (associated : Bool) (target : String) (generation consumed next : Nat)
  | stage (reception : ReceptionRow) (attempt : Attempt)
  | finalize (reception : ReceptionRow) (attempt : Attempt) (artifact : Artifact) (call : Call)
  | cancel (guard : Except Raised Unit) (reception : ReceptionRow) (attempt : Attempt) (call : Call)
  | requestStop (reception : ReceptionRow) (call : Call)
  | finishStop (guard : Except Raised Unit) (reception : ReceptionRow)
  | hold (target : String) (expected_generation : Nat)
  | resume (guard : Except Raised Unit) (call : Call) (artifact_id incarnation : String)
    (deadline : Nat)
  /-- The call that has the lock ends, or its connection is lost. -/
  | leave
  | incomplete (target : String) (generation : Nat) (incarnation session : String)
    (unresolved : Bool)

namespace ReceptionWorld

def installed : ReceptionWorld := ⟨.installed, none⟩

variable (w : ReceptionWorld)

def commit (committed : Committed) : Option ReceptionWorld :=
  committed.toOption.map fun d => { w with data := d }

def step : ReceptionAct → Option ReceptionWorld
  | .reserve b => if w.quota.isNone then w.commit (w.data.reserve b) else none
  | .chunk associated target generation consumed next =>
    w.commit (w.data.appendChunk associated target generation consumed next)
  | .stage reception attempt => w.commit (w.data.stageOriginal reception attempt)
  | .finalize reception attempt artifact call =>
    w.commit (w.data.finalize reception attempt artifact call)
  | .cancel guard reception attempt call => w.commit (w.data.cancel guard reception attempt call)
  | .requestStop reception call => w.commit (w.data.requestStop reception call)
  | .finishStop guard reception => w.commit (w.data.finishStop guard reception)
  | .hold target expected_generation => do
    guard w.quota.isNone
    let rows ← (w.data.selected target).toOption
    let _ ← (w.data.resumable rows.1 rows.2 expected_generation).toOption
    return { w with quota := some rows }
  | .resume guard call artifact_id incarnation deadline => do
    let rows ← w.quota
    let d ← (w.data.resume guard rows.1 rows.2 call artifact_id incarnation deadline).toOption
    return { data := d, quota := none }
  | .leave => some { w with quota := none }
  | .incomplete target generation incarnation session unresolved =>
    w.commit (w.data.recordIncomplete target generation incarnation session unresolved)

end ReceptionWorld

end LedgerDesk.Reception
