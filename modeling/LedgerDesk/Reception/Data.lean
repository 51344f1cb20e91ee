import LedgerDesk.Foundation.Checks
import LedgerDesk.Foundation.Rows
import LedgerDesk.Intake.Fence

/-!
# Receptions and their attempts

The tables of the intake and the functions that move a reception and its attempt together, each
from the predecessor it names. A function whose predecessor has changed raises, and what its
transaction did is undone.
-/
namespace LedgerDesk.Reception

open Foundation Foundation.Rows
open Intake (Raised)

abbrev Bytes := List UInt8

/-! ### Rows -/

inductive ReceptionState where
  | reserved
  | receiving
  | staged
  | received
  | interrupted
  | stopped
  | uncertain
  deriving DecidableEq, Repr

structure Declaration where
  bytes : Nat
  sha256 : String
  deriving DecidableEq, Repr

structure ReceptionRow where
  id : String
  principal : String
  person_ref : String
  origin_session : String
  revision : Nat
  generation : Nat
  state : ReceptionState
  declaration : Declaration
  effect_slot : String
  stopped : Bool
  deriving DecidableEq, Repr

inductive AttemptState where
  | reserved
  | receiving
  | sealed
  | interrupted
  | fenced
  deriving DecidableEq, Repr

structure Attempt where
  reception_id : String
  generation : Nat
  artifact_id : String
  incarnation : String
  state : AttemptState
  expires_at : Nat
  reserved_bytes : Nat
  actual_bytes : Nat
  actual_sha256 : Option String
  deriving DecidableEq, Repr

structure Artifact where
  id : String
  reception_id : String
  generation : Nat
  bytes : Nat
  sha256 : String
  deriving DecidableEq, Repr

inductive Variant where
  | reserve_reception
  | finalize_reception
  | cancel_reception
  | resume_reception
  deriving DecidableEq, Repr

structure Intention where
  id : String
  principal : String
  variant : Variant
  client_key : String
  payload_digest : String
  reception_id : String
  effect_id : Option String
  deriving DecidableEq, Repr

inductive EvidencePhase where
  | capture_admission
  | read_admission
  | effect
  | delivery
  | query
  deriving DecidableEq, Repr

structure Evidence where
  id : String
  phase : EvidencePhase
  operation_id : Option String
  artifact_id : Option String
  generation : Option Nat
  principal : String
  status : Nat
  deriving DecidableEq, Repr

/-- The receipt, with the original that its load names. -/
structure Receipt where
  id : String
  reception_id : String
  operation_id : String
  effect_id : String
  artifact_id : String
  generation : Nat
  bytes : Nat
  sha256 : String
  person_ref : String
  load_original : String × Nat
  evidence_id : String
  deriving DecidableEq, Repr

inductive WorkState where
  | not_started
  | stopped
  deriving DecidableEq, Repr

structure Work where
  id : String
  receipt_id : String
  original_id : String
  generation : Nat
  state : WorkState
  deriving DecidableEq, Repr

/-- The data of the intake. Nothing is deleted from it. -/
structure Data where
  receptions : List ReceptionRow
  attempts : List Attempt
  artifacts : List Artifact
  intentions : List Intention
  evidence : List Evidence
  receipts : List Receipt
  work : List Work
  deriving DecidableEq, Repr

def Data.installed : Data := ⟨[], [], [], [], [], [], []⟩

/-! ### Inserts -/

abbrev Moves := Except Raised Data

def uniqueViolation : Raised := ⟨"unique_violation", "23505"⟩
def foreignViolation : Raised := ⟨"foreign_key_violation", "23503"⟩
def checkViolation : Raised := ⟨"check_violation", "23514"⟩

/-- The attempt is the one of the reception and generation. -/
def Attempt.of (a : Attempt) (target : String) (generation : Nat) : Bool :=
  a.reception_id = target && a.generation = generation

namespace Data

variable (d : Data)

def insertReception (row : ReceptionRow) : Moves := do
  ensure (!d.receptions.any fun r => r.id = row.id || r.effect_slot = row.effect_slot)
    uniqueViolation
  ensure (0 < row.revision && 1 ≤ row.generation && row.generation ≤ 3) checkViolation
  return { d with receptions := d.receptions ++ [row] }

def insertAttempt (row : Attempt) : Moves := do
  ensure (!d.attempts.any fun a =>
    a.of row.reception_id row.generation || a.artifact_id = row.artifact_id) uniqueViolation
  ensure (d.receptions.any fun r => r.id = row.reception_id) foreignViolation
  ensure (1 ≤ row.generation && row.generation ≤ 3 && row.reserved_bytes ≤ 1048576 &&
    row.actual_bytes ≤ 1048576) checkViolation
  return { d with attempts := d.attempts ++ [row] }

def insertArtifact (row : Artifact) : Moves := do
  ensure (!d.artifacts.any fun o => o.id = row.id) uniqueViolation
  ensure (d.attempts.any fun a => a.of row.reception_id row.generation && a.artifact_id = row.id)
    foreignViolation
  ensure (row.bytes ≤ 1048576) checkViolation
  return { d with artifacts := d.artifacts ++ [row] }

def insertIntention (row : Intention) : Moves := do
  ensure (!d.intentions.any fun i => i.id = row.id ||
    (i.principal = row.principal && i.variant = row.variant && i.client_key = row.client_key))
    uniqueViolation
  ensure (d.receptions.any fun r => r.id = row.reception_id) foreignViolation
  return { d with intentions := d.intentions ++ [row] }

def insertEvidence (row : Evidence) : Moves := do
  ensure (!d.evidence.any fun v => v.id = row.id) uniqueViolation
  return { d with evidence := d.evidence ++ [row] }

def insertReceipt (row : Receipt) : Moves := do
  ensure (!d.receipts.any fun e => e.id = row.id || e.reception_id = row.reception_id ||
    e.operation_id = row.operation_id || e.effect_id = row.effect_id) uniqueViolation
  ensure ((d.receptions.any fun r => r.id = row.reception_id) &&
    (d.intentions.any fun i => i.id = row.operation_id) &&
    (d.artifacts.any fun o => o.reception_id = row.reception_id && o.generation = row.generation &&
      o.id = row.artifact_id && o.bytes = row.bytes && o.sha256 = row.sha256) &&
    (d.evidence.any fun v => v.id = row.evidence_id)) foreignViolation
  return { d with receipts := d.receipts ++ [row] }

def insertWork (row : Work) : Moves := do
  ensure (!d.work.any fun j => j.id = row.id || j.receipt_id = row.receipt_id) uniqueViolation
  ensure (d.receipts.any fun e => e.id = row.receipt_id && e.artifact_id = row.original_id &&
    e.generation = row.generation) foreignViolation
  return { d with work := d.work ++ [row] }

/-! ### Moves -/

/-- What the phase tables say of the chunk's phase, and the fence of the mutation, are arguments,
and may be anything. -/
def record_chunk (associated : Bool) (target : String) (attempt_generation previous_bytes
    next_bytes : Nat) : Moves := do
  ensure associated ⟨"Chunk phase association", "42501"⟩
  ensure (previous_bytes < next_bytes && next_bytes - previous_bytes ≤ 65536)
    ⟨"Invalid chunk", "22023"⟩
  let chosen := fun a : Attempt => a.of target attempt_generation &&
    a.actual_bytes = previous_bytes && a.state ∈ [.reserved, .receiving] &&
    next_bytes ≤ a.reserved_bytes &&
    d.receptions.any fun r => r.id = a.reception_id && r.generation = a.generation && !r.stopped &&
      r.state ∈ [.reserved, .receiving]
  ensure (d.attempts.any chosen) ⟨"Chunk predecessor changed", "40001"⟩
  return { d with
    attempts := update chosen
      (fun a => { a with state := .receiving, actual_bytes := next_bytes }) d.attempts
    receptions := update (fun r => r.id = target) (fun r => { r with state := .receiving })
      d.receptions }

def stage_attempt (target : String) (attempt_generation expected_revision : Nat)
    (observed_digest : String) : Moves := do
  let chosen := fun a : Attempt => a.of target attempt_generation &&
    a.state ∈ [.reserved, .receiving] && a.actual_bytes = a.reserved_bytes &&
    (d.receptions.any fun r => r.id = target && r.generation = a.generation &&
      r.revision = expected_revision && !r.stopped && r.state ∈ [.reserved, .receiving] &&
      observed_digest = r.declaration.sha256) &&
    d.artifacts.any fun o => o.id = a.artifact_id && o.reception_id = target &&
      o.generation = a.generation && o.bytes = a.reserved_bytes && o.sha256 = observed_digest
  ensure (d.attempts.any chosen) ⟨"Stage predecessor changed", "40001"⟩
  return { d with
    attempts := update chosen
      (fun a => { a with state := .sealed, actual_sha256 := some observed_digest }) d.attempts
    receptions := update (fun r => r.id = target)
      (fun r => { r with state := .staged, revision := r.revision + 1 }) d.receptions }

def complete_reception (target : String) (attempt_generation expected_revision : Nat) : Moves := do
  let chosen := fun r : ReceptionRow => r.id = target && r.generation = attempt_generation &&
    r.revision = expected_revision && r.state = .staged && !r.stopped &&
    d.receipts.any fun e => e.reception_id = r.id && e.generation = r.generation &&
      e.effect_id = r.effect_slot && d.work.any fun j => j.receipt_id = e.id
  ensure (d.receptions.any chosen) ⟨"Receipt predecessor changed", "40001"⟩
  return { d with
    receptions := update chosen
      (fun r => { r with state := .received, revision := r.revision + 1 }) d.receptions }

def stop_reception (guard : Except Raised Unit) (target : String)
    (attempt_generation expected_revision : Nat) : Moves := do
  guard
  let chosen := fun r : ReceptionRow => r.id = target && r.generation = attempt_generation &&
    r.revision = expected_revision && !r.stopped
  ensure (d.receptions.any chosen) ⟨"Stop predecessor changed", "40001"⟩
  return { d with
    receptions := update chosen
      (fun r => { r with stopped := true, state := .stopped, revision := r.revision + 1 })
      d.receptions
    attempts := update (fun a => a.of target attempt_generation && a.state ≠ .sealed)
      (fun a => { a with state := .fenced }) d.attempts
    work := update (fun j => d.receipts.any fun e => e.reception_id = target && e.id = j.receipt_id)
      (fun j => { j with state := .stopped }) d.work }

def resume_attempt (guard : Except Raised Unit) (target : String)
    (previous_generation expected_revision : Nat) (next_artifact next_incarnation : String)
    (expiration : Nat) : Moves := do
  guard
  let chosen := fun r : ReceptionRow => r.id = target && r.generation = previous_generation &&
    r.revision = expected_revision && r.generation < 3 && !r.stopped &&
    r.state ∈ [.reserved, .receiving, .interrupted] &&
    !d.receipts.any fun e => e.reception_id = target
  match d.receptions.find? chosen with
  | none => .error ⟨"Resume predecessor changed", "40001"⟩
  | some predecessor =>
    insertAttempt { d with
      receptions := update chosen (fun r => { r with
        state := .reserved, revision := r.revision + 1, generation := r.generation + 1 })
        d.receptions
      attempts := update (fun a => a.of target previous_generation)
        (fun a => { a with state := .fenced }) d.attempts }
      ⟨target, previous_generation + 1, next_artifact, next_incarnation, .reserved, expiration,
        predecessor.declaration.bytes, 0, none⟩

/-- With whether it was recorded. -/
def record_incomplete (target : String) (attempt_generation : Nat)
    (owner_incarnation origin_digest : String) (unresolved : Bool) : Data × Bool :=
  let chosen := fun r : ReceptionRow => r.id = target && r.generation = attempt_generation &&
    r.origin_session = origin_digest && !r.stopped && r.state ∈ [.reserved, .receiving] &&
    (d.attempts.any fun a => a.of r.id r.generation && a.incarnation = owner_incarnation &&
      a.state ∈ [.reserved, .receiving]) &&
    !d.receipts.any fun e => e.reception_id = r.id
  if d.receptions.any chosen then
    ({ d with
      receptions := update chosen (fun r => { r with
        state := if unresolved then .uncertain else .interrupted, revision := r.revision + 1 })
        d.receptions
      attempts := update (fun a => a.of target attempt_generation)
        (fun a => { a with state := .interrupted }) d.attempts }, true)
  else (d, false)

/-- The receipt is not the one its reception, its intention and its evidence are of. -/
def incompleteReceipt (e : Receipt) (r : ReceptionRow) (i : Intention) (v : Evidence) : Bool :=
  e.effect_id ≠ r.effect_slot || i.effect_id ≠ some e.effect_id || i.reception_id ≠ r.id ||
    i.principal ≠ r.principal || i.variant ≠ .finalize_reception || e.person_ref ≠ r.person_ref ||
    e.load_original.1 ≠ e.artifact_id || e.load_original.2 ≠ e.generation || v.phase ≠ .effect ||
    v.operation_id ≠ some i.id || v.artifact_id ≠ some e.artifact_id ||
    v.generation ≠ some e.generation || v.principal ≠ r.principal || v.status ≠ 200 ||
    r.state ∉ [.received, .stopped] ||
    !d.work.any fun j => j.receipt_id = e.id && j.id ≠ e.operation_id

/-- Deferred to the end of every transaction that adds a receipt or changes a reception. -/
def consistent_receipt : Moves := do
  ensure (!((d.receipts.any fun e => d.receptions.any fun r => d.intentions.any fun i =>
      d.evidence.any fun v => r.id = e.reception_id && i.id = e.operation_id &&
        v.id = e.evidence_id && d.incompleteReceipt e r i v) ||
    d.receptions.any fun r => r.state = .received &&
      !d.receipts.any fun e => e.reception_id = r.id))
    ⟨"Incomplete receipt association", "23514"⟩
  return d

end Data

end LedgerDesk.Reception
