import LedgerDesk.Reception.Service

/-!
# What is told of a reception

The answer about a reception is made of its rows and checked before it is given, and a key that
was used before is answered with the reception it was used for.
-/
namespace LedgerDesk.Reception

open Foundation

inductive OriginalAvailability where
  | not_observed
  | verified_staged
  | available
  | missing
  | corrupt
  deriving DecidableEq, Repr

/-- What was observed of an original last. -/
inductive Observation where
  | available
  | missing
  | corrupt
  deriving DecidableEq, Repr

def Observation.availability : Observation → OriginalAvailability
  | available => .available
  | missing => .missing
  | corrupt => .corrupt

/-- The answer in the first representation, without the format and the configuration of the
reception. Of the effect there is the id that its reference is made of. -/
structure ReceptionResponse where
  operation_id : String
  reception_id : String
  revision : Nat
  state : ReceptionState
  original : String × Nat × Nat × String
  availability : OriginalAvailability
  attempt_expires_at : Nat
  effect : Option String
  work : Option (String × WorkState)
  deriving DecidableEq, Repr

/-- The bounds of the numbers, and what receipt and work have to do with each other. -/
def RECEPTION_RESPONSE (value : ReceptionResponse) : Bool :=
  if !(0 < value.revision && 0 < value.original.2.1 && value.original.2.2.1 ≤ 1048576) then false
  else if value.effect.isNone != value.work.isNone then false
  else if value.state = .received && value.effect.isNone then false
  else if value.effect.isSome && value.state ∉ [.received, .stopped] then false
  else if value.work.any fun work =>
    work.2 ≠ if value.state = .stopped then .stopped else .not_started then false
  else if value.availability ∈ [.available, .missing, .corrupt] && value.effect.isNone then false
  else true

namespace Data

variable (d : Data)

/-- The last observation of an original is an argument. -/
def response (observed : String → Option Observation) (reception : ReceptionRow)
    (attempt : Attempt) (operation_id : String) : ReceptionResponse :=
  let receipt := d.receipts.find? fun e => e.reception_id = reception.id
  let work := receipt.bind fun e => d.work.find? fun j => j.receipt_id = e.id
  let availability := receipt.bind fun e => observed e.artifact_id
  { operation_id := operation_id, reception_id := reception.id, revision := reception.revision
    state := reception.state
    original := (attempt.artifact_id, attempt.generation, reception.declaration.bytes,
      reception.declaration.sha256)
    availability := (availability.map Observation.availability).getD
      (if attempt.state = .sealed && receipt.isNone then .verified_staged else .not_observed)
    attempt_expires_at := attempt.expires_at
    effect := receipt.map Receipt.effect_id
    work := work.map fun j => (j.id, j.state) }

def projection (observed : String → Option Observation) (reception : ReceptionRow)
    (attempt : Attempt) (operation_id : String) : Except Refused ReceptionResponse := do
  let response := d.response observed reception attempt operation_id
  ensure (RECEPTION_RESPONSE response) (.failure 503)
  return response

/-- What a command looks up before anything else: nothing, if its key has not been used. -/
def known (observed : String → Option Observation) (principal : String) (variant : Variant)
    (client_key payload_digest : String) : Except Refused (Option ReceptionResponse) :=
  match d.intentions.find? fun i =>
    i.principal = principal && i.variant = variant && i.client_key = client_key with
  | none => .ok none
  | some intention => do
    let (reception, attempt) ← d.selected intention.reception_id
    ensure (intention.payload_digest = payload_digest) (.failure 409)
    let response ← d.projection observed reception attempt intention.id
    return some response

end Data

end LedgerDesk.Reception
