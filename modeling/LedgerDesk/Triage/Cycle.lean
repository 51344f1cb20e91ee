import LedgerDesk.Foundation.Runs
import LedgerDesk.Tickets.States
import LedgerDesk.Triage.Features

/-!
# The triage cycle

Any number of cycles work on one ticket, in one process or in several, while the consoles and the
other components write its row. A step of a cycle is one exchange with the database or with the
gateway and what the cycle computes from it. The retry counter is persisted in a transaction of
its own, before the next attempt.
-/
namespace LedgerDesk.Triage

open Foundation
open Gateway (TextTables)
open Tickets (TicketState GuardOwner findTransition)

inductive GatewayErrorCode where
  | E_CONFIG_INVALID
  | E_INPUT_PATH_MISSING
  | E_MODEL_PRICE_UNKNOWN
  | E_EMPTY_AFTER_REDACTION
  | E_CANARY_NOT_REDACTED
  | E_CANARY_EGRESS
  | E_PII_EGRESS
  | E_CANARY_IN_RESPONSE
  | E_PII_IN_RESPONSE
  | E_BUDGET_EXHAUSTED
  | E_PROVIDER_TIMEOUT
  | E_PROVIDER_FAILED
  | E_MODEL_UNEXPECTED
  | E_LEDGER_WRITE_FAILED
  | E_REPLAY_CACHE_MISS
  deriving DecidableEq, Repr

inductive AgentErrorCode where
  | E_SCHEMA
  | E_PROMPT_NOT_REGISTERED
  | E_NO_GROUNDING
  deriving DecidableEq, Repr

/-- `E_SCHEMA` is in the set too, and no code of the gateway's. -/
def retryable : List GatewayErrorCode :=
  [.E_PROVIDER_TIMEOUT, .E_PROVIDER_FAILED, .E_MODEL_UNEXPECTED]

def systemic : List GatewayErrorCode :=
  [.E_BUDGET_EXHAUSTED, .E_CONFIG_INVALID, .E_MODEL_PRICE_UNKNOWN, .E_LEDGER_WRITE_FAILED,
    .E_INPUT_PATH_MISSING, .E_REPLAY_CACHE_MISS, .E_CANARY_NOT_REDACTED, .E_CANARY_EGRESS,
    .E_CANARY_IN_RESPONSE, .E_PII_EGRESS, .E_PII_IN_RESPONSE]

/-- What `lastCode` holds after a failure. -/
inductive FailureCode where
  | gateway (code : GatewayErrorCode)
  | agent (code : AgentErrorCode)
  deriving DecidableEq, Repr

def triageable : List TicketState := [.NEW, .REOPENED]

/-- The row of the ticket, with what the read joins to it of the account. -/
structure TicketRow where
  id : String
  status : TicketState
  subject : String
  body_raw : String
  language : String
  retries : Int
  created_at : ℚ
  sla_due_at : Option ℚ
  tier : String
  value_band : Int
  sla_policy_id : Option String
  reading : Option TriageReading
  escalation_reason : Option EscalationReason
  escalation_clause : Option String
  deriving DecidableEq, Repr

structure TriageRuntime where
  tables : TextTables
  thresholds : EscalationThresholds
  /-- The matcher, of a subject and a body. -/
  matchPolicyFlags : String → String → List PolicyFlag

inductive TriageOutcome where
  | skipped (status : TicketState)
  | escalatedAtRecord (reason : EscalationReason) (clause : String)
  | triaged (escalated : Bool) (reason : Option EscalationReason) (clause : Option String)
  | failed (reason : EscalationReason) (clause : String) (code : FailureCode)
  | abandoned (code : GatewayErrorCode)
  deriving DecidableEq, Repr

/-- What a cycle throws. -/
inductive TriageFault where
  | ticketNotVisible
  | runtimeStale
  | impossibleStage (clause : String) (stage : Option ClauseStage)
  | stranded (code : FailureCode)
  | nothingStored
  | notAComponent (owner : GuardOwner)
  | transitionIllegal (source target : TicketState)
  | notTheOwner (source target : TicketState) (owner : GuardOwner)
  | transitionStale
  /-- A code in neither set. -/
  | unsorted (code : GatewayErrorCode)
  /-- Whatever else a call of the cycle throws. -/
  | foreign
  deriving DecidableEq, Repr

/-- The faults that are there to say the cycle is wrong. -/
def TriageFault.defensive : TriageFault → Bool
  | .impossibleStage _ _ | .stranded _ | .nothingStored => true
  | _ => false

/-! ### Component transitions -/

structure ComponentAssignment where
  reading : Option TriageReading := none
  sla : Option (Option String × Option ℚ) := none
  escalation : Option (EscalationReason × String) := none

def ComponentAssignment.write (assign : ComponentAssignment) (row : TicketRow) : TicketRow :=
  { row with
    reading := assign.reading.orElse fun _ => row.reading
    sla_policy_id := (assign.sla.map Prod.fst).getD row.sla_policy_id
    sla_due_at := (assign.sla.map Prod.snd).getD row.sla_due_at
    escalation_reason := (assign.escalation.map Prod.fst).orElse fun _ => row.escalation_reason
    escalation_clause := (assign.escalation.map Prod.snd).orElse fun _ => row.escalation_clause }

def neverAComponent : List GuardOwner := [.console, .approvalConstraint, .reopenWindow]

/-- A compare-and-set on the state the component read. -/
def applyComponentTransitionOn (source target : TicketState) (owner : GuardOwner)
    (assign : ComponentAssignment) (row : TicketRow) : Except TriageFault TicketRow :=
  if owner ∈ neverAComponent then .error (.notAComponent owner)
  else
    match findTransition source target with
    | none => .error (.transitionIllegal source target)
    | some edge =>
      if edge.guardedBy ≠ owner then .error (.notTheOwner source target owner)
      else if row.status ≠ source then .error .transitionStale
      else .ok { assign.write row with status := target }

/-! ### What a cycle computes -/

/-- What a cycle holds: the row as it read it, its instant and its `retries`. -/
structure Standing where
  ticket : TicketRow
  now : ℚ
  retries : Int
  deriving DecidableEq, Repr

/-- The writes a cycle has decided on. -/
inductive Settlement where
  | atRecord (reason : EscalationReason) (clause : String)
  | answer (reading : TriageReading) (redactedLength : Nat)
  | failure (reason : EscalationReason) (clause : String) (code : FailureCode)
  deriving DecidableEq, Repr

inductive TriagePhase where
  | idle
  /-- The next attempt is to be made. -/
  | asking (held : Standing)
  | waiting (held : Standing)
  /-- A retryable failure is to be counted. -/
  | failing (held : Standing) (code : FailureCode)
  | settling (held : Standing) (settlement : Settlement)
  | ended (outcome : TriageOutcome)
  | threw (fault : TriageFault)
  | crashed
  deriving DecidableEq, Repr

def TriagePhase.standing : TriagePhase → Option Standing
  | .asking held | .waiting held | .failing held _ | .settling held _ => some held
  | _ => none

/-- The cycle is under way. -/
def TriagePhase.live (phase : TriagePhase) : Bool := phase.standing.isSome

structure SlaPolicy where
  id : String
  first_response_minutes : Nat
  deriving DecidableEq, Repr

/-- What the gateway and the parser make of an attempt. -/
inductive Reply where
  | parsed (reading : TriageReading) (redactedLength : Nat)
  | malformed (code : AgentErrorCode)
  | refused (code : GatewayErrorCode)
  | foreign
  deriving DecidableEq, Repr

/-- The failures that are counted. -/
def Reply.retried : Reply → Bool
  | .malformed _ => true
  | .refused code => code ∈ retryable
  | _ => false

namespace TriageRuntime

variable (runtime : TriageRuntime)

/-- The input of a vector without an answer: at the record, and after the last attempt. -/
def unanswered (ticket : TicketRow) (retries : Int) (redactedBodyLength : Option Nat) :
    FeatureInput where
  ticket :=
    { id := ticket.id
      createdAt := ticket.created_at
      slaDueAt := ticket.sla_due_at
      language := ticket.language
      retries := retries }
  account := { tier := ticket.tier, valueBand := ticket.value_band }
  triage := none
  redactedBodyLength := redactedBodyLength
  retrieval := none
  validation := none
  policyFlags := runtime.matchPolicyFlags ticket.subject ticket.body_raw

def verdictOf (input : FeatureInput) (now : ℚ) : EscalationVerdict :=
  evaluateEscalation runtime.tables (featuresFromTicket input).features now runtime.thresholds

/-- The record stage. -/
def atRecord (ticket : TicketRow) (now : ℚ) : TriagePhase :=
  let verdict := runtime.verdictOf (runtime.unanswered ticket ticket.retries none) now
  let held : Standing := ⟨ticket, now, ticket.retries⟩
  match verdict.escalate, verdict.reason, verdict.clause with
  | true, some reason, some clause =>
    if clauseStage clause = some .record then .settling held (.atRecord reason clause)
    else .threw (.impossibleStage clause (clauseStage clause))
  | _, _, _ => .asking held

/-- From the read to the first attempt. -/
def start (ticket : TicketRow) (now : ℚ) (visible fresh : Bool) : TriagePhase :=
  if !visible then .threw .ticketNotVisible
  else if ticket.status ∉ triageable then .ended (.skipped ticket.status)
  else if !fresh then .threw .runtimeStale
  else runtime.atRecord ticket now

/-- Every attempt has failed. -/
def exhausted (held : Standing) (emptyAfterRedaction : Bool) (lastCode : FailureCode) :
    TriagePhase :=
  let verdict := runtime.verdictOf
    (runtime.unanswered held.ticket held.retries (if emptyAfterRedaction then some 0 else none))
    held.now
  match verdict.escalate, verdict.reason, verdict.clause with
  | true, some reason, some clause => .settling held (.failure reason clause lastCode)
  | _, _, _ => .threw (.stranded lastCode)

/-- The cycle has heard from the gateway. -/
def heard (held : Standing) : Reply → TriagePhase
  | .parsed reading redactedLength => .settling held (.answer reading redactedLength)
  | .malformed code => .failing held (.agent code)
  | .refused code =>
    if code ∈ systemic then .ended (.abandoned code)
    else if code = .E_EMPTY_AFTER_REDACTION then runtime.exhausted held true (.gateway code)
    else if code ∉ retryable then .threw (.unsorted code)
    else .failing held (.gateway code)
  | .foreign => .threw .foreign

/-- The counter has been advanced, to `retries`. -/
def bumped (held : Standing) (code : FailureCode) (retries : Int) : TriagePhase :=
  let advanced := { held with retries }
  if runtime.thresholds.maxRetries < retries then runtime.exhausted advanced false code
  else .asking advanced

/-- The transaction that settles the ticket, on the row as it stands. -/
def settle (held : Standing) (policy : Option SlaPolicy) (row : TicketRow) :
    Settlement → Except TriageFault (TicketRow × TriageOutcome)
  | .atRecord reason clause => do
    let row ← applyComponentTransitionOn held.ticket.status .ESCALATED .escalationRule
      { escalation := some (reason, clause) } row
    return (row, .escalatedAtRecord reason clause)
  | .failure reason clause code => do
    if held.ticket.status = .REOPENED then
      -- no edge leads from here to the failed state
      let row ← applyComponentTransitionOn .REOPENED .ESCALATED .escalationRule
        { escalation := some (reason, clause) } row
      return (row, .failed reason clause code)
    else
      let row ← applyComponentTransitionOn held.ticket.status .TRIAGE_FAILED .triageAgent {} row
      let row ← applyComponentTransitionOn .TRIAGE_FAILED .ESCALATED .escalationRule
        { escalation := some (reason, clause) } row
      return (row, .failed reason clause code)
  | .answer reading redactedLength => do
    let slaDueAt := policy.map fun policy =>
      held.ticket.created_at + policy.first_response_minutes * 60000
    let unanswered := runtime.unanswered held.ticket held.retries (some redactedLength)
    let input : FeatureInput :=
      { unanswered with ticket := { unanswered.ticket with slaDueAt }, triage := some reading }
    match (featuresFromTicket input).stored with
    | none => throw .nothingStored
    | some stored =>
      let verdict := runtime.verdictOf input held.now
      let row ← applyComponentTransitionOn held.ticket.status .TRIAGED .triageAgent
        { reading := some stored, sla := some (policy.map SlaPolicy.id, slaDueAt) } row
      let row ← match verdict.escalate, verdict.reason, verdict.clause with
        | true, some reason, some clause =>
          applyComponentTransitionOn .TRIAGED .ESCALATED .escalationRule
            { escalation := some (reason, clause) } row
        | _, _, _ => pure row
      return (row, .triaged verdict.escalate verdict.reason verdict.clause)

end TriageRuntime

/-! ### The system -/

/-- A call of the gateway, under the counter as its cycle had it. -/
structure Attempt where
  cycle : Nat
  /-- The counter as the cycle read it to begin with. -/
  opening : Int
  seed : Int
  deriving DecidableEq, Repr

structure TriageState where
  row : TicketRow
  cycles : Nat → TriagePhase
  attempts : List Attempt

inductive TriageAct where
  | start (cycle : Nat) (now : ℚ) (visible fresh : Bool)
  | ask (cycle : Nat)
  | reply (cycle : Nat) (reply : Reply)
  | bump (cycle : Nat)
  | settle (cycle : Nat) (policy : Option SlaPolicy)
  /-- The database refuses what the cycle sends it, or cannot be reached. -/
  | refuse (cycle : Nat)
  | crash (cycle : Nat)
  /-- Another writer leaves the row so. Nothing but a cycle writes `retries`. -/
  | write (row : TicketRow)
  deriving DecidableEq, Repr

def TriageAct.cycle : TriageAct → Option Nat
  | .start i _ _ _ | .ask i | .reply i _ | .bump i | .settle i _ | .refuse i | .crash i => some i
  | .write _ => none

/-- The act counts as a retryable failure of the cycle. -/
def TriageAct.fails (i : Nat) : TriageAct → Bool
  | .reply j said => i = j && said.retried
  | _ => false

def TriageState.enter (s : TriageState) (i : Nat) (phase : TriagePhase) : TriageState :=
  { s with cycles := Function.update s.cycles i phase }

def triageStep (runtime : TriageRuntime) (s : TriageState) : TriageAct → Option TriageState
  | .start i now visible fresh =>
    match s.cycles i with
    | .idle => some (s.enter i (runtime.start s.row now visible fresh))
    | _ => none
  | .ask i =>
    match s.cycles i with
    | .asking held =>
      some { s.enter i (.waiting held) with
        attempts := s.attempts ++ [⟨i, held.ticket.retries, held.retries⟩] }
    | _ => none
  | .reply i reply =>
    match s.cycles i with
    | .waiting held => some (s.enter i (runtime.heard held reply))
    | _ => none
  | .bump i =>
    match s.cycles i with
    | .failing held code =>
      if s.row.status = held.ticket.status then
        some { s.enter i (runtime.bumped held code (s.row.retries + 1)) with
          row := { s.row with retries := s.row.retries + 1 } }
      else some (s.enter i (.threw .transitionStale))
    | _ => none
  | .settle i policy =>
    match s.cycles i with
    | .settling held settlement =>
      match runtime.settle held policy s.row settlement with
      | .ok (row, outcome) => some { s.enter i (.ended outcome) with row }
      | .error fault => some (s.enter i (.threw fault))
    | _ => none
  | .refuse i =>
    match s.cycles i with
    | .failing _ _ | .settling _ _ => some (s.enter i (.threw .foreign))
    | _ => none
  | .crash i => if (s.cycles i).live then some (s.enter i .crashed) else none
  | .write row => if row.retries = s.row.retries then some { s with row } else none

/-- The life of a ticket from some row on, before any cycle. -/
def begin (row : TicketRow) : TriageState := ⟨row, fun _ => .idle, []⟩

end LedgerDesk.Triage
