import Mathlib

/-!
# The ticket state machine

An edge that is not published is not legal, and every edge names who evaluates its guard.
-/
namespace LedgerDesk.Tickets

inductive UserRole where
  | customer
  | agent
  | supervisor
  deriving DecidableEq, Repr

inductive TicketState where
  | NEW
  | TRIAGED
  | DRAFTED
  | AWAITING_AGENT
  | SENT
  | ESCALATED
  | RESOLVED
  | CLOSED
  | REOPENED
  | TRIAGE_FAILED
  deriving DecidableEq, Repr

def ticketStates : List TicketState :=
  [.NEW, .TRIAGED, .DRAFTED, .AWAITING_AGENT, .SENT, .ESCALATED, .RESOLVED, .CLOSED, .REOPENED,
    .TRIAGE_FAILED]

inductive GuardOwner where
  | console
  | triageAgent
  | draftAgent
  | groundingValidator
  | escalationRule
  | approvalConstraint
  | reopenWindow
  deriving DecidableEq, Repr

structure Edge where
  source : TicketState
  target : TicketState
  guard : String
  guardedBy : GuardOwner
  /-- Every role the write path admits, where none is named. -/
  requiresRole : Option (List UserRole) := none
  deriving DecidableEq, Repr

def escalationGuard : String :=
  "a clause of the escalation rule fires, and the firing clause is recorded"

def escalationEdges : List Edge :=
  (ticketStates.filter (· ≠ .ESCALATED)).map fun state =>
    { source := state, target := .ESCALATED, guard := escalationGuard,
      guardedBy := .escalationRule }

def transitions : List Edge := [
  { source := .NEW, target := .TRIAGED
    guard := "triage returned a schema-valid object carrying its confidence"
    guardedBy := .triageAgent },
  { source := .NEW, target := .TRIAGE_FAILED
    guard := "schema violation, timeout, or an empty body after redaction"
    guardedBy := .triageAgent },
  { source := .TRIAGED, target := .DRAFTED
    guard := "a draft was produced for the ticket"
    guardedBy := .draftAgent },
  { source := .DRAFTED, target := .AWAITING_AGENT
    guard := "the validator reports grounded = true and the policy check passes"
    guardedBy := .groundingValidator },
  { source := .AWAITING_AGENT, target := .SENT
    guard := "approved_by is not null — a database constraint, not a convention"
    guardedBy := .approvalConstraint },
  { source := .SENT, target := .RESOLVED
    guard := "the ticket is resolved; no further guard is published for this edge"
    guardedBy := .console },
  { source := .RESOLVED, target := .CLOSED
    guard := "the resolution is closed out; no further guard is published for this edge"
    guardedBy := .console },
  { source := .ESCALATED, target := .RESOLVED
    guard := "taken from the supervisor console; the human closes what was escalated to a human"
    guardedBy := .console
    requiresRole := some [.supervisor] },
  { source := .CLOSED, target := .REOPENED
    guard :=
      "a customer reply inside the retention window; the SLA clock restarts and retries are preserved. " ++
      "The customer supplies the event (their reply); staff or the system executes the state transition — " ++
      "the staff-only write policy is correct and permanent"
    guardedBy := .reopenWindow },
  { source := .REOPENED, target := .TRIAGED
    guard := "the reopened ticket is triaged again"
    guardedBy := .triageAgent }] ++ escalationEdges

def findTransition (source target : TicketState) : Option Edge :=
  transitions.find? fun edge => edge.source = source && edge.target = target

def isGuardAvailable (edge : Edge) : Bool := edge.guardedBy == .console

/-- Such a ticket absorbs no submission. -/
def TicketState.closed : TicketState → Bool
  | .RESOLVED | .CLOSED => true
  | _ => false

theorem findTransition_ends {source target : TicketState} {edge : Edge}
    (found : findTransition source target = some edge) :
    edge.source = source ∧ edge.target = target := by
  have ends := List.find?_some found
  simpa using ends

/-- What a console may take leads to a closed ticket. -/
theorem console_closes {source target : TicketState} {edge : Edge}
    (found : findTransition source target = some edge) (console : isGuardAvailable edge = true) :
    target.closed = true := by
  revert edge
  cases source <;> cases target <;> decide

end LedgerDesk.Tickets
