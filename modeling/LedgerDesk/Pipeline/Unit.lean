import LedgerDesk.Drafting.Cycle
import LedgerDesk.Foundation.Cells
import LedgerDesk.Ledger.Audit

/-!
# A unit of work over the tickets and the audit chains

What a cycle writes about a ticket is one transaction: compare-and-sets, a response, a gap record
in a savepoint, and the rows of the decision. A transaction that loses the head of the audit chain
is rolled back and rebuilt whole, a bounded number of times. The chokepoint files its events in the
same way, in units of their own.

A step is one exchange with the database. The head is read before the row is inserted, and the
number of the row is drawn before the lock of the chain is had.
-/
namespace LedgerDesk.Pipeline

open Foundation Agents Ledger
open Drafting (Response GapEvidence)
open Tickets (TicketState GuardOwner findTransition)
open Triage

structure Ticket extends TicketRow where
  org_id : String
  deriving DecidableEq, Repr

structure AuditRow extends ChainedAuditEvent where
  id : Nat

structure EmittedGap where
  gap_id : Option String := none
  refused : Option String := none
  deriving DecidableEq, Repr

inductive Statement where
  | transition (ticketId : String) (source target : TicketState) (owner : GuardOwner)
      (assign : ComponentAssignment)
  | insertResponse (response : Response)
  | emitGap (evidence : GapEvidence)
  /-- What is recorded may name the gap. -/
  | record (event : EmittedGap → AuditEventContent)

structure WorkUnit where
  org_id : String
  /-- How many times the transaction is built. -/
  attempts : Nat
  program : List Statement

/-- `CHAIN_ATTEMPTS`. -/
def chainAttempts : Nat := 3

/-- `APPEND_ATTEMPTS`. -/
def appendAttempts : Nat := 6

structure Database (ι : Type*) where
  tickets : String → Cell ι (Option Ticket)
  /-- The chain of each organisation. Its lock is the one its trigger takes. -/
  audit : String → Cell ι (List AuditRow)
  responses : List Response
  /-- The responses of transactions that are open. -/
  inserted : ι → List Response
  nextId : Nat

inductive UnitFault where
  | thrown (fault : TriageFault)
  /-- Every attempt lost the head. -/
  | chainLost
  /-- The database refused a statement, or was not heard of again. -/
  | database
  deriving DecidableEq, Repr

inductive UnitPhase where
  | ready (attempt : Nat) (rest : List Statement) (gap : EmittedGap)
  /-- The row is linked to the head that was read. -/
  | built (attempt : Nat) (row : ChainedAuditEvent) (rest : List Statement) (gap : EmittedGap)
  | numbered (attempt : Nat) (id : Nat) (row : ChainedAuditEvent) (rest : List Statement)
      (gap : EmittedGap)
  | committed
  | failed (fault : UnitFault)

inductive UnitAct where
  | execute
  /-- The savepoint is released, or rolled back to. -/
  | emit (gap : EmittedGap)
  | readHead
  | drawNumber
  | insert
  | commit
  /-- The commit is taken, and its reply is lost. -/
  | commitUnheard
  | refuse
  deriving DecidableEq, Repr

/-! ### Single statements -/

/-- The compare-and-set, on the row as the session sees it. -/
def transitionOn (org_id : String) (source target : TicketState) (owner : GuardOwner)
    (assign : ComponentAssignment) (row : Option Ticket) : Except TriageFault Ticket :=
  match row.filter fun ticket => ticket.org_id = org_id with
  | some ticket =>
    (applyComponentTransitionOn source target owner assign ticket.toTicketRow).map
      fun row => { ticket with toTicketRow := row }
  | none =>
    if owner ∈ neverAComponent then .error (.notAComponent owner)
    else
      match findTransition source target with
      | none => .error (.transitionIllegal source target)
      | some edge =>
        if edge.guardedBy ≠ owner then .error (.notTheOwner source target owner)
        else .error .transitionStale

/-- The head of a chain: its row of the highest number. -/
def auditHead (rows : List AuditRow) : Option AuditRow := rows.argmax AuditRow.id

/-- `audit_event_link`. -/
def linksToHead (rows : List AuditRow) (row : ChainedAuditEvent) : Bool :=
  row.prev_hash = ((auditHead rows).map fun head => head.row_hash).getD auditGenesis

/-- `audit_one_child_per_head`. -/
def isSecondChild (rows : List AuditRow) (row : ChainedAuditEvent) : Bool :=
  rows.any fun other => other.prev_hash = row.prev_hash

namespace Database

variable {ι : Type*} [DecidableEq ι]

def commit (db : Database ι) (i : ι) : Database ι :=
  { db with
    tickets := fun k => (db.tickets k).commit i
    audit := fun o => (db.audit o).commit i
    responses := db.responses ++ db.inserted i
    inserted := Function.update db.inserted i [] }

def rollback (db : Database ι) (i : ι) : Database ι :=
  { db with
    tickets := fun k => (db.tickets k).abort i
    audit := fun o => (db.audit o).abort i
    inserted := Function.update db.inserted i [] }

def writeTicket (db : Database ι) (i : ι) (k : String) (ticket : Ticket) : Database ι :=
  { db with tickets := Function.update db.tickets k ((db.tickets k).write i (some ticket)) }

def insertResponse (db : Database ι) (i : ι) (response : Response) : Database ι :=
  { db with inserted := Function.update db.inserted i (db.inserted i ++ [response]) }

/-- `ticket_state_needs_its_evidence`, of the edge into the waiting state: any response will do. -/
def groundedStands (db : Database ι) (i : ι) (ticketId : String) : Bool :=
  (db.responses ++ db.inserted i).any fun response =>
    response.ticket_id = ticketId && response.grounded

def appendAudit (db : Database ι) (i : ι) (row : AuditRow) : Database ι :=
  let cell := db.audit row.org_id
  { db with audit := Function.update db.audit row.org_id (cell.write i (cell.sight i ++ [row])) }

end Database

/-! ### The steps of a unit -/

section Steps

variable {ι : Type*} [DecidableEq ι] (sha256Hex : String → String) (unit : WorkUnit)

def WorkUnit.begin : UnitPhase := .ready 0 unit.program {}

/-- The transaction lost the head. -/
def conflict (db : Database ι) (i : ι) (attempt : Nat) : Database ι × UnitPhase :=
  (db.rollback i,
    if attempt + 1 < unit.attempts then .ready (attempt + 1) unit.program {}
    else .failed .chainLost)

def executeStep (db : Database ι) (i : ι) : UnitPhase → Option (Database ι × UnitPhase)
  | .ready attempt (.transition id source target owner assign :: rest) gap =>
    match transitionOn unit.org_id source target owner assign ((db.tickets id).sight i) with
    | .error fault => some (db.rollback i, .failed (.thrown fault))
    | .ok ticket =>
      -- a row another transaction has written is waited for
      if !(db.tickets id).isOpen i then none
      else if target = .AWAITING_AGENT && !db.groundedStands i id then
        some (db.rollback i, .failed .database)
      else some (db.writeTicket i id ticket, .ready attempt rest gap)
  | .ready attempt (.insertResponse response :: rest) gap =>
    some (db.insertResponse i response, .ready attempt rest gap)
  | _ => none

def emitStep (db : Database ι) (emitted : EmittedGap) :
    UnitPhase → Option (Database ι × UnitPhase)
  | .ready attempt (.emitGap _ :: rest) _ => some (db, .ready attempt rest emitted)
  | _ => none

def readHeadStep (db : Database ι) (i : ι) : UnitPhase → Option (Database ι × UnitPhase)
  | .ready attempt (.record event :: rest) gap =>
    let content := event gap
    let head := auditHead ((db.audit content.org_id).sight i)
    some (db, .built attempt (linkAuditRow sha256Hex content (head.map fun row => row.row_hash))
      rest gap)
  | _ => none

def drawNumberStep (db : Database ι) : UnitPhase → Option (Database ι × UnitPhase)
  | .built attempt row rest gap =>
    some ({ db with nextId := db.nextId + 1 }, .numbered attempt db.nextId row rest gap)
  | _ => none

def insertStep (db : Database ι) (i : ι) : UnitPhase → Option (Database ι × UnitPhase)
  | .numbered attempt id row rest gap =>
    let cell := db.audit row.org_id
    if !cell.isOpen i then none
    else if !linksToHead (cell.sight i) row then some (conflict unit db i attempt)
    -- the policy lets a session write for its own organisation
    else if row.org_id ≠ unit.org_id then some (db.rollback i, .failed .database)
    else if !auditHashShape row then some (db.rollback i, .failed .database)
    else if isSecondChild (cell.sight i) row then some (conflict unit db i attempt)
    else some (db.appendAudit i { row with id }, .ready attempt rest gap)
  | _ => none

def UnitPhase.live : UnitPhase → Bool
  | .ready _ _ _ | .built _ _ _ _ | .numbered _ _ _ _ _ => true
  | _ => false

def unitStep (db : Database ι) (i : ι) (phase : UnitPhase) :
    UnitAct → Option (Database ι × UnitPhase)
  | .execute => executeStep unit db i phase
  | .emit gap => emitStep db gap phase
  | .readHead => readHeadStep sha256Hex db i phase
  | .drawNumber => drawNumberStep db phase
  | .insert => insertStep unit db i phase
  | .commit =>
    match phase with
    | .ready _ [] _ => some (db.commit i, .committed)
    | _ => none
  | .commitUnheard =>
    match phase with
    | .ready _ [] _ => some (db.commit i, .failed .database)
    | _ => none
  | .refuse => if phase.live then some (db.rollback i, .failed .database) else none

end Steps

end LedgerDesk.Pipeline
