import LedgerDesk.Gateway.Call
import LedgerDesk.Foundation.Runs

/-!
# The gateway

Calls run in one process and give way to each other only where they await: the cache
lookup, the spend query, the provider and the append. What a call does between two
awaits is one step. A database query is answered at an instant of its own, before the
call that asked resumes, so the spend query takes two steps.
-/
namespace LedgerDesk.Gateway

open Foundation LedgerDesk.Agents LedgerDesk.Ledger

/-- Where one call of the gateway stands. -/
inductive CallPhase where
  /-- Awaits `findCached`. -/
  | lookingUp
  | appendingHit (hit : CachedCall) (latency_ms : Nat)
  | recordedHit (hit : CachedCall) (latency_ms : Nat) (ledger : LedgerRef)
  /-- Awaits `spentMicroAud`. -/
  | asking
  /-- The spend query is answered from a ledger of `seen` rows; the call has not resumed. -/
  | asked (spentMicro : Int) (seen : Nat)
  /-- Admitted; awaits the provider. -/
  | calling
  | appending (response : ProviderResponse) (latency_ms : Nat)
  | recorded (response : ProviderResponse) (latency_ms : Nat) (ledger : LedgerRef)
  | returned (result : GatewayResult)
  /-- The flag says whether the call went out with its reservation still taken. -/
  | failed (code : GatewayErrorCode) (reserved : Bool)

/-- A committed row, its `id`, and the call that appended it if it was one of these. -/
structure LedgerRecord (ι : Type*) where
  id : Nat
  row : ChainedRow
  call : Option ι

structure GatewayState (ι : Type*) where
  ledger : List (LedgerRecord ι)
  inFlightMicro : Int
  phase : ι → CallPhase

inductive GatewayAction (ι : Type*) where
  | lookup (call : ι) (latency_ms : Nat)
  | spend (call : ι)
  | admitCall (call : ι)
  | providerAnswers (call : ι) (response : ProviderResponse) (latency_ms : Nat)
  /-- The provider threw, or what it answered with is not a response. -/
  | providerFails (call : ι)
  | timesOut (call : ι)
  | record (call : ι) (id : Nat) (now : String)
  | resume (call : ι)
  /-- A query or an append of the call is refused, or its reply is lost. -/
  | storeFails (call : ι) (code : GatewayErrorCode)
  /-- Another writer of the same database commits a row. -/
  | foreign (id : Nat) (row : ChainedRow)

namespace GatewayState

variable {ι : Type*}

def rows (s : GatewayState ι) : List ChainedRow := s.ledger.map LedgerRecord.row

variable [DecidableEq ι]

def setPhase (s : GatewayState ι) (i : ι) (phase : CallPhase) : GatewayState ι :=
  { s with phase := Function.update s.phase i phase }

def commit (s : GatewayState ι) (id : Nat) (row : ChainedRow) (call : Option ι) :
    GatewayState ι :=
  { s with ledger := s.ledger ++ [⟨id, row, call⟩] }

def reserve (s : GatewayState ι) (micro : Int) : GatewayState ι :=
  { s with inFlightMicro := s.inFlightMicro + micro }

@[simp] theorem setPhase_self (s : GatewayState ι) (i : ι) (p : CallPhase) :
    (s.setPhase i p).phase i = p :=
  Function.update_self _ _ _

theorem setPhase_of_ne (s : GatewayState ι) {i j : ι} (p : CallPhase) (other : j ≠ i) :
    (s.setPhase i p).phase j = s.phase j :=
  Function.update_of_ne other _ _

end GatewayState

section Gateway

variable (sha256Hex : String → String) (tables : TextTables) (declared : DeclaredConfidence)
variable (config : GatewayConfig) {ι : Type*} [DecidableEq ι] (calls : ι → GatewayCall)

def cacheEnabled : Bool := config.replay || config.cache

/-- Every call as it first gives way, over a ledger that may already hold a history. -/
def gatewayStart (history : List (Nat × ChainedRow)) : GatewayState ι where
  ledger := history.map fun (id, row) => ⟨id, row, none⟩
  inFlightMicro := 0
  phase _ := if cacheEnabled config then .lookingUp else .asking

/-! ### Queries, as the tenant policy lets the call see the ledger -/

/-- What the spend query of the call sums over. -/
def inScope (request : GatewayCall) (row : ChainedRow) : Bool :=
  row.org_id == request.org_id && (config.scope == .term || row.run_id == config.run_id)

def spentMicroAud (request : GatewayCall) (rows : List ChainedRow) : Int :=
  ((rows.filter (inScope config request)).map fun row => row.cost_micro).sum

/-- `order by id asc limit 1`. -/
def findRow (request : GatewayCall) (ledger : List (LedgerRecord ι)) :
    Option (LedgerRecord ι) :=
  (ledger.filter fun record =>
    record.row.org_id == request.org_id &&
      answers sha256Hex config request record.row.toLedgerRowContent).argmin (·.id)

def findCached (request : GatewayCall) (ledger : List (LedgerRecord ι)) : Option CachedCall :=
  (findRow sha256Hex config request ledger).bind fun record =>
    cachedCall record.row.toLedgerRowContent

/-- The row `append` commits when it succeeds: built on the head it is shown, and taken
by the table. -/
def appendRow (facts : RowFacts) (now : String) (rows : List ChainedRow) : Option ChainedRow :=
  let builder := callBuilder facts
  let head := visibleHead rows builder.org_id builder.run_id
  match linkRow sha256Hex (builder.build now head) head with
  | none => none
  | some row =>
    match insertRow builder.org_id rows row with
    | .ok () => some row
    | .error _ => none

/-! ### Steps -/

def lookupStep (s : GatewayState ι) (i : ι) (latency_ms : Nat) : GatewayState ι :=
  match findCached sha256Hex config (calls i) s.ledger with
  | some hit =>
    match assertResponseIsClean tables hit.response_text (calls i) with
    | some code => s.setPhase i (.failed code false)
    | none => s.setPhase i (.appendingHit hit latency_ms)
  | none =>
    if config.replay then s.setPhase i (.failed .E_REPLAY_CACHE_MISS false)
    else s.setPhase i .asking

/-- The ceiling, the egress scan and the reservation, in one turn. -/
def admitStep (s : GatewayState ι) (i : ι) (spentMicro : Int) : GatewayState ι :=
  let committedMicro := spentMicro + s.inFlightMicro
  let projectedMicro := committedMicro + (calls i).callMicro
  if committedMicro ≥ config.cutMicro ∨ projectedMicro > config.cutMicro then
    s.setPhase i (.failed .E_BUDGET_EXHAUSTED false)
  else
    match egressRefusal tables (calls i) with
    | some code => s.setPhase i (.failed code false)
    | none => (s.reserve (calls i).callMicro).setPhase i .calling

def recordStep (s : GatewayState ι) (i : ι) (id : Nat) (now : String) (facts : RowFacts)
    (next : LedgerRef → CallPhase) : Option (GatewayState ι) :=
  if s.ledger.any fun record => record.id == id then none
  else
    match appendRow sha256Hex facts now s.rows with
    | none => none
    | some row => some ((s.commit id row (some i)).setPhase i (next ⟨id, row.seq, row.row_hash⟩))

/-- The reservation is given back, and the pin is checked after the row is written. -/
def resumeStep (s : GatewayState ι) (i : ι) (response : ProviderResponse) (latency_ms : Nat)
    (ledger : LedgerRef) : GatewayState ι :=
  (s.reserve (-(calls i).callMicro)).setPhase i
    (if (calls i).pin_model && response.model != (calls i).model_requested then
      .failed .E_MODEL_UNEXPECTED false
    else .returned (responseResult sha256Hex (calls i) response latency_ms ledger))

def gatewayStep (s : GatewayState ι) : GatewayAction ι → Option (GatewayState ι)
  | .lookup i latency_ms =>
    match s.phase i with
    | .lookingUp => some (lookupStep sha256Hex tables config calls s i latency_ms)
    | _ => none
  | .spend i =>
    match s.phase i with
    | .asking =>
      some (s.setPhase i (.asked (spentMicroAud config (calls i) s.rows) s.ledger.length))
    | _ => none
  | .admitCall i =>
    match s.phase i with
    | .asked spentMicro _ => some (admitStep tables config calls s i spentMicro)
    | _ => none
  | .providerAnswers i response latency_ms =>
    match s.phase i with
    | .calling =>
      match assertResponseIsClean tables response.text (calls i) with
      | some code => some (s.setPhase i (.failed code true))
      | none => some (s.setPhase i (.appending response latency_ms))
    | _ => none
  | .providerFails i =>
    match s.phase i with
    | .calling =>
      some ((s.reserve (-(calls i).callMicro)).setPhase i (.failed .E_PROVIDER_FAILED false))
    | _ => none
  | .timesOut i =>
    match s.phase i with
    | .calling => some (s.setPhase i (.failed .E_PROVIDER_TIMEOUT true))
    | _ => none
  | .record i id now =>
    match s.phase i with
    | .appending response latency_ms =>
      recordStep sha256Hex s i id now
        (responseFacts sha256Hex config (calls i) declared response latency_ms)
        (.recorded response latency_ms)
    | .appendingHit hit latency_ms =>
      recordStep sha256Hex s i id now (hitFacts sha256Hex config (calls i) hit latency_ms)
        (.recordedHit hit latency_ms)
    | _ => none
  | .resume i =>
    match s.phase i with
    | .recorded response latency_ms ledger =>
      some (resumeStep sha256Hex calls s i response latency_ms ledger)
    | .recordedHit hit latency_ms ledger =>
      some (s.setPhase i (.returned (hitResult sha256Hex (calls i) hit latency_ms ledger)))
    | _ => none
  | .storeFails i code =>
    if code ≠ .E_LEDGER_WRITE_FAILED ∧ code ≠ .driverError then none
    else
      match s.phase i with
      | .lookingUp | .asking | .appendingHit _ _ | .recordedHit _ _ _ =>
        some (s.setPhase i (.failed code false))
      | .appending _ _ | .recorded _ _ _ => some (s.setPhase i (.failed code true))
      | _ => none
  | .foreign id row =>
    if s.ledger.any fun record => record.id == id then none
    else some (s.commit id row none)

end Gateway

end LedgerDesk.Gateway
