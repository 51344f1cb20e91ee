import LedgerDesk.Foundation.AppendLog
import LedgerDesk.Foundation.Runs
import LedgerDesk.Ledger.Row

/-!
# The ledger store

`append` reads the head of a run under the tenant's policy, builds a row against it and
inserts it. The trigger `ledger_link`, the constraints of `ledger_entry` and its unique
indexes decide whether the row stands; a lost race is retried up to `APPEND_ATTEMPTS`.
-/
namespace LedgerDesk.Ledger

open Foundation LedgerDesk.Agents

/-! ### The table -/

inductive InsertError where
  /-- `23505` or `E_LEDGER_CHAIN_BROKEN`: what `isChainConflict` lets `append` retry. -/
  | chainConflict
  | refused
  deriving DecidableEq, Repr

def runRows (rows : List ChainedRow) (run_id : String) : List ChainedRow :=
  rows.filter fun row => row.run_id == run_id

/-- `order by seq desc limit 1`. -/
def headOf (rows : List ChainedRow) : Option ChainedRow := rows.argmax (·.seq)

/-- The keys each class owns. -/
def requiredKeys : LedgerClass → List String
  | .agent_call => []
  | .start => ["attempt_id", "started_at", "budget_reserved", "code_sha"]
  | .promotion_attempt =>
    ["attempt_id", "candidate_prompt_version_id", "incumbent_prompt_version_id", "conjuncts",
      "failing_conjunct", "power", "outcome", "interpretation"]
  | .modification_event =>
    ["modification_id", "gating_arm", "verdict", "would_have_been_rejected", "reason",
      "dag_node_id"]
  | .commitment => ["commitment_kind", "sha256", "covers", "committed_before"]
  | .prereg_anchor => ["document", "sha256", "field_count", "blocks"]
  | .agreement_r3 => ["item_id", "template_id", "agreement", "r", "rollout_seeds", "temperature"]
  | .kb_admission =>
    ["admission_id", "gap_id", "approved_by", "snapshot_from", "snapshot_to", "content_hash",
      "provenance_source"]
  | .checkpoint => ["seq_covered", "head_row_hash", "k"]

/-- A key that is absent, or that carries null, names nothing. -/
def namesKey (output : Json) (key : String) : Bool := (output.member key).any (!·.isNull)

def modelBlockComplete (row : LedgerRowContent) : Bool :=
  row.prompt_version_id.isSome && row.model_requested.isSome && row.model_returned.isSome &&
    row.sampling.isSome && row.input_hash.isSome && row.input_path.isSome &&
    row.prompt_hash.isSome && row.response_hash.isSome

def promotionIncomplete (output : Json) : Bool :=
  (output.member "failing_conjunct").isNone ||
    ((output.member "failing_conjunct").any Json.isNull &&
      output.memberText "outcome" != some "PROMOTED") ||
    (output.memberText "outcome" == some "ABORTED" && (output.member "abort_reason").isNone)

/-- `E_LEDGER_ROW_INCOMPLETE`. -/
def rowIncomplete (row : LedgerRowContent) : Bool :=
  (row.class == .agent_call && !modelBlockComplete row) ||
    (requiredKeys row.class).any (fun key =>
      key != "failing_conjunct" && !namesKey row.output key) ||
    (row.class == .promotion_attempt && promotionIncomplete row.output)

/-- The trigger. It runs as the owner, so it reads the true head of the run. -/
def ledgerLink (rows : List ChainedRow) (new : ChainedRow) : Except InsertError Unit :=
  let head := headOf (runRows rows new.run_id)
  if head.any fun h => new.seq ≤ h.seq then .error .chainConflict
  else if new.prev_hash ≠ (head.map ChainedRow.row_hash).getD genesis then .error .chainConflict
  else if rowIncomplete new.toLedgerRowContent then .error .refused
  else .ok ()

def ledgerAgentIdentity (row : LedgerRowContent) : Bool :=
  match row.class with
  | .promotion_attempt | .modification_event => row.agent == .evolve
  | .agent_call => true
  | _ => row.agent == .system

def ledgerNonmodelCostsZero (row : LedgerRowContent) : Bool :=
  row.class == .agent_call ||
    (row.tokens_in == 0 && row.tokens_out == 0 && row.cost_micro == 0 && row.latency_ms == 0 &&
      row.restarts == 0)

def ledgerHashShape (row : ChainedRow) : Bool :=
  isHex64 row.row_hash && (row.prev_hash == genesis || isHex64 row.prev_hash) &&
    row.row_hash != row.prev_hash

/-- The check constraints of `ledger_entry`. -/
def constraintsHold (row : ChainedRow) : Bool :=
  (row.class != .agent_call || modelBlockComplete row.toLedgerRowContent) &&
    ledgerAgentIdentity row.toLedgerRowContent &&
    (row.class != .agreement_r3 || row.split_id.isSome) &&
    ledgerNonmodelCostsZero row.toLedgerRowContent && ledgerHashShape row

/-- What the partial unique indexes are over. -/
inductive UniqueKey where
  | startOf (attempt_id : String)
  | terminalOf (attempt_id : String)
  | admissionOf (admission_id : String)
  deriving DecidableEq, Repr

def uniqueKey (row : LedgerRowContent) : Option UniqueKey :=
  match row.class with
  | .start => (row.output.memberText "attempt_id").map .startOf
  | .promotion_attempt => (row.output.memberText "attempt_id").map .terminalOf
  | .kb_admission => (row.output.memberText "admission_id").map .admissionOf
  | _ => none

/-- `unique (run_id, seq)`, `ledger_one_child_per_head` and the partial indexes. -/
def duplicates (row : ChainedRow) (standing : ChainedRow) : Bool :=
  (standing.run_id == row.run_id && standing.seq == row.seq) ||
    (standing.run_id == row.run_id && standing.prev_hash == row.prev_hash) ||
    ((uniqueKey row.toLedgerRowContent).isSome &&
      uniqueKey standing.toLedgerRowContent == uniqueKey row.toLedgerRowContent)

/-- The insert, under the claims of `org_id`. -/
def insertRow (org_id : String) (rows : List ChainedRow) (row : ChainedRow) :
    Except InsertError Unit :=
  match ledgerLink rows row with
  | .error refusal => .error refusal
  | .ok () =>
    if row.org_id ≠ org_id then .error .refused
    else if !constraintsHold row then .error .refused
    else if rows.any (duplicates row) then .error .chainConflict
    else .ok ()

/-! ### Writers -/

def appendAttempts : Nat := 6

/-- Where a call of `append` stands. An attempt is a transaction of its own. -/
inductive AppendPhase where
  | reading (attempt : Nat)
  | built (attempt : Nat) (row : ChainedRow)
  | inserted (row : ChainedRow)
  | succeeded
  | failed

/-- What an uncommitted insert makes another writer wait on: the advisory lock of
the run, and the entries it put in the partial indexes. -/
inductive Lock where
  | run (key : Int)
  | unique (key : UniqueKey)
  deriving DecidableEq, Repr

/-- A committed row, and the call of `append` that wrote it. -/
structure LedgerEntry (ι : Type*) where
  row : ChainedRow
  writer : ι

structure StoreState (ι : Type*) where
  entries : List (LedgerEntry ι)
  holder : Lock → Option ι
  phase : ι → AppendPhase

inductive StoreAction (ι : Type*) where
  | read (writer : ι) (now : String)
  | insert (writer : ι)
  | commit (writer : ι)
  /-- Any failure that is not a chain conflict: the statement, the connection or the builder. -/
  | abort (writer : ι)
  deriving DecidableEq, Repr

namespace StoreState

variable {ι : Type*}

def initial : StoreState ι := ⟨[], fun _ => none, fun _ => .reading 0⟩

def rows (s : StoreState ι) : List ChainedRow := s.entries.map LedgerEntry.row

def record (s : StoreState ι) (i : ι) (row : ChainedRow) : StoreState ι :=
  { s with entries := s.entries ++ [⟨row, i⟩] }

variable [DecidableEq ι]

def setPhase (s : StoreState ι) (i : ι) (phase : AppendPhase) : StoreState ι :=
  { s with phase := Function.update s.phase i phase }

/-- Every lock of the writer is dropped when its transaction ends. -/
def release (s : StoreState ι) (i : ι) : StoreState ι :=
  { s with holder := fun lock => if s.holder lock = some i then none else s.holder lock }

def acquire (s : StoreState ι) (i : ι) (locks : List Lock) : StoreState ι :=
  { s with holder := fun lock => if lock ∈ locks then some i else s.holder lock }

end StoreState

section Append

variable (sha256Hex : String → String) (lockKey : String → Int)

/-- The head the writer is shown: the last row of the run its organisation may see. -/
def visibleHead (rows : List ChainedRow) (org_id run_id : String) : Option LedgerHead :=
  (headOf ((runRows rows run_id).filter fun row => row.org_id == org_id)).map ChainedRow.head

def rowLocks (row : ChainedRow) : List Lock :=
  .run (lockKey row.run_id) :: ((uniqueKey row.toLedgerRowContent).map Lock.unique).toList

/-- What a lost race does: one more attempt while any is left. -/
def retry (attempt : Nat) : AppendPhase :=
  if attempt + 1 < appendAttempts then .reading (attempt + 1) else .failed

variable {ι : Type*} [DecidableEq ι] (jobs : ι → RowBuilder)

def readHead (s : StoreState ι) (i : ι) (now : String) (attempt : Nat) : StoreState ι :=
  let head := visibleHead s.rows (jobs i).org_id (jobs i).run_id
  match linkRow sha256Hex ((jobs i).build now head) head with
  | none => s.setPhase i .failed
  | some row => s.setPhase i (.built attempt row)

def tryInsert (s : StoreState ι) (i : ι) (attempt : Nat) (row : ChainedRow) :
    Option (StoreState ι) :=
  if (s.holder (.run (lockKey row.run_id))).isSome then none
  else
    match insertRow (jobs i).org_id s.rows row with
    | .error .chainConflict => some (s.setPhase i (retry attempt))
    | .error .refused => some (s.setPhase i .failed)
    | .ok () =>
      if (rowLocks lockKey row).any (fun lock => (s.holder lock).isSome) then none
      else some ((s.acquire i (rowLocks lockKey row)).setPhase i (.inserted row))

def commitRow (s : StoreState ι) (i : ι) (row : ChainedRow) : StoreState ι :=
  ((s.record i row).release i).setPhase i .succeeded

/-- One step of one call of `append`; `none` where that call is not at that step, or has to wait. -/
def appendStep (s : StoreState ι) : StoreAction ι → Option (StoreState ι)
  | .read i now =>
    match s.phase i with
    | .reading attempt => some (readHead sha256Hex jobs s i now attempt)
    | _ => none
  | .insert i =>
    match s.phase i with
    | .built attempt row => tryInsert lockKey jobs s i attempt row
    | _ => none
  | .commit i =>
    match s.phase i with
    | .inserted row => some (commitRow s i row)
    | _ => none
  | .abort i =>
    match s.phase i with
    | .succeeded | .failed => none
    | _ => some ((s.release i).setPhase i .failed)

end Append

end LedgerDesk.Ledger
