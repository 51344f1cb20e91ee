import LedgerDesk.Ledger.Chain
import LedgerDesk.Ledger.PromotionRow

/-!
# The writer of a promotion attempt

`appendPromotionPair` checks both payloads, looks for what is already filed, and appends the
`start` row and the terminal in two transactions of their own. Any number of invocations run at
once; each can stop for good before any of its steps.
-/
namespace LedgerDesk.Ledger

open Foundation LedgerDesk.Agents

/-- The payloads and the row-level facts of one attempt. -/
structure PromotionPair where
  org_id : String
  run_id : String
  start : Json
  terminal : Json
  scored_run : Option String
  evidence : ConjunctName → Option EvidenceKind
  schema_version : String
  ruleset_hash : String
  kb_snapshot : String
  toolchain : Json
  ts : String

/-- All that is checked before the reader is consulted; what passes names its attempt. -/
def checkPair (pair : PromotionPair) : Except Refusal String := do
  ensure (!isBlank pair.org_id)
    ⟨"the writer runs under a session: claims must carry an org_id", "claims.org_id"⟩
  ensure (!isBlank pair.run_id) ⟨"a run must be named", "run_id"⟩
  ensure (!isBlank pair.ts) ⟨"ts is supplied by the writer and never defaulted", "ts"⟩
  let start ← requireObject (some pair.start) "start" "pair"
  let terminal ← requireObject (some pair.terminal) "terminal" "pair"
  validateStartPayload start pair.ts
  validatePromotionAttemptPayload terminal pair.scored_run pair.evidence
  ensure (pair.terminal.memberText "attempt_id" == pair.start.memberText "attempt_id")
    ⟨"the start and its terminal name two different attempts", "attempt_id"⟩
  return (pair.start.memberText "attempt_id").getD ""

/-- Which of the two rows an append is for. -/
inductive Part where
  | start
  | terminal
  deriving DecidableEq, Repr

def Part.key (attempt_id : String) : Part → UniqueKey
  | .start => .startOf attempt_id
  | .terminal => .terminalOf attempt_id

/-! ### What is filed -/

/-- A row of an attempt, as far as the session that asked may see it. -/
structure FiledRow where
  run_id : String
  seq : Nat
  prev_hash : String
  row_hash : String
  ts : String

structure FiledAttempt where
  start : Option FiledRow
  terminal : Option FiledRow

inductive FiledAction where
  | filed
  | resumed
  | already_filed
  deriving DecidableEq, Repr

structure FiledPair where
  attempt_id : String
  run_id : String
  start : FiledRow
  terminal : FiledRow
  action : FiledAction

def ChainedRow.filed (row : ChainedRow) : FiledRow :=
  ⟨row.run_id, row.seq, row.prev_hash, row.row_hash, row.ts⟩

/-- The `ATTEMPT` query, under the policy of the organisation. -/
def attemptRows (rows : List ChainedRow) (org_id attempt_id : String) : List ChainedRow :=
  (rows.filter fun row => row.org_id == org_id &&
    (row.class == .start || row.class == .promotion_attempt) &&
    row.output.memberText "attempt_id" == some attempt_id).insertionSort fun a b => a.seq ≤ b.seq

/-- Of the rows of one class, a later one takes the place of an earlier one. -/
def findAttempt (rows : List ChainedRow) (org_id attempt_id : String) : FiledAttempt :=
  let found := attemptRows rows org_id attempt_id
  { start := (found.filter fun row => row.class == .start).getLast?.map ChainedRow.filed
    terminal :=
      (found.filter fun row => row.class == .promotion_attempt).getLast?.map ChainedRow.filed }

/-! ### An invocation -/

/-- What an invocation throws. -/
inductive FilingError where
  | refused (refusal : Refusal)
  | E_LEDGER_WRITE_FAILED
  /-- The reader, the connection, the builder, or a row the database refuses. -/
  | broken

/-- Where an invocation stands. -/
inductive Stage where
  | idle
  | prereading
  | opening
  | closing (start : FiledRow) (resumed : Bool)
  | rereading (error : FilingError)
  | returned (pair : FiledPair)
  | failed (error : FilingError)
  | crashed

/-- The append an invocation is in. -/
def Stage.part : Stage → Option Part
  | .opening => some .start
  | .closing _ _ => some .terminal
  | _ => none

inductive AppendAct where
  | read (now : String)
  | insert
  | commit
  | abort
  deriving DecidableEq, Repr

def AppendAct.for {ω : Type*} (writer : ω) : AppendAct → StoreAction ω
  | .read now => .read writer now
  | .insert => .insert writer
  | .commit => .commit writer
  | .abort => .abort writer

structure FilingState (ι : Type*) where
  store : StoreState (ι × Part)
  stage : ι → Stage

inductive FilingAction (ι : Type*) where
  | call (invocation : ι)
  | findAttempt (invocation : ι)
  /-- The reader is not answered. -/
  | unanswered (invocation : ι)
  | append (invocation : ι) (act : AppendAct)
  | crash (invocation : ι)
  deriving DecidableEq, Repr

def FilingAction.invocation {ι : Type*} : FilingAction ι → ι
  | .call i | .findAttempt i | .unanswered i | .append i _ | .crash i => i

section Filing

variable (sha256Hex : String → String) (lockKey : String → Int)

def PromotionPair.stateDigest (pair : PromotionPair) : String :=
  stateHash sha256Hex pair.schema_version pair.ruleset_hash pair.kb_snapshot

def PromotionPair.row (pair : PromotionPair) (part : Part) : SystemRow where
  run_id := pair.run_id
  org_id := pair.org_id
  ticket_id := none
  «class» := match part with
    | .start => .start
    | .terminal => .promotion_attempt
  output := match part with
    | .start => pair.start
    | .terminal => pair.terminal
  state_hash := pair.stateDigest sha256Hex
  toolchain := pair.toolchain
  split_id := none
  ts := pair.ts

/-- The start is signed by `system`, the terminal by `evolve`. -/
def PromotionPair.job (pair : PromotionPair) : Part → RowBuilder
  | .start => appendSystemRow (pair.row sha256Hex .start)
  | .terminal => terminalRowContent (pair.row sha256Hex .terminal)

variable {ι : Type*} (pairs : ι → PromotionPair)

def filingJobs (writer : ι × Part) : RowBuilder := (pairs writer.1).job sha256Hex writer.2

def attemptOf (pair : PromotionPair) : String := (pair.start.memberText "attempt_id").getD ""

/-- What a failed append throws. -/
def errorOf (rows : List ChainedRow) (org_id : String) (phase : AppendPhase) (act : AppendAct) :
    FilingError :=
  match act, phase with
  | .insert, .built _ row =>
    match insertRow org_id rows row with
    | .error .chainConflict => .E_LEDGER_WRITE_FAILED
    | _ => .broken
  | _, _ => .broken

/-- Where a step of an append leaves the invocation. A failed start is thrown as it is; after a
failed terminal the reader is asked once more. -/
def afterAppend (pair : PromotionPair) (error : FilingError) (before after : AppendPhase) :
    Stage → Stage
  | .opening =>
    match before, after with
    | .inserted row, .succeeded => .closing row.filed false
    | _, .failed => .failed error
    | _, _ => .opening
  | .closing start resumed =>
    match before, after with
    | .inserted row, .succeeded =>
      .returned ⟨attemptOf pair, pair.run_id, start, row.filed,
        if resumed then .resumed else .filed⟩
    | _, .failed => .rereading error
    | _, _ => .closing start resumed
  | stage => stage

/-- Where an answer of the reader leaves the invocation. -/
def afterFind (pair : PromotionPair) (standing : FiledAttempt) : Stage → Option Stage
  | .prereading =>
    match standing.start, standing.terminal with
    | some start, some terminal =>
      some (.returned ⟨attemptOf pair, start.run_id, start, terminal, .already_filed⟩)
    | some start, none => some (.closing start true)
    | none, _ => some .opening
  | .rereading error =>
    match standing.start, standing.terminal with
    | some start, some terminal =>
      some (.returned ⟨attemptOf pair, start.run_id, start, terminal, .already_filed⟩)
    | _, _ => some (.failed error)
  | _ => none

/-- Whether the invocation has ended, or has not begun. -/
def Stage.rests : Stage → Bool
  | .idle | .returned _ | .failed _ | .crashed => true
  | _ => false

variable [DecidableEq ι]

def FilingState.initial : FilingState ι := ⟨StoreState.initial, fun _ => .idle⟩

def FilingState.setStage (s : FilingState ι) (i : ι) (stage : Stage) : FilingState ι :=
  { s with stage := Function.update s.stage i stage }

/-- The transaction that is open, if one is, is rolled back. -/
def rollBack (s : StoreState (ι × Part)) (i : ι) : Option Part → StoreState (ι × Part)
  | none => s
  | some part => (s.release (i, part)).setPhase (i, part) .failed

/-- One step of one invocation of `appendPromotionPair`; `none` where it is not at that step, or
has to wait. -/
def filingStep (s : FilingState ι) : FilingAction ι → Option (FilingState ι)
  | .call i =>
    match s.stage i, checkPair (pairs i) with
    | .idle, .ok _ => some (s.setStage i .prereading)
    | .idle, .error refusal => some (s.setStage i (.failed (.refused refusal)))
    | _, _ => none
  | .findAttempt i =>
    (afterFind (pairs i)
      (Ledger.findAttempt s.store.rows (pairs i).org_id (attemptOf (pairs i))) (s.stage i)).map
        (s.setStage i)
  | .unanswered i =>
    match s.stage i with
    | .prereading | .rereading _ => some (s.setStage i (.failed .broken))
    | _ => none
  | .append i act =>
    match (s.stage i).part with
    | none => none
    | some part =>
      (appendStep sha256Hex lockKey (filingJobs sha256Hex pairs) s.store (act.for (i, part))).map
        fun store =>
          { store
            stage := Function.update s.stage i
              (afterAppend (pairs i)
                (errorOf s.store.rows (pairs i).org_id (s.store.phase (i, part)) act)
                (s.store.phase (i, part)) (store.phase (i, part)) (s.stage i)) }
  | .crash i =>
    if (s.stage i).rests then none
    else some ⟨rollBack s.store i (s.stage i).part, Function.update s.stage i .crashed⟩

end Filing

end LedgerDesk.Ledger
