import LedgerDesk.Agents.Canonical

/-! The ledger row, the digest over it, and the builders that attach a row to a head. -/
namespace LedgerDesk.Ledger

open LedgerDesk.Agents

inductive LedgerClass where
  | agent_call
  | start
  | promotion_attempt
  | modification_event
  | commitment
  | prereg_anchor
  | agreement_r3
  | kb_admission
  | checkpoint
  deriving DecidableEq, Repr

inductive AgentKind where
  | triage
  | draft
  | validate
  | evolve
  | system
  deriving DecidableEq, Repr

def LedgerClass.text : LedgerClass → String
  | .agent_call => "agent_call"
  | .start => "start"
  | .promotion_attempt => "promotion_attempt"
  | .modification_event => "modification_event"
  | .commitment => "commitment"
  | .prereg_anchor => "prereg_anchor"
  | .agreement_r3 => "agreement_r3"
  | .kb_admission => "kb_admission"
  | .checkpoint => "checkpoint"

def AgentKind.text : AgentKind → String
  | .triage => "triage"
  | .draft => "draft"
  | .validate => "validate"
  | .evolve => "evolve"
  | .system => "system"

def genesis : String := "GENESIS"

/-- Every column of `ledger_entry` except `id`, `prev_hash` and `row_hash`. Money
is held in millionths of a dollar; its text is written by `formatAud`. -/
structure LedgerRowContent where
  run_id : String
  seq : Nat
  org_id : String
  ticket_id : Option String
  agent : AgentKind
  prompt_version_id : Option String
  model_requested : Option String
  model_returned : Option String
  sampling : Option Json
  seed : Option Int
  input_hash : Option String
  input_path : Option String
  prompt_hash : Option String
  response_hash : Option String
  state_hash : String
  split_id : Option String
  toolchain : Json
  restarts : Nat
  tokens_in : Int
  tokens_out : Int
  cost_micro : Int
  latency_ms : Nat
  cum_tokens : Int
  «class» : LedgerClass
  output : Json
  confidence : Option String
  ts : String

/-- A row with its place in the chain worked out. -/
structure ChainedRow extends LedgerRowContent where
  prev_hash : String
  row_hash : String

/-- The last row of a run: what the next row has to attach to and count from. -/
structure LedgerHead where
  seq : Nat
  row_hash : String
  cum_tokens : Int

def ChainedRow.head (row : ChainedRow) : LedgerHead :=
  ⟨row.seq, row.row_hash, row.cum_tokens⟩

def nullableText : Option String → Json
  | none => .null
  | some value => .text value

def nullableInt : Option Int → Json
  | none => .null
  | some value => .number (.integer value)

/-- The columns the digest covers, as one object. -/
def coveredColumns (row : LedgerRowContent) : List (String × Json) :=
  [ ("run_id", .text row.run_id),
    ("seq", .number (.integer row.seq)),
    ("org_id", .text row.org_id),
    ("ticket_id", nullableText row.ticket_id),
    ("agent", .text row.agent.text),
    ("prompt_version_id", nullableText row.prompt_version_id),
    ("model_requested", nullableText row.model_requested),
    ("model_returned", nullableText row.model_returned),
    ("sampling", row.sampling.getD .null),
    ("seed", nullableInt row.seed),
    ("input_hash", nullableText row.input_hash),
    ("input_path", nullableText row.input_path),
    ("prompt_hash", nullableText row.prompt_hash),
    ("response_hash", nullableText row.response_hash),
    ("state_hash", .text row.state_hash),
    ("split_id", nullableText row.split_id),
    ("toolchain", row.toolchain),
    ("restarts", .number (.integer row.restarts)),
    ("tokens_in", .number (.integer row.tokens_in)),
    ("tokens_out", .number (.integer row.tokens_out)),
    ("cost_aud", .text (formatAud row.cost_micro)),
    ("latency_ms", .number (.integer row.latency_ms)),
    ("cum_tokens", .number (.integer row.cum_tokens)),
    ("class", .text row.class.text),
    ("output", row.output),
    ("confidence", nullableText row.confidence),
    ("ts", .text row.ts) ]

def canonicalRow (row : LedgerRowContent) : String :=
  canonicalJson (.object (coveredColumns row))

section Digest

variable (sha256Hex : String → String)

def rowHash (prevHash : String) (row : LedgerRowContent) : String :=
  sha256Hex (prevHash ++ canonicalRow row)

/-- Attaches the row to the head of its chain; no head means this row opens the run.
A row that hashes to its own predecessor is refused. -/
def linkRow (row : LedgerRowContent) (head : Option LedgerHead) : Option ChainedRow :=
  let prev_hash := match head with
    | some h => h.row_hash
    | none => genesis
  let linked : ChainedRow :=
    { toLedgerRowContent := row, prev_hash, row_hash := rowHash sha256Hex prev_hash row }
  if linked.row_hash = linked.prev_hash then none else some linked

/-- Recomputes the digest of a row and compares it to the stored one. -/
def verifyRowHash (row : ChainedRow) : Bool :=
  isHex64 row.row_hash && rowHash sha256Hex row.prev_hash row.toLedgerRowContent == row.row_hash

def stateHash (schema_version ruleset_hash kb_snapshot : String) : String :=
  digestOf sha256Hex (.object [("schema_version", .text schema_version),
    ("ruleset_hash", .text ruleset_hash), ("kb_snapshot", .text kb_snapshot)])

end Digest

/-! ### Builders -/

/-- The tokens a row adds to the running total of its run. -/
def tokensCounted (row : LedgerRowContent) : Int :=
  if row.class = .agent_call then row.tokens_in + row.tokens_out else 0

def nextSeq (head : Option LedgerHead) : Nat := (head.map LedgerHead.seq).getD 0 + 1

def carriedTokens (head : Option LedgerHead) : Int := (head.map LedgerHead.cum_tokens).getD 0

/-- What `append` is handed: a row for every instant and every head, in one run of one
organisation, whose `seq` and `cum_tokens` count from that head. -/
structure RowBuilder where
  run_id : String
  org_id : String
  build : String → Option LedgerHead → LedgerRowContent
  build_run : ∀ now head, (build now head).run_id = run_id
  build_org : ∀ now head, (build now head).org_id = org_id
  build_seq : ∀ now head, (build now head).seq = nextSeq head
  build_tokens : ∀ now head,
    (build now head).cum_tokens = carriedTokens head + tokensCounted (build now head)

/-- What a non-model row is about. Agent, tokens, cost, latency and restarts are fixed. -/
structure SystemRow where
  run_id : String
  org_id : String
  ticket_id : Option String
  «class» : LedgerClass
  output : Json
  state_hash : String
  toolchain : Json
  split_id : Option String
  ts : String

def systemContent (row : SystemRow) (agent : AgentKind) (head : Option LedgerHead) :
    LedgerRowContent where
  run_id := row.run_id
  seq := nextSeq head
  org_id := row.org_id
  ticket_id := row.ticket_id
  agent := agent
  prompt_version_id := none
  model_requested := none
  model_returned := none
  sampling := none
  seed := none
  input_hash := none
  input_path := none
  prompt_hash := none
  response_hash := none
  state_hash := row.state_hash
  split_id := row.split_id
  toolchain := row.toolchain
  restarts := 0
  tokens_in := 0
  tokens_out := 0
  cost_micro := 0
  latency_ms := 0
  cum_tokens := carriedTokens head
  «class» := row.class
  output := row.output
  confidence := none
  ts := row.ts

private theorem systemContent_tokens (row : SystemRow) (agent : AgentKind)
    (head : Option LedgerHead) :
    (systemContent row agent head).cum_tokens =
      carriedTokens head + tokensCounted (systemContent row agent head) := by
  have spends : tokensCounted (systemContent row agent head) = 0 := by
    simp only [tokensCounted, systemContent, add_zero, ite_self]
  rw [spends, add_zero]
  rfl

/-- The builder `appendSystemRow` hands to the store. -/
def appendSystemRow (row : SystemRow) : RowBuilder where
  run_id := row.run_id
  org_id := row.org_id
  build _ := systemContent row .system
  build_run _ _ := rfl
  build_org _ _ := rfl
  build_seq _ _ := rfl
  build_tokens _ := systemContent_tokens row .system

/-- The builder of a promotion terminal: `agent` is fixed at `evolve`, no ticket and no split. -/
def terminalRowContent (row : SystemRow) : RowBuilder where
  run_id := row.run_id
  org_id := row.org_id
  build _ := systemContent
    { row with ticket_id := none, split_id := none, «class» := .promotion_attempt } .evolve
  build_run _ _ := rfl
  build_org _ _ := rfl
  build_seq _ _ := rfl
  build_tokens _ := systemContent_tokens _ .evolve

/-- What the gateway knows when it records a call. -/
structure RowFacts where
  run_id : String
  org_id : String
  ticket_id : Option String
  agent : AgentKind
  prompt_version_id : String
  model_requested : String
  model_returned : String
  sampling : Json
  seed : Option Int
  input_hash : String
  input_path : String
  prompt_hash : String
  response_hash : String
  response_text : String
  state_hash : String
  split_id : Option String
  toolchain : Json
  restarts : Nat
  tokens_in : Int
  tokens_out : Int
  cost_micro : Int
  latency_ms : Nat
  redaction : Json
  confidence : Option String
  cache_hit : Bool
  cache_source_seq : Option Nat

def callOutput (facts : RowFacts) : Json :=
  .object
    [ ("response", .text facts.response_text),
      ("redaction", facts.redaction),
      ("canary", .text "cleared"),
      ("cache", .object
        [ ("hit", .boolean facts.cache_hit),
          ("source_seq", nullableInt (facts.cache_source_seq.map Int.ofNat)) ]) ]

def buildRow (facts : RowFacts) (now : String) (head : Option LedgerHead) :
    LedgerRowContent where
  run_id := facts.run_id
  seq := nextSeq head
  org_id := facts.org_id
  ticket_id := facts.ticket_id
  agent := facts.agent
  prompt_version_id := some facts.prompt_version_id
  model_requested := some facts.model_requested
  model_returned := some facts.model_returned
  sampling := some facts.sampling
  seed := facts.seed
  input_hash := some facts.input_hash
  input_path := some facts.input_path
  prompt_hash := some facts.prompt_hash
  response_hash := some facts.response_hash
  state_hash := facts.state_hash
  split_id := facts.split_id
  toolchain := facts.toolchain
  restarts := facts.restarts
  tokens_in := facts.tokens_in
  tokens_out := facts.tokens_out
  cost_micro := facts.cost_micro
  latency_ms := facts.latency_ms
  cum_tokens := carriedTokens head + facts.tokens_in + facts.tokens_out
  «class» := .agent_call
  output := callOutput facts
  confidence := facts.confidence
  ts := now

/-- The builder the gateway hands to the store. -/
def callBuilder (facts : RowFacts) : RowBuilder where
  run_id := facts.run_id
  org_id := facts.org_id
  build := buildRow facts
  build_run _ _ := rfl
  build_org _ _ := rfl
  build_seq _ _ := rfl
  build_tokens now head := by
    simp only [buildRow, tokensCounted, if_true, add_assoc]

end LedgerDesk.Ledger
