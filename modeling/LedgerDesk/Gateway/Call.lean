import LedgerDesk.Ledger.Chain

/-!
# One call of the gateway

What a call holds once its material is redacted, what it may cost, what it asks the
cache, and the two searches its answer has to pass. Nothing here waits for anything.
-/
namespace LedgerDesk.Gateway

open LedgerDesk.Agents LedgerDesk.Ledger

inductive GatewayErrorCode where
  | E_CANARY_EGRESS
  | E_PII_EGRESS
  | E_CANARY_IN_RESPONSE
  | E_PII_IN_RESPONSE
  | E_BUDGET_EXHAUSTED
  | E_PROVIDER_FAILED
  | E_PROVIDER_TIMEOUT
  | E_LEDGER_WRITE_FAILED
  | E_MODEL_UNEXPECTED
  | E_REPLAY_CACHE_MISS
  /-- An error of the database driver, which carries no code of the gateway's. -/
  | driverError
  deriving DecidableEq, Repr

/-- Millionths of a dollar for a thousand tokens. -/
structure ModelPrice where
  input_micro_per_1k : Nat
  output_micro_per_1k : Nat
  deriving DecidableEq, Repr

inductive CeilingScope where
  | run
  | term
  deriving DecidableEq, Repr

structure GatewayConfig where
  run_id : String
  schema_version : String
  ruleset_hash : String
  kb_snapshot : String
  toolchain : Json
  cutMicro : Int
  scope : CeilingScope
  restarts : Nat
  cache : Bool
  replay : Bool

structure Sampling where
  temperature : JsNumber
  top_p : JsNumber
  max_tokens : Nat
  stop : Option (List String)

structure KbExcerpt where
  kb_id : String
  excerpt : String

inductive RedactionKind where
  | literal
  | email
  | card
  | account
  | phone
  | id
  deriving DecidableEq, Repr

structure Removal where
  kind : RedactionKind
  literal : String

/-- A call after redaction: the request, the price of its model, the redacted material,
the canaries planted in it and everything the redactor took out. -/
structure GatewayCall where
  agent : AgentKind
  org_id : String
  ticket_id : Option String
  prompt_version_id : String
  prompt_text : String
  locale : String
  model_requested : String
  sampling : Sampling
  seed : Option Int
  input_path : String
  split_id : Option String
  pin_model : Bool
  price : ModelPrice
  body_redacted : String
  kb_context : List KbExcerpt
  redaction : Json
  canaries : List String
  removals : List Removal

structure ProviderResponse where
  model : String
  text : String
  tokens_in : Int
  tokens_out : Int
  deriving DecidableEq, Repr

/-- The columns of a row that answers a call from the chain. -/
structure CachedCall where
  seq : Nat
  model_returned : String
  response_hash : String
  response_text : String
  confidence : Option String
  deriving DecidableEq, Repr

structure LedgerRef where
  id : Nat
  seq : Nat
  row_hash : String
  deriving DecidableEq, Repr

structure GatewayResult where
  response_text : String
  model_returned : String
  body_redacted : String
  kb_context_redacted : List KbExcerpt
  redaction : Json
  cached : Bool
  cost_micro : Int
  tokens_in : Int
  tokens_out : Int
  latency_ms : Nat
  input_hash : String
  ledger : LedgerRef

/-! ### Prices -/

def samplingJson (sampling : Sampling) : Json :=
  .object
    [ ("temperature", .number sampling.temperature),
      ("top_p", .number sampling.top_p),
      ("max_tokens", .number (.integer sampling.max_tokens)),
      ("stop", match sampling.stop with
        | some stop => .array (stop.map .text)
        | none => .null) ]

/-- Four code units to a token, rounded up. -/
def estimateTokens (text : String) : Nat := ((codeUnits text).length + 3) / 4

/-- `Math.ceil` of the price in millionths. -/
def priceMicro (tokens : Int) (micro_per_1k : Nat) : Int := -(-(tokens * micro_per_1k) / 1000)

def excerptJson (entry : KbExcerpt) : Json :=
  .object [("kb_id", .text entry.kb_id), ("excerpt", .text entry.excerpt)]

def renderUserMessage (body : String) (kb : List KbExcerpt) : String :=
  canonicalJson (.object
    [("enquiry", .text body), ("sources", .array (kb.map excerptJson))])

namespace GatewayCall

variable (request : GatewayCall)

def userMessage : String := renderUserMessage request.body_redacted request.kb_context

/-- The projection: the estimated input, and `max_tokens` for the response. -/
def callMicro : Int :=
  priceMicro (estimateTokens request.prompt_text + estimateTokens request.userMessage : Nat)
      request.price.input_micro_per_1k +
    priceMicro request.sampling.max_tokens request.price.output_micro_per_1k

def costMicro (response : ProviderResponse) : Int :=
  priceMicro response.tokens_in request.price.input_micro_per_1k +
    priceMicro response.tokens_out request.price.output_micro_per_1k

end GatewayCall

/-! ### What may leave and what may be kept -/

/-- The two operations on text that follow the Unicode tables. -/
structure TextTables where
  toLowerCase : String → String
  trim : String → String

def minLiteralLength : Nat := 8

/-- `String.prototype.includes`. -/
def includes (text value : String) : Bool := decide (value.toList <:+: text.toList)

section Scan

variable (tables : TextTables)

def leaks (folded : String) (removal : Removal) : Bool :=
  let literal := tables.trim removal.literal
  !literal.isEmpty &&
    !(removal.kind == .literal && (codeUnits literal).length < minLiteralLength) &&
    includes folded (tables.toLowerCase literal)

def findLeak (haystack : String) (removed : List Removal) : Option Removal :=
  removed.find? (leaks tables (tables.toLowerCase haystack))

/-- The code the response is refused with, if it is. -/
def assertResponseIsClean (text : String) (request : GatewayCall) : Option GatewayErrorCode :=
  if request.canaries.any (includes text) then some .E_CANARY_IN_RESPONSE
  else if (findLeak tables text request.removals).isSome then some .E_PII_IN_RESPONSE
  else none

/-- `JSON.stringify` of the sampling as the request carries it: no `stop` when none is given. -/
def providerSampling (sampling : Sampling) : Json :=
  .object
    ([ ("temperature", .number sampling.temperature),
       ("top_p", .number sampling.top_p),
       ("max_tokens", .number (.integer sampling.max_tokens)) ] ++
      match sampling.stop with
      | some stop => [("stop", .array (stop.map .text))]
      | none => [])

def outbound (request : GatewayCall) : String :=
  stringify (.object
    [ ("model", .text request.model_requested),
      ("system", .text request.prompt_text),
      ("user", .text request.userMessage),
      ("sampling", providerSampling request.sampling),
      ("seed", nullableInt request.seed) ])

/-- The code the payload is held back with, if it is. -/
def egressRefusal (request : GatewayCall) : Option GatewayErrorCode :=
  if request.canaries.any (includes (outbound request)) then some .E_CANARY_EGRESS
  else if (findLeak tables (outbound request) request.removals).isSome then some .E_PII_EGRESS
  else none

end Scan

/-! ### The digests and the cache -/

section Cache

variable (sha256Hex : String → String) (config : GatewayConfig) (request : GatewayCall)

def envelope : Json :=
  .object
    [ ("schema_version", .text "1.0"),
      ("agent", .text request.agent.text),
      ("prompt_version_id", .text request.prompt_version_id),
      ("ticket_id", nullableText request.ticket_id),
      ("body_redacted", .text request.body_redacted),
      ("kb_context", .array (request.kb_context.map excerptJson)),
      ("locale", .text request.locale) ]

def inputHash : String := digestOf sha256Hex (envelope request)

def configStateHash : String :=
  stateHash sha256Hex config.schema_version config.ruleset_hash config.kb_snapshot

def cacheHit (output : Json) : Bool :=
  match (output.member "cache").bind (·.member "hit") with
  | some (.boolean value) => value
  | _ => false

/-- The `where` clause of the cache lookup. -/
def answers (row : LedgerRowContent) : Bool :=
  row.class == .agent_call &&
    row.input_hash == some (inputHash sha256Hex request) &&
    row.prompt_version_id == some request.prompt_version_id &&
    row.prompt_hash == some (sha256Hex request.prompt_text) &&
    row.state_hash == configStateHash sha256Hex config &&
    row.model_requested == some request.model_requested &&
    row.sampling.any (fun sampling =>
      canonicalJson sampling == canonicalJson (samplingJson request.sampling)) &&
    row.seed == request.seed &&
    (row.output.member "response").isSome && !cacheHit row.output

def cachedCall (row : LedgerRowContent) : Option CachedCall :=
  match row.output.memberText "response" with
  | none => none
  | some response_text =>
    some
      { seq := row.seq, model_returned := row.model_returned.getD "",
        response_hash := row.response_hash.getD "", response_text,
        confidence := row.confidence }

end Cache

/-! ### The row of a call -/

section Row

variable (sha256Hex : String → String) (config : GatewayConfig) (request : GatewayCall)

/-- `formatConfidence` of the confidence the response declares, if it declares one. -/
abbrev DeclaredConfidence := String → Option String

def responseFacts (declared : DeclaredConfidence) (response : ProviderResponse)
    (latency_ms : Nat) : RowFacts where
  run_id := config.run_id
  org_id := request.org_id
  ticket_id := request.ticket_id
  agent := request.agent
  prompt_version_id := request.prompt_version_id
  model_requested := request.model_requested
  model_returned := response.model
  sampling := samplingJson request.sampling
  seed := request.seed
  input_hash := inputHash sha256Hex request
  input_path := request.input_path
  prompt_hash := sha256Hex request.prompt_text
  response_hash := sha256Hex response.text
  response_text := response.text
  state_hash := configStateHash sha256Hex config
  split_id := request.split_id
  toolchain := config.toolchain
  restarts := config.restarts
  tokens_in := response.tokens_in
  tokens_out := response.tokens_out
  cost_micro := request.costMicro response
  latency_ms := latency_ms
  redaction := request.redaction
  confidence := declared response.text
  cache_hit := false
  cache_source_seq := none

def hitFacts (hit : CachedCall) (latency_ms : Nat) : RowFacts where
  run_id := config.run_id
  org_id := request.org_id
  ticket_id := request.ticket_id
  agent := request.agent
  prompt_version_id := request.prompt_version_id
  model_requested := request.model_requested
  model_returned := hit.model_returned
  sampling := samplingJson request.sampling
  seed := request.seed
  input_hash := inputHash sha256Hex request
  input_path := request.input_path
  prompt_hash := sha256Hex request.prompt_text
  response_hash := hit.response_hash
  response_text := hit.response_text
  state_hash := configStateHash sha256Hex config
  split_id := request.split_id
  toolchain := config.toolchain
  restarts := config.restarts
  tokens_in := 0
  tokens_out := 0
  cost_micro := 0
  latency_ms := latency_ms
  redaction := request.redaction
  confidence := hit.confidence
  cache_hit := true
  cache_source_seq := some hit.seq

def responseResult (response : ProviderResponse) (latency_ms : Nat) (ledger : LedgerRef) :
    GatewayResult where
  response_text := response.text
  model_returned := response.model
  body_redacted := request.body_redacted
  kb_context_redacted := request.kb_context
  redaction := request.redaction
  cached := false
  cost_micro := request.costMicro response
  tokens_in := response.tokens_in
  tokens_out := response.tokens_out
  latency_ms := latency_ms
  input_hash := inputHash sha256Hex request
  ledger := ledger

def hitResult (hit : CachedCall) (latency_ms : Nat) (ledger : LedgerRef) : GatewayResult where
  response_text := hit.response_text
  model_returned := hit.model_returned
  body_redacted := request.body_redacted
  kb_context_redacted := request.kb_context
  redaction := request.redaction
  cached := true
  cost_micro := 0
  tokens_in := 0
  tokens_out := 0
  latency_ms := latency_ms
  input_hash := inputHash sha256Hex request
  ledger := ledger

end Row

end LedgerDesk.Gateway
