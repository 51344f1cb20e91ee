import LedgerDesk.Drafting.Envelope

/-!
# The drafting cycle

A cycle reads the ticket, searches the corpus at the snapshot in force, prices both of its calls,
asks for a draft until one is usable, and has it validated. What it computes from each of these is
here; what it then writes is one transaction.
-/
namespace LedgerDesk.Drafting

open Agents Gateway
open Tickets (TicketState)
open Triage

/-- The clause the cycle is about. -/
def groundClause : String := "draft_not_grounded"

def draftable : List TicketState := [.TRIAGED]

/-- An emptied body is not retried here, and is nobody's failure to answer. -/
def systemic : List Triage.GatewayErrorCode := Triage.systemic ++ [.E_EMPTY_AFTER_REDACTION]

structure RetrievedSource where
  kb_id : String
  article_id : String
  canonical_key : String
  title : String
  excerpt : String
  rank : String
  deriving DecidableEq, Repr

inductive RetrievalOutcome where
  | zeroMatch (terms snapshot : String)
  | belowThreshold (terms snapshot bestRank : String)
  | hits (terms snapshot : String) (resultCount : Nat) (sources : List RetrievedSource)
  deriving DecidableEq, Repr

/-- What a search that found something found. -/
structure Found where
  terms : String
  snapshot : String
  resultCount : Nat
  sources : List RetrievedSource
  deriving DecidableEq, Repr

def Found.kbContext (found : Found) : List KbExcerpt :=
  found.sources.map fun source => ⟨source.kb_id, source.excerpt⟩

/-- The evidence of a question the corpus did not answer. -/
structure GapEvidence where
  terms : String
  snapshot : String
  zeroMatch : Bool
  divergent : List String
  deriving DecidableEq, Repr

structure Citation where
  kb_article_id : String
  kb_snapshot : String
  deriving DecidableEq, Repr

/-- A row of `response`, with its citations. -/
structure Response where
  id : String
  ticket_id : String
  draft : String
  kb_snapshot : String
  grounded : Bool
  draft_ledger_ref : Nat
  validate_ledger_ref : Nat
  unsupported_claims : List String
  citations : List Citation
  deriving DecidableEq, Repr

/-- What the cycles read of the runtime of an organisation. -/
structure OrgRuntime extends TriageRuntime where
  org_id : String
  run_id : String
  ruleset_hash : String
  kb_snapshot : String

inductive DraftOutcome where
  | skipped (status : TicketState)
  | escalatedNoSources (reason : EscalationReason) (clause retrieval : String)
  | drafted (response_id : String) (citations : Nat)
  | escalatedNotGrounded (reason : EscalationReason) (clause response_id : String)
      (unsupported : List String)
  | failed (reason : EscalationReason) (clause : String) (code : Option FailureCode)
  | abandoned (code : Triage.GatewayErrorCode)
  deriving DecidableEq, Repr

/-- What a cycle throws before its transaction. -/
inductive DraftFault where
  | ticketNotVisible
  | noSnapshot
  | runtimeStale
  | groundStage
  | stranded
  | noEscalation
  | groundedYetFired
  | ungroundedYetSilent
  /-- A code in neither set. -/
  | unsorted (code : Triage.GatewayErrorCode)
  /-- Whatever else a call of the cycle throws. -/
  | foreign
  deriving DecidableEq, Repr

/-- The ticket as the cycle read it, and its one instant. -/
structure DraftStanding where
  ticket : TicketRow
  now : ℚ
  deriving DecidableEq, Repr

structure Produced where
  draft : GatewayResult
  text : String
  citations : List String

/-- A draft that was judged. -/
structure Judged where
  response_id : String
  found : Found
  produced : Produced
  validation : GatewayResult
  modelSaysGrounded : Bool
  unsupported : List String
  grounding : GroundingVerdict
  features : EscalationFeatures
  verdict : EscalationVerdict
  lastCode : Option FailureCode

/-- What the transaction of a cycle is about. -/
inductive DraftSettlement where
  | escalation (features : EscalationFeatures) (reason : EscalationReason) (clause : String)
      (gap : Option GapEvidence) (detail : Members) (outcome : DraftOutcome)
  | answer (judged : Judged)

inductive DraftPhase where
  | idle
  | searching (held : DraftStanding)
  /-- Both halves of the pair are to be priced. -/
  | pricing (held : DraftStanding) (found : Found)
  | asking (held : DraftStanding) (response_id : String) (found : Found) (attempt : Nat)
      (lastCode : Option FailureCode)
  | judging (held : DraftStanding) (response_id : String) (found : Found) (produced : Produced)
      (lastCode : Option FailureCode)
  | settling (held : DraftStanding) (settlement : DraftSettlement)
  | ended (outcome : DraftOutcome)
  | threw (fault : DraftFault)
  | crashed

inductive GatewayReply where
  | returned (result : GatewayResult)
  | refused (code : Triage.GatewayErrorCode)
  | foreign

/-! ### The names of the codes -/

def EscalationReason.text : EscalationReason → String
  | .CONF => "CONF" | .SENT => "SENT" | .TIER => "TIER" | .RETRY => "RETRY" | .SLA => "SLA"
  | .GROUND => "GROUND" | .POLICY => "POLICY" | .LANG => "LANG"

def gatewayCodeText : Triage.GatewayErrorCode → String
  | .E_CONFIG_INVALID => "E_CONFIG_INVALID"
  | .E_INPUT_PATH_MISSING => "E_INPUT_PATH_MISSING"
  | .E_MODEL_PRICE_UNKNOWN => "E_MODEL_PRICE_UNKNOWN"
  | .E_EMPTY_AFTER_REDACTION => "E_EMPTY_AFTER_REDACTION"
  | .E_CANARY_NOT_REDACTED => "E_CANARY_NOT_REDACTED"
  | .E_CANARY_EGRESS => "E_CANARY_EGRESS"
  | .E_PII_EGRESS => "E_PII_EGRESS"
  | .E_CANARY_IN_RESPONSE => "E_CANARY_IN_RESPONSE"
  | .E_PII_IN_RESPONSE => "E_PII_IN_RESPONSE"
  | .E_BUDGET_EXHAUSTED => "E_BUDGET_EXHAUSTED"
  | .E_PROVIDER_TIMEOUT => "E_PROVIDER_TIMEOUT"
  | .E_PROVIDER_FAILED => "E_PROVIDER_FAILED"
  | .E_MODEL_UNEXPECTED => "E_MODEL_UNEXPECTED"
  | .E_LEDGER_WRITE_FAILED => "E_LEDGER_WRITE_FAILED"
  | .E_REPLAY_CACHE_MISS => "E_REPLAY_CACHE_MISS"

def agentCodeText : AgentErrorCode → String
  | .E_SCHEMA => "E_SCHEMA"
  | .E_PROMPT_NOT_REGISTERED => "E_PROMPT_NOT_REGISTERED"
  | .E_NO_GROUNDING => "E_NO_GROUNDING"

def failureCodeText : FailureCode → String
  | .gateway code => gatewayCodeText code
  | .agent code => agentCodeText code

/-- `''` before anything has failed. -/
def lastCodeText (code : Option FailureCode) : String := (code.map failureCodeText).getD ""

/-! ### What a cycle computes -/

namespace OrgRuntime

variable (runtime : OrgRuntime) (parseJson : String → Option Json)

/-- The vector of a cycle: no triage is read, and both later steps have run. -/
def draftInput (held : DraftStanding) (redactedBodyLength : Option Nat) (resultCount : Nat)
    (grounded : Bool) : FeatureInput where
  ticket :=
    { id := held.ticket.id
      createdAt := held.ticket.created_at
      slaDueAt := held.ticket.sla_due_at
      language := held.ticket.language
      retries := held.ticket.retries }
  account := { tier := held.ticket.tier, valueBand := held.ticket.value_band }
  triage := none
  redactedBodyLength
  retrieval := some resultCount
  validation := some grounded
  policyFlags := runtime.matchPolicyFlags held.ticket.subject held.ticket.body_raw

def clausesOf (features : EscalationFeatures) (now : ℚ) : List ClauseOutcome :=
  evaluateEscalationClauses runtime.tables features now runtime.thresholds

def groundClauseFired (features : EscalationFeatures) (now : ℚ) : Bool :=
  (runtime.clausesOf features now).any fun outcome => outcome.clause = groundClause && outcome.fired

/-- The way out for every cycle without a grounded draft. -/
def escalateWithoutGrounding (held : DraftStanding) (resultCount : Nat) (gap : Option GapEvidence)
    (detail : Members) (outcome : EscalationReason → String → DraftOutcome) : DraftPhase :=
  let features := (featuresFromTicket (runtime.draftInput held none resultCount false)).features
  let verdict := evaluateEscalation runtime.tables features held.now runtime.thresholds
  if clauseStage groundClause ≠ some .draft then .threw .groundStage
  else if !runtime.groundClauseFired features held.now then .threw .stranded
  else
    match verdict.escalate, verdict.reason, verdict.clause with
    | true, some reason, some clause =>
      .settling held (.escalation features reason clause gap detail (outcome reason clause))
    | _, _, _ => .threw .noEscalation

/-- From the read to the search. -/
def startDraft (ticket : Option TicketRow) (now : ℚ) : DraftPhase :=
  match ticket with
  | none => .threw .ticketNotVisible
  | some ticket =>
    if ticket.status ∉ draftable then .ended (.skipped ticket.status)
    else .searching ⟨ticket, now⟩

/-- The head is read, held against the runtime's, and searched. -/
def searched (held : DraftStanding) (head : Option String)
    (search : String → RetrievalOutcome) : DraftPhase :=
  match head with
  | none => .threw .noSnapshot
  | some snapshot =>
    if runtime.kb_snapshot ≠ snapshot then .threw .runtimeStale
    else
      match search snapshot with
      | .hits terms snapshot resultCount sources =>
        .pricing held ⟨terms, snapshot, resultCount, sources⟩
      | .zeroMatch terms snapshot =>
        runtime.escalateWithoutGrounding held 0 (some ⟨terms, snapshot, true, []⟩)
          [ ("retrieval_kind", .text "zero_match"), ("kb_snapshot", .text snapshot),
            ("result_count", countJson 0), ("best_rank", .null) ]
          fun reason clause => .escalatedNoSources reason clause "zero_match"
      | .belowThreshold terms snapshot bestRank =>
        runtime.escalateWithoutGrounding held 0 (some ⟨terms, snapshot, false, []⟩)
          [ ("retrieval_kind", .text "below_threshold"), ("kb_snapshot", .text snapshot),
            ("result_count", countJson 0), ("best_rank", .text bestRank) ]
          fun reason clause => .escalatedNoSources reason clause "below_threshold"

/-- The pair has been priced, or refused. -/
def priced (held : DraftStanding) (found : Found) (response_id : String) :
    Option Triage.GatewayErrorCode → DraftPhase
  | none => .asking held response_id found 0 none
  | some code =>
    if code ∈ systemic then .ended (.abandoned code) else .threw (.unsorted code)

/-- No usable draft came back. The corpus is not what failed, so no gap is recorded. -/
def unusable (held : DraftStanding) (found : Found) (lastCode : Option FailureCode) :
    DraftPhase :=
  runtime.escalateWithoutGrounding held found.resultCount none
    [ ("retrieval_kind", .text "hits"), ("kb_snapshot", .text found.snapshot),
      ("result_count", countJson found.resultCount),
      ("failure_code", .text (lastCodeText lastCode)) ]
    fun reason clause => .failed reason clause lastCode

def nextAttempt (held : DraftStanding) (response_id : String) (found : Found) (attempt : Nat)
    (code : FailureCode) : DraftPhase :=
  if runtime.thresholds.maxRetries < (attempt + 1 : Nat) then
    runtime.unusable held found (some code)
  else .asking held response_id found (attempt + 1) (some code)

/-- The cycle has heard of an attempt at a draft. -/
def heardDraft (held : DraftStanding) (response_id : String) (found : Found) (attempt : Nat)
    (lastCode : Option FailureCode) : GatewayReply → DraftPhase
  | .foreign => .threw .foreign
  | .refused code =>
    if code ∈ systemic then .ended (.abandoned code)
    else if code ∉ retryable then .threw (.unsorted code)
    else runtime.nextAttempt held response_id found attempt (.gateway code)
  | .returned result =>
    match parseDraftEnvelope parseJson result.response_text result.kb_context_redacted with
    | .ok envelope =>
      .judging held response_id found ⟨result, envelope.text, envelope.kb_ids⟩ lastCode
    | .error refusal =>
      -- a fabricated reference is not asked for again
      if refusal.code = .E_NO_GROUNDING then runtime.unusable held found (some (.agent refusal.code))
      else runtime.nextAttempt held response_id found attempt (.agent refusal.code)

def judge (held : DraftStanding) (response_id : String) (found : Found) (produced : Produced)
    (validation : GatewayResult) (modelSaysGrounded : Bool) (unsupported : List String)
    (lastCode : Option FailureCode) : DraftPhase :=
  let grounding := evaluateGrounding runtime.tables produced.draft.kb_context_redacted
    produced.citations produced.text modelSaysGrounded
  let features := (featuresFromTicket (runtime.draftInput held
    (some (codeUnits produced.draft.body_redacted).length) found.resultCount
    grounding.grounded)).features
  let verdict := evaluateEscalation runtime.tables features held.now runtime.thresholds
  if clauseStage groundClause ≠ some .draft then .threw .groundStage
  else if grounding.grounded && runtime.groundClauseFired features held.now then
    .threw .groundedYetFired
  else if !grounding.grounded && !runtime.groundClauseFired features held.now then
    .threw .ungroundedYetSilent
  else
    .settling held (.answer
      { response_id, found, produced, validation, modelSaysGrounded, unsupported, grounding,
        features, verdict, lastCode })

/-- The cycle has heard of the validation. -/
def heardValidation (held : DraftStanding) (response_id : String) (found : Found)
    (produced : Produced) (lastCode : Option FailureCode) : GatewayReply → DraftPhase
  | .foreign => .threw .foreign
  | .refused code =>
    if code ∈ systemic then .ended (.abandoned code)
    else
      runtime.escalateWithoutGrounding held found.resultCount none
        [ ("stage", .text "validate"), ("failure_code", .text (gatewayCodeText code)),
          ("kb_snapshot", .text found.snapshot) ]
        fun reason clause => .failed reason clause (some (.gateway code))
  | .returned validation =>
    match parseValidateEnvelope parseJson validation.response_text with
    | .ok verdict =>
      runtime.judge held response_id found produced validation verdict.grounded
        verdict.unsupported_claims lastCode
    -- a verdict that cannot be read is no verdict
    | .error refusal =>
      runtime.judge held response_id found produced validation false [] (some (.agent refusal.code))

end OrgRuntime

end LedgerDesk.Drafting
