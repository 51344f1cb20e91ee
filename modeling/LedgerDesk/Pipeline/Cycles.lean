import LedgerDesk.Pipeline.Steps

/-!
# Cycles, consoles and submissions

Any number of triage and drafting cycles of any organisations work beside one another, and beside
the consoles, the submissions and the chokepoint's events. Up to its transaction a cycle only reads
and computes, the retry counter of a triage apart; the transaction is a unit of work.
-/
namespace LedgerDesk.Pipeline

open Foundation Agents Ledger
open Gateway (TextTables)
open Drafting
open Tickets (TicketState UserRole GuardOwner findTransition isGuardAvailable)
open Triage

/-- What every process has in common. -/
structure Setting where
  sha256Hex : String → String
  parseJson : String → Option Json
  tables : TextTables
  /-- The matcher of the one policy table in force, of a subject and a body. -/
  matchPolicyFlags : String → String → List PolicyFlag
  toISOString : ℚ → String

/-- What the runtimes of organisations differ in. -/
structure RuntimeFacts where
  org_id : String
  run_id : String
  ruleset_hash : String
  kb_snapshot : String
  thresholds : EscalationThresholds

def Setting.runtime (setting : Setting) (facts : RuntimeFacts) : OrgRuntime where
  tables := setting.tables
  thresholds := facts.thresholds
  matchPolicyFlags := setting.matchPolicyFlags
  org_id := facts.org_id
  run_id := facts.run_id
  ruleset_hash := facts.ruleset_hash
  kb_snapshot := facts.kb_snapshot

/-! ### Decisions -/

inductive DecisionAction where
  | TICKET_TRIAGED
  | TICKET_ESCALATED
  | TICKET_DRAFTED
  | TICKET_VALIDATED
  deriving DecidableEq, Repr

def DecisionAction.text : DecisionAction → String
  | .TICKET_TRIAGED => "TICKET_TRIAGED"
  | .TICKET_ESCALATED => "TICKET_ESCALATED"
  | .TICKET_DRAFTED => "TICKET_DRAFTED"
  | .TICKET_VALIDATED => "TICKET_VALIDATED"

/-- The decision as a cycle files it: every clause, fired or not. -/
structure Decision where
  action : DecisionAction
  ticketId : String
  stage : String
  reason : Option EscalationReason
  clause : Option String
  clauses : List ClauseOutcome
  ruleset_hash : String
  run_id : String
  evaluated_at : String
  detail : Members

/-- `{ ...members, ...more }`. -/
def spread (members more : Members) : Members :=
  more.foldl (fun held entry =>
    if held.any fun other => other.1 = entry.1 then
      held.map fun other => if other.1 = entry.1 then entry else other
    else held ++ [entry]) members

def clauseJson (outcome : ClauseOutcome) : Json :=
  .object [("clause", .text outcome.clause), ("reason", .text (EscalationReason.text outcome.reason)),
    ("fired", .boolean outcome.fired)]

def Decision.detailJson (decision : Decision) : Json :=
  .object (spread
    [ ("stage", .text decision.stage),
      ("reason", nullableText (decision.reason.map EscalationReason.text)),
      ("clause", nullableText decision.clause),
      ("clauses", .array (decision.clauses.map clauseJson)),
      ("ruleset_hash", .text decision.ruleset_hash),
      ("run_id", .text decision.run_id),
      ("evaluated_at", .text decision.evaluated_at) ] decision.detail)

/-- `recordDecision`, up to the link. -/
def Decision.event (org_id : String) (decision : Decision) : AuditEventContent where
  org_id
  actor_id := none
  action := decision.action.text
  object_type := "ticket"
  object_id := decision.ticketId
  detail := decision.detailJson
  ts := decision.evaluated_at

section Programs

variable (setting : Setting) (runtime : OrgRuntime)

/-- `fileDecision`: every clause is evaluated again, on the vector of the verdict. -/
def fileDecision (action : DecisionAction) (ticketId stage : String)
    (reason : Option EscalationReason) (clause : Option String) (features : EscalationFeatures)
    (now : ℚ) (detail : Members) : Decision where
  action
  ticketId
  stage
  reason
  clause
  clauses := runtime.clausesOf features now
  ruleset_hash := runtime.ruleset_hash
  run_id := runtime.run_id
  evaluated_at := setting.toISOString now
  detail

/-! ### The transaction of a triage cycle -/

def triageDetail (code : Option FailureCode) (ledger : Option String) : Members :=
  [ ("failure_code", nullableText (code.map failureCodeText)),
    ("ledger_row_hash", nullableText ledger) ]

/-- The vector that was judged after the last attempt. -/
def failureInput (held : Standing) (code : FailureCode) : FeatureInput :=
  runtime.unanswered held.ticket held.retries
    (if code = .gateway .E_EMPTY_AFTER_REDACTION then some 0 else none)

/-- The vector that was judged of an answer, with the SLA its severity chose. -/
def answerInput (held : Standing) (policy : Option SlaPolicy) (reading : TriageReading)
    (redactedLength : Nat) : FeatureInput :=
  let unanswered := runtime.unanswered held.ticket held.retries (some redactedLength)
  let slaDueAt := policy.map fun policy =>
    held.ticket.created_at + policy.first_response_minutes * 60000
  { unanswered with ticket := { unanswered.ticket with slaDueAt }, triage := some reading }

/-- The decisions a triage cycle files. -/
def triageDecision (held : Standing) (policy : Option SlaPolicy) (ledger : String) :
    Settlement → Decision
  | .atRecord reason clause =>
    fileDecision setting runtime .TICKET_ESCALATED held.ticket.id "record" (some reason)
      (some clause)
      (featuresFromTicket (runtime.unanswered held.ticket held.ticket.retries none)).features
      held.now (triageDetail none none)
  | .failure reason clause code =>
    fileDecision setting runtime .TICKET_ESCALATED held.ticket.id "failure" (some reason)
      (some clause) (featuresFromTicket (failureInput runtime held code)).features held.now
      (triageDetail (some code) none)
  | .answer reading redactedLength =>
    let input := answerInput runtime held policy reading redactedLength
    let verdict := runtime.verdictOf input held.now
    fileDecision setting runtime
      (if verdict.escalate then .TICKET_ESCALATED else .TICKET_TRIAGED) held.ticket.id "triage"
      verdict.reason verdict.clause (featuresFromTicket input).features held.now
      (triageDetail none (some ledger))

def triageTransitions (held : Standing) (policy : Option SlaPolicy) :
    Settlement → List Statement
  | .atRecord reason clause =>
    [.transition held.ticket.id held.ticket.status .ESCALATED .escalationRule
      { escalation := some (reason, clause) }]
  | .failure reason clause _ =>
    if held.ticket.status = .REOPENED then
      -- no edge leads from here to the failed state
      [.transition held.ticket.id .REOPENED .ESCALATED .escalationRule
        { escalation := some (reason, clause) }]
    else
      [.transition held.ticket.id held.ticket.status .TRIAGE_FAILED .triageAgent {},
        .transition held.ticket.id .TRIAGE_FAILED .ESCALATED .escalationRule
          { escalation := some (reason, clause) }]
  | .answer reading redactedLength =>
    let input := answerInput runtime held policy reading redactedLength
    let verdict := runtime.verdictOf input held.now
    .transition held.ticket.id held.ticket.status .TRIAGED .triageAgent
        { reading := (featuresFromTicket input).stored
          sla := some (policy.map SlaPolicy.id, input.ticket.slaDueAt) } ::
      match verdict.escalate, verdict.reason, verdict.clause with
      | true, some reason, some clause =>
        [.transition held.ticket.id .TRIAGED .ESCALATED .escalationRule
          { escalation := some (reason, clause) }]
      | _, _, _ => []

/-! ### The transaction of a drafting cycle -/

def gapDetail (gap : EmittedGap) : Members :=
  [("gap_id", nullableText gap.gap_id), ("gap_refused", nullableText gap.refused)]

def conjunctsJson (conjuncts : GroundingConjuncts) : Json :=
  .object
    [ ("sources_present", .boolean conjuncts.sources_present),
      ("citations_present", .boolean conjuncts.citations_present),
      ("citations_offered", .boolean conjuncts.citations_offered),
      ("citations_overlap", .boolean conjuncts.citations_overlap),
      ("model_agrees", .boolean conjuncts.model_agrees) ]

/-- `insertResponse`: the cited articles are those the search returned. -/
def Judged.response (ticketId : String) (judged : Judged) : Response where
  id := judged.response_id
  ticket_id := ticketId
  draft := judged.produced.text
  kb_snapshot := judged.found.snapshot
  grounded := judged.grounding.grounded
  draft_ledger_ref := judged.produced.draft.ledger.id
  validate_ledger_ref := judged.validation.ledger.id
  unsupported_claims := judged.unsupported
  citations := (judged.found.sources.filter fun source =>
    source.kb_id ∈ judged.produced.citations).map fun source =>
      ⟨source.article_id, judged.found.snapshot⟩

def Judged.divergent (judged : Judged) : List String :=
  (judged.found.sources.filter fun source =>
    source.canonical_key ∈ judged.grounding.conflicting_keys).map RetrievedSource.article_id

def draftedDetail (judged : Judged) (gap : EmittedGap) : Members :=
  [ ("response_id", .text judged.response_id),
    ("kb_snapshot", .text judged.found.snapshot),
    ("result_count", countJson judged.found.resultCount),
    ("citations", .array (judged.produced.citations.map .text)),
    ("conjuncts", conjunctsJson judged.grounding.conjuncts),
    ("unsupported_citations", .array (judged.grounding.unsupported_citations.map .text)),
    ("conflicting_keys", .array (judged.grounding.conflicting_keys.map .text)),
    ("draft_ledger_row_hash", .text judged.produced.draft.ledger.row_hash),
    ("validate_ledger_row_hash", .text judged.validation.ledger.row_hash) ] ++ gapDetail gap

def validatedDetail (judged : Judged) : Members :=
  [ ("response_id", .text judged.response_id),
    ("grounded", .boolean judged.grounding.grounded),
    ("model_agrees", .boolean judged.modelSaysGrounded),
    ("conjuncts", conjunctsJson judged.grounding.conjuncts),
    ("unsupported_claim_count", countJson judged.unsupported.length),
    ("failure_code", nullableText (judged.lastCode.map failureCodeText)) ]

/-- The decisions a drafting cycle files. The first may name the gap. -/
def draftDecisions (held : DraftStanding) : DraftSettlement → List (EmittedGap → Decision)
  | .escalation features reason clause _ detail _ =>
    [fun gap =>
      fileDecision setting runtime .TICKET_ESCALATED held.ticket.id "draft" (some reason)
        (some clause) features held.now (spread detail (gapDetail gap))]
  | .answer judged =>
    let grounded := judged.grounding.grounded
    [ fun gap =>
        fileDecision setting runtime (if grounded then .TICKET_DRAFTED else .TICKET_ESCALATED)
          held.ticket.id "draft" (if grounded then none else judged.verdict.reason)
          (if grounded then none else judged.verdict.clause) judged.features held.now
          (draftedDetail judged gap),
      fun _ =>
        fileDecision setting runtime .TICKET_VALIDATED held.ticket.id "validate" none none
          judged.features held.now (validatedDetail judged) ]

/-- Up to the records. -/
def draftStatements (held : DraftStanding) : DraftSettlement → List Statement
  | .escalation _ reason clause gap _ _ =>
    .transition held.ticket.id held.ticket.status .ESCALATED .escalationRule
      { escalation := some (reason, clause) } :: (gap.map Statement.emitGap).toList
  | .answer judged =>
    .insertResponse (Judged.response held.ticket.id judged) ::
      .transition held.ticket.id .TRIAGED .DRAFTED .draftAgent {} ::
      if judged.grounding.grounded then
        [.transition held.ticket.id .DRAFTED .AWAITING_AGENT .groundingValidator {}]
      else
        [ .transition held.ticket.id .DRAFTED .ESCALATED .escalationRule
            { escalation := judged.verdict.reason.bind fun reason =>
                judged.verdict.clause.map (reason, ·) },
          .emitGap ⟨judged.found.terms, judged.found.snapshot, false, Judged.divergent judged⟩ ]

/-- What a session has decided to write. -/
inductive Work where
  | triage (facts : RuntimeFacts) (held : Standing) (policy : Option SlaPolicy) (ledger : String)
      (settlement : Settlement)
  | draft (facts : RuntimeFacts) (held : DraftStanding) (settlement : DraftSettlement)
  /-- An event of the chokepoint. -/
  | event (content : AuditEventContent)

end Programs

namespace Work

/-- The decisions of a cycle. An event is none. -/
def decisions (setting : Setting) : Work → List (EmittedGap → Decision)
  | .triage facts held policy ledger settlement =>
    [fun _ => triageDecision setting (setting.runtime facts) held policy ledger settlement]
  | .draft facts held settlement => draftDecisions setting (setting.runtime facts) held settlement
  | .event _ => []

def statements (setting : Setting) : Work → List Statement
  | .triage facts held policy _ settlement =>
    triageTransitions (setting.runtime facts) held policy settlement
  | .draft _ held settlement => draftStatements held settlement
  | .event content => [.record fun _ => content]

def org_id : Work → String
  | .triage facts _ _ _ _ => facts.org_id
  | .draft facts _ _ => facts.org_id
  | .event content => content.org_id

/-- The cycles rebuild their transaction three times, the chokepoint its own six. -/
def unit (setting : Setting) (work : Work) : WorkUnit where
  org_id := work.org_id
  attempts := match work with
    | .event _ => appendAttempts
    | _ => chainAttempts
  program := work.statements setting ++ (work.decisions setting).map fun decision =>
    .record fun gap => (decision gap).event work.org_id

end Work

/-! ### The system -/

inductive Session where
  | idle
  | triaging (facts : RuntimeFacts) (phase : TriagePhase)
  | drafting (facts : RuntimeFacts) (phase : DraftPhase)
  | writing (work : Work) (phase : UnitPhase)
  | crashed

structure State where
  db : Database Nat
  sessions : Nat → Session

inductive Act where
  /-- A submission that is not collapsed into an older one. -/
  | submit (id org_id subject body_raw language tier : String) (value_band : Int) (created_at : ℚ)
  | console (org_id : String) (role : UserRole) (id : String) (target : TicketState)
  /-- A guard that no component evaluates is met: a reply is approved, or a ticket is reopened. -/
  | outside (id : String) (target : TicketState)
  | startTriage (i : Nat) (facts : RuntimeFacts) (id : String) (now : ℚ) (head : Option String)
  | ask (i : Nat)
  | reply (i : Nat) (reply : Reply)
  | bump (i : Nat)
  | startDraft (i : Nat) (facts : RuntimeFacts) (id : String) (now : ℚ)
  | search (i : Nat) (head : Option String) (search : String → RetrievalOutcome)
  | price (i : Nat) (response_id : String) (refused : Option Triage.GatewayErrorCode)
  | replyDraft (i : Nat) (reply : GatewayReply)
  | replyValidation (i : Nat) (reply : GatewayReply)
  /-- The policy is read, and the transaction begun. -/
  | settle (i : Nat) (policy : Option SlaPolicy) (ledger : String)
  | event (i : Nat) (content : AuditEventContent)
  | unit (i : Nat) (act : UnitAct)
  /-- A call of the cycle throws what it does not handle. -/
  | throw (i : Nat)
  | crash (i : Nat)

def State.enter (s : State) (i : Nat) (session : Session) : State :=
  { s with sessions := Function.update s.sessions i session }

/-- A transaction of one statement, on a row nobody has locked. -/
def State.setTicket (s : State) (k : String) (ticket : Ticket) : State :=
  { s with db := { s.db with tickets := Function.update s.db.tickets k ⟨some ticket, none⟩ } }

/-- The ticket as the session of an organisation reads it. -/
def State.visible (s : State) (org_id id : String) : Option Ticket :=
  (s.db.tickets id).committed.filter fun ticket => ticket.org_id = org_id

def noKbSnapshot : String := "kb:none"

section System

variable (setting : Setting)

/-- `createTicket`, where it inserts: the state is the column's default. -/
def newTicket (id org_id subject body_raw language tier : String) (value_band : Int)
    (created_at : ℚ) : Ticket where
  id
  org_id
  status := .NEW
  subject
  body_raw
  language
  retries := 0
  created_at
  sla_due_at := none
  tier
  value_band
  sla_policy_id := none
  reading := none
  escalation_reason := none
  escalation_clause := none

def submitStep (s : State) (ticket : Ticket) : Option State :=
  let cell := s.db.tickets ticket.id
  if cell.committed.isNone && cell.held.isNone then some (s.setTicket ticket.id ticket) else none

/-- `transitionTicket`, where it is not refused. -/
def consoleStep (s : State) (org_id : String) (role : UserRole) (id : String)
    (target : TicketState) : Option State := do
  let ticket ← s.visible org_id id
  let edge ← findTransition ticket.status target
  if (role = .agent || role = .supervisor) && isGuardAvailable edge &&
      edge.requiresRole.all (role ∈ ·) && (s.db.tickets id).held.isNone then
    some (s.setTicket id { ticket with status := target })
  else none

/-- The approval and the reopening, which no component and no console takes for itself. -/
def outsideStep (s : State) (id : String) (target : TicketState) : Option State := do
  let ticket ← (s.db.tickets id).committed
  let edge ← findTransition ticket.status target
  if (edge.guardedBy = .approvalConstraint || edge.guardedBy = .reopenWindow) &&
      (s.db.tickets id).held.isNone then
    some (s.setTicket id { ticket with status := target })
  else none

/-- `bumpRetries`. -/
def bumpStep (s : State) (i : Nat) (facts : RuntimeFacts) (held : Standing) (code : FailureCode) :
    Option State :=
  match (s.visible facts.org_id held.ticket.id).filter fun row => row.status = held.ticket.status with
  | none => some (s.enter i (.triaging facts (.threw .transitionStale)))
  | some row =>
    if (s.db.tickets held.ticket.id).held.isNone then
      some ((s.setTicket held.ticket.id { row with retries := row.retries + 1 }).enter i
        (.triaging facts ((setting.runtime facts).bumped held code (row.retries + 1))))
    else none

def startTriageStep (s : State) (facts : RuntimeFacts) (id : String) (now : ℚ)
    (head : Option String) : Session :=
  .triaging facts <|
    match s.visible facts.org_id id with
    | none => .threw .ticketNotVisible
    | some ticket => (setting.runtime facts).start ticket.toTicketRow now true
        (decide (facts.kb_snapshot = head.getD noKbSnapshot))

/-- The cycle is decided, and opens its transaction. -/
def settleStep (policy : Option SlaPolicy) (ledger : String) : Session → Option Session
  | .triaging facts (.settling held settlement) =>
    let work : Work := .triage facts held policy ledger settlement
    some (.writing work (work.unit setting).begin)
  | .drafting facts (.settling held settlement) =>
    let work : Work := .draft facts held settlement
    some (.writing work (work.unit setting).begin)
  | _ => none

/-- The part of a drafting cycle that is not over. -/
def draftLive : DraftPhase → Bool
  | .searching _ | .pricing _ _ | .asking _ _ _ _ _ | .judging _ _ _ _ _ | .settling _ _ => true
  | _ => false

def Session.live : Session → Bool
  | .triaging _ phase => phase.live
  | .drafting _ phase => draftLive phase
  | .writing _ phase => phase.live
  | _ => false

/-- What a session computes for itself, of what it is told. -/
def advance (s : State) : Act → Option (Nat × Session)
  | .startTriage i facts id now head =>
    match s.sessions i with
    | .idle => some (i, startTriageStep setting s facts id now head)
    | _ => none
  | .ask i =>
    match s.sessions i with
    | .triaging facts (.asking held) => some (i, .triaging facts (.waiting held))
    | _ => none
  | .reply i reply =>
    match s.sessions i with
    | .triaging facts (.waiting held) =>
      some (i, .triaging facts ((setting.runtime facts).heard held reply))
    | _ => none
  | .startDraft i facts id now =>
    match s.sessions i with
    | .idle => some (i, .drafting facts (OrgRuntime.startDraft
        ((s.visible facts.org_id id).map Ticket.toTicketRow) now))
    | _ => none
  | .search i head search =>
    match s.sessions i with
    | .drafting facts (.searching held) =>
      some (i, .drafting facts ((setting.runtime facts).searched held head search))
    | _ => none
  | .price i response_id refused =>
    match s.sessions i with
    | .drafting facts (.pricing held found) =>
      some (i, .drafting facts (OrgRuntime.priced held found response_id refused))
    | _ => none
  | .replyDraft i reply =>
    match s.sessions i with
    | .drafting facts (.asking held response_id found attempt lastCode) =>
      some (i, .drafting facts ((setting.runtime facts).heardDraft setting.parseJson held
        response_id found attempt lastCode reply))
    | _ => none
  | .replyValidation i reply =>
    match s.sessions i with
    | .drafting facts (.judging held response_id found produced lastCode) =>
      some (i, .drafting facts ((setting.runtime facts).heardValidation setting.parseJson held
        response_id found produced lastCode reply))
    | _ => none
  | .settle i policy ledger => (settleStep setting policy ledger (s.sessions i)).map (i, ·)
  | .event i content =>
    match s.sessions i with
    | .idle => some (i, .writing (.event content) ((Work.event content).unit setting).begin)
    | _ => none
  | .throw i =>
    match s.sessions i with
    | .triaging facts phase =>
      if phase.live then some (i, .triaging facts (.threw .foreign)) else none
    | .drafting facts phase =>
      if draftLive phase then some (i, .drafting facts (.threw .foreign)) else none
    | _ => none
  | _ => none

def pipelineStep (s : State) : Act → Option State
  | .submit id org_id subject body_raw language tier value_band created_at =>
    submitStep s (newTicket id org_id subject body_raw language tier value_band created_at)
  | .console org_id role id target => consoleStep s org_id role id target
  | .outside id target => outsideStep s id target
  | .bump i =>
    match s.sessions i with
    | .triaging facts (.failing held code) => bumpStep setting s i facts held code
    | _ => none
  | .unit i act =>
    match s.sessions i with
    | .writing work phase =>
      (unitStep setting.sha256Hex (work.unit setting) s.db i phase act).map fun next =>
        { db := next.1, sessions := Function.update s.sessions i (.writing work next.2) }
    | _ => none
  | .crash i =>
    -- what a session that is gone had open is rolled back
    if (s.sessions i).live then some ({ s with db := s.db.rollback i }.enter i .crashed) else none
  | act => (advance setting s act).map fun next => s.enter next.1 next.2

end System

/-- No tickets, and no session at work. -/
def empty : State where
  db :=
    { tickets := fun _ => ⟨none, none⟩
      audit := fun _ => ⟨[], none⟩
      responses := []
      inserted := fun _ => []
      nextId := 0 }
  sessions := fun _ => .idle

end LedgerDesk.Pipeline
