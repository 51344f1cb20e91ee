import LedgerDesk.Gateway.Call
import LedgerDesk.Queue.Priority

/-!
# The escalation rule

A disjunction over a feature vector, evaluated in a fixed order. Whether a ticket escalates does
not depend on the order; the reason and the clause kept beside it do.
-/
namespace LedgerDesk.Triage

open Gateway (TextTables)
open Queue (Severity AccountTier ValueBand normalisedSeverity)

inductive EscalationReason where
  | CONF
  | SENT
  | TIER
  | RETRY
  | SLA
  | GROUND
  | POLICY
  | LANG
  deriving DecidableEq, Repr

inductive PolicyFlag where
  | refund
  | complaint
  | legal
  | safety
  | injection
  deriving DecidableEq, Repr

/-- The due instant is `⊤` while no policy has been chosen. -/
structure EscalationFeatures where
  id : String
  createdAt : ℚ
  slaDueAt : WithTop ℚ
  tier : AccountTier
  valueBand : ValueBand
  severity : Severity
  sentiment : Option ℚ
  confidence : Option ℚ
  retries : Int
  language : String
  redactedBodyLength : Option Nat
  kbResultCount : Option Nat
  grounded : Option Bool
  policyFlags : List PolicyFlag
  deriving DecidableEq

structure EscalationThresholds where
  confidence : ℚ
  sentiment : ℚ
  maxRetries : ℚ
  premiumSeverity : ℚ
  supportedLanguages : List String
  nullSentimentConfidencePenalty : ℚ
  deriving DecidableEq, Repr

def defaultEscalationThresholds : EscalationThresholds where
  confidence := 3 / 4
  sentiment := -3 / 5
  maxRetries := 3
  premiumSeverity := 3 / 4
  supportedLanguages := ["en"]
  nullSentimentConfidencePenalty := 1 / 5

def effectiveConfidence (features : EscalationFeatures) (thresholds : EscalationThresholds) :
    Option ℚ :=
  if features.redactedBodyLength = some 0 then some 0
  else
    match features.confidence, features.sentiment with
    | none, _ => none
    | some confidence, none => some (max 0 (confidence - thresholds.nullSentimentConfidencePenalty))
    | some confidence, some _ => some confidence

def effectiveGrounded (features : EscalationFeatures) : Option Bool :=
  if features.kbResultCount = some 0 then some false else features.grounded

def isBreached (features : EscalationFeatures) (now : ℚ) : Bool := features.slaDueAt < (now : WithTop ℚ)

def isPremiumHighSeverity (tier : AccountTier) (severity : Severity) (floor : ℚ) : Bool :=
  tier = .premium && floor ≤ normalisedSeverity severity

inductive ClauseStage where
  | record
  | triage
  | draft
  deriving DecidableEq, Repr

/-- What `CLAUSE_STAGE` has under a name. -/
def clauseStage : String → Option ClauseStage
  | "policy_flag_raised" => some .record
  | "retry_budget_exhausted" => some .record
  | "language_out_of_scope" => some .record
  | "sla_breached" => some .record
  | "confidence_below_threshold" => some .triage
  | "sentiment_at_or_below_threshold" => some .triage
  | "premium_high_severity" => some .triage
  | "draft_not_grounded" => some .draft
  | _ => none

structure EscalationClause where
  name : String
  reason : EscalationReason
  statement : String
  fires : EscalationFeatures → ℚ → EscalationThresholds → Bool

structure EscalationVerdict where
  escalate : Bool
  reason : Option EscalationReason
  clause : Option String
  deriving DecidableEq, Repr

structure ClauseOutcome where
  clause : String
  reason : EscalationReason
  fired : Bool
  deriving DecidableEq, Repr

section Rule

variable (tables : TextTables)

/-- What stands before the first dash. -/
def primaryLanguageSubtag (language : String) : String :=
  String.ofList ((tables.toLowerCase (tables.trim language)).toList.takeWhile (· ≠ '-'))

def isSupportedLanguage (language : String) (supported : List String) : Bool :=
  let subtag := primaryLanguageSubtag tables language
  subtag ≠ "" && supported.any fun entry => primaryLanguageSubtag tables entry = subtag

def escalationClauses : List EscalationClause := [
  -- decidable from the ticket record alone, before any model is called
  { name := "policy_flag_raised"
    reason := .POLICY
    statement := "the deterministic policy matcher raised at least one flag on this ticket"
    fires := fun features _ _ => 0 < features.policyFlags.length },
  { name := "retry_budget_exhausted"
    reason := .RETRY
    statement := "the provider retry budget is spent"
    fires := fun features _ thresholds => thresholds.maxRetries < features.retries },
  { name := "language_out_of_scope"
    reason := .LANG
    statement := "the ticket is not in a supported language, so no answer is attempted"
    fires := fun features _ thresholds =>
      !isSupportedLanguage tables features.language thresholds.supportedLanguages },
  { name := "sla_breached"
    reason := .SLA
    statement := "the SLA instant has passed"
    fires := fun features now _ => isBreached features now },
  -- decidable once triage has run
  { name := "confidence_below_threshold"
    reason := .CONF
    statement := "triage confidence is below the escalation threshold"
    fires := fun features _ thresholds =>
      (effectiveConfidence features thresholds).any (· < thresholds.confidence) },
  { name := "sentiment_at_or_below_threshold"
    reason := .SENT
    statement := "the customer sentiment is at or below the escalation threshold"
    fires := fun features _ thresholds => features.sentiment.any (· ≤ thresholds.sentiment) },
  { name := "premium_high_severity"
    reason := .TIER
    statement := "a premium account raised a high-severity ticket"
    fires := fun features _ thresholds =>
      isPremiumHighSeverity features.tier features.severity thresholds.premiumSeverity },
  -- decidable only once a draft has been retrieved and validated
  { name := "draft_not_grounded"
    reason := .GROUND
    statement := "the draft is not grounded in a retrieved source"
    fires := fun features _ _ => effectiveGrounded features = some false }]

def evaluateEscalation (features : EscalationFeatures) (now : ℚ)
    (thresholds : EscalationThresholds) : EscalationVerdict :=
  match (escalationClauses tables).find? fun clause => clause.fires features now thresholds with
  | some clause => ⟨true, some clause.reason, some clause.name⟩
  | none => ⟨false, none, none⟩

def evaluateEscalationClauses (features : EscalationFeatures) (now : ℚ)
    (thresholds : EscalationThresholds) : List ClauseOutcome :=
  (escalationClauses tables).map fun clause =>
    ⟨clause.name, clause.reason, clause.fires features now thresholds⟩

/-- The verdict has a reason and a clause exactly if it escalates, and the clause is one that
fires. -/
theorem evaluateEscalation_cases (features : EscalationFeatures) (now : ℚ)
    (thresholds : EscalationThresholds) :
    (∃ clause ∈ escalationClauses tables, clause.fires features now thresholds = true ∧
      evaluateEscalation tables features now thresholds =
        ⟨true, some clause.reason, some clause.name⟩) ∨
    ((∀ clause ∈ escalationClauses tables, clause.fires features now thresholds = false) ∧
      evaluateEscalation tables features now thresholds = ⟨false, none, none⟩) := by
  rw [evaluateEscalation]
  cases found : (escalationClauses tables).find? fun clause =>
      clause.fires features now thresholds with
  | some clause =>
    left
    have fires : clause.fires features now thresholds = true := by
      have chosen := List.find?_some found
      exact chosen
    exact ⟨clause, List.mem_of_find?_eq_some found, fires, rfl⟩
  | none =>
    right
    refine ⟨fun clause member => ?_, rfl⟩
    have missed := List.find?_eq_none.mp found clause member
    simpa using missed

variable {tables} {features : EscalationFeatures} {now : ℚ} {thresholds : EscalationThresholds}

theorem escalates_of_fires
    (fires : ∃ clause ∈ escalationClauses tables, clause.fires features now thresholds = true) :
    (evaluateEscalation tables features now thresholds).escalate = true := by
  obtain ⟨clause, member, fires⟩ := fires
  rcases evaluateEscalation_cases tables features now thresholds with ⟨_, _, _, verdict⟩ | ⟨silent, _⟩
  · rw [verdict]
  · rw [silent clause member] at fires
    cases fires

theorem escalates_of_spent (spent : thresholds.maxRetries < features.retries) :
    (evaluateEscalation tables features now thresholds).escalate = true := by
  apply escalates_of_fires
  simp [escalationClauses, spent]

/-- An emptied body has confidence zero whatever was reported of it. -/
theorem escalates_of_emptied (floor : 0 < thresholds.confidence)
    (emptied : features.redactedBodyLength = some 0) :
    (evaluateEscalation tables features now thresholds).escalate = true := by
  apply escalates_of_fires
  simp [escalationClauses, effectiveConfidence, emptied, floor]

end Rule

end LedgerDesk.Triage
