import LedgerDesk.Pipeline.Effects

/-!
# What the decisions of a cycle say

A decision lists every clause, evaluated once more on the vector the verdict was taken on. So the
reason and the clause of a verdict are those of the first clause of the list that fired. The
decisions about a draft that is grounded, and about a validation, give neither.
-/
namespace LedgerDesk.Pipeline

open Foundation Agents Ledger Drafting
open Gateway (GatewayResult)
open Tickets (TicketState)
open Triage

/-- The first clause of a list that fired. -/
def firstFired (clauses : List ClauseOutcome) : Option ClauseOutcome :=
  clauses.find? ClauseOutcome.fired

/-- The verdict is about the first clause of the list that fired. -/
theorem evaluateEscalation_eq_first (runtime : OrgRuntime) (features : EscalationFeatures)
    (now : ℚ) :
    evaluateEscalation runtime.tables features now runtime.thresholds =
      { escalate := (firstFired (runtime.clausesOf features now)).isSome
        reason := (firstFired (runtime.clausesOf features now)).map ClauseOutcome.reason
        clause := (firstFired (runtime.clausesOf features now)).map ClauseOutcome.clause } := by
  rw [evaluateEscalation, firstFired, OrgRuntime.clausesOf, evaluateEscalationClauses,
    List.find?_map]
  have same : (ClauseOutcome.fired ∘ fun clause : EscalationClause =>
      (⟨clause.name, clause.reason, clause.fires features now runtime.thresholds⟩ : ClauseOutcome)) =
      fun clause => clause.fires features now runtime.thresholds := rfl
  rw [same]
  cases (escalationClauses runtime.tables).find?
    fun clause => clause.fires features now runtime.thresholds with
  | none => rfl
  | some clause => rfl

/-- The decision gives the first clause of its list that fired, or nothing where none did. -/
structure NamesFirst (decision : Decision) : Prop where
  reason : decision.reason = (firstFired decision.clauses).map ClauseOutcome.reason
  clause : decision.clause = (firstFired decision.clauses).map ClauseOutcome.clause

/-- The list is the published one, in its order. -/
def Published (setting : Setting) (decision : Decision) : Prop :=
  decision.clauses.map ClauseOutcome.clause =
    (escalationClauses setting.tables).map EscalationClause.name

variable {setting : Setting} {facts : RuntimeFacts}

theorem fileDecision_published (action : DecisionAction) (ticketId stage : String)
    (reason : Option EscalationReason) (clause : Option String) (features : EscalationFeatures)
    (now : ℚ) (detail : Members) :
    Published setting (fileDecision setting (setting.runtime facts) action ticketId stage reason
      clause features now detail) := by
  simp only [Published, fileDecision, OrgRuntime.clausesOf, evaluateEscalationClauses, List.map_map]
  rfl

theorem fileDecision_names {features : EscalationFeatures} {now : ℚ} {escalate : Bool}
    {reason : Option EscalationReason} {clause : Option String}
    (verdict : evaluateEscalation (setting.runtime facts).tables features now
      (setting.runtime facts).thresholds = ⟨escalate, reason, clause⟩)
    (action : DecisionAction) (ticketId stage : String) (detail : Members) :
    NamesFirst (fileDecision setting (setting.runtime facts) action ticketId stage reason clause
      features now detail) := by
  rw [evaluateEscalation_eq_first] at verdict
  exact ⟨(congrArg EscalationVerdict.reason verdict).symm,
    (congrArg EscalationVerdict.clause verdict).symm⟩

/-! ### Settled for a reason -/

/-- What a triage has settled on is the verdict on the vector it will file. -/
def TriageSettled (setting : Setting) (facts : RuntimeFacts) (held : Standing) : Settlement → Prop
  | .atRecord reason clause =>
    (setting.runtime facts).verdictOf ((setting.runtime facts).unanswered held.ticket
      held.ticket.retries none) held.now = ⟨true, some reason, some clause⟩
  | .failure reason clause code =>
    (setting.runtime facts).verdictOf (failureInput (setting.runtime facts) held code) held.now =
      ⟨true, some reason, some clause⟩
  | .answer _ _ => True

def DraftSettled (setting : Setting) (facts : RuntimeFacts) (held : DraftStanding) :
    DraftSettlement → Prop
  | .escalation features reason clause _ _ _ =>
    evaluateEscalation (setting.runtime facts).tables features held.now
      (setting.runtime facts).thresholds = ⟨true, some reason, some clause⟩
  | .answer judged =>
    judged.verdict = evaluateEscalation (setting.runtime facts).tables judged.features held.now
        (setting.runtime facts).thresholds ∧
      (judged.grounding.grounded = false → judged.verdict.escalate = true)

def Work.Settled (setting : Setting) : Work → Prop
  | .triage facts held _ _ settlement => TriageSettled setting facts held settlement
  | .draft facts held settlement => DraftSettled setting facts held settlement
  | .event _ => True

/-- What a session has come to, it has come to for a reason. An emptied body is not counted as a
failure, so no failure that is counted is one. -/
def Session.Settled (setting : Setting) : Session → Prop
  | .triaging _ (.failing _ code) => code ≠ .gateway .E_EMPTY_AFTER_REDACTION
  | .triaging facts (.settling held settlement) => TriageSettled setting facts held settlement
  | .drafting facts (.settling held settlement) => DraftSettled setting facts held settlement
  | .writing work _ => work.Settled setting
  | _ => True

section Computed

variable {held : Standing}

theorem settled_atRecord (ticket : TicketRow) (now : ℚ) :
    (Session.triaging facts ((setting.runtime facts).atRecord ticket now)).Settled setting := by
  rw [TriageRuntime.atRecord]
  rcases verdictOf_cases (setting.runtime facts).toTriageRuntime
    ((setting.runtime facts).unanswered ticket ticket.retries none) now with
    ⟨reason, clause, verdict⟩ | verdict
  · simp only [verdict]
    split
    · exact verdict
    · trivial
  · simp only [verdict]
    trivial

theorem settled_start (ticket : TicketRow) (now : ℚ) (visible fresh : Bool) :
    (Session.triaging facts ((setting.runtime facts).start ticket now visible fresh)).Settled
      setting := by
  rw [TriageRuntime.start]
  split
  · trivial
  · split
    · trivial
    · split
      · trivial
      · exact settled_atRecord ticket now

/-- Whether the body was emptied is what the last code says. -/
theorem settled_exhausted {emptied : Bool} {code : FailureCode}
    (said : emptied = true ↔ code = .gateway .E_EMPTY_AFTER_REDACTION) :
    (Session.triaging facts ((setting.runtime facts).exhausted held emptied code)).Settled
      setting := by
  have input : (setting.runtime facts).unanswered held.ticket held.retries
      (if emptied then some 0 else none) = failureInput (setting.runtime facts) held code := by
    simp only [failureInput, said]
  rw [TriageRuntime.exhausted, input]
  rcases verdictOf_cases (setting.runtime facts).toTriageRuntime
    (failureInput (setting.runtime facts) held code) held.now with
    ⟨reason, clause, verdict⟩ | verdict
  · simp only [verdict]
    exact verdict
  · simp only [verdict]
    trivial

theorem settled_heard (reply : Reply) :
    (Session.triaging facts ((setting.runtime facts).heard held reply)).Settled setting := by
  cases reply with
  | parsed reading redactedLength => trivial
  | malformed code => exact nofun
  | foreign => trivial
  | refused code =>
    simp only [TriageRuntime.heard]
    split
    · trivial
    · split
      · next emptied => exact settled_exhausted (by simp [emptied])
      · next other =>
        split
        · trivial
        · exact fun same => other (FailureCode.gateway.inj same)

theorem settled_bumped {code : FailureCode} (retries : Int)
    (counted : code ≠ .gateway .E_EMPTY_AFTER_REDACTION) :
    (Session.triaging facts ((setting.runtime facts).bumped held code retries)).Settled setting := by
  rw [TriageRuntime.bumped]
  split
  · exact settled_exhausted (by simp [counted])
  · trivial

variable {draft : DraftStanding} {response_id : String} {found : Found}
  {lastCode : Option FailureCode}

theorem settled_escalateWithoutGrounding (resultCount : Nat) (gap : Option GapEvidence)
    (detail : Members) (outcome : EscalationReason → String → DraftOutcome) :
    (Session.drafting facts ((setting.runtime facts).escalateWithoutGrounding draft resultCount gap
      detail outcome)).Settled setting := by
  rw [OrgRuntime.escalateWithoutGrounding]
  split
  · trivial
  · split
    · trivial
    · rcases evaluateEscalation_cases (setting.runtime facts).tables
        (featuresFromTicket ((setting.runtime facts).draftInput draft none resultCount
          false)).features draft.now (setting.runtime facts).thresholds with
        ⟨clause, -, -, verdict⟩ | ⟨-, verdict⟩
      · simp only [verdict]
        exact verdict
      · simp only [verdict]
        trivial

theorem settled_searched (head : Option String) (search : String → RetrievalOutcome) :
    (Session.drafting facts ((setting.runtime facts).searched draft head search)).Settled
      setting := by
  unfold OrgRuntime.searched
  split
  · trivial
  · split
    · trivial
    · split
      · trivial
      · exact settled_escalateWithoutGrounding ..
      · exact settled_escalateWithoutGrounding ..

theorem settled_nextAttempt (attempt : Nat) (code : FailureCode) :
    (Session.drafting facts ((setting.runtime facts).nextAttempt draft response_id found attempt
      code)).Settled setting := by
  rw [OrgRuntime.nextAttempt]
  split
  · exact settled_escalateWithoutGrounding ..
  · trivial

theorem settled_heardDraft (attempt : Nat) (reply : GatewayReply) :
    (Session.drafting facts ((setting.runtime facts).heardDraft setting.parseJson draft response_id
      found attempt lastCode reply)).Settled setting := by
  cases reply with
  | foreign => trivial
  | refused code =>
    simp only [OrgRuntime.heardDraft]
    split
    · trivial
    · split
      · trivial
      · exact settled_nextAttempt ..
  | returned result =>
    simp only [OrgRuntime.heardDraft]
    split
    · trivial
    · split
      · exact settled_escalateWithoutGrounding ..
      · exact settled_nextAttempt ..

/-- A draft that is not grounded has fired a clause, or the cycle throws. -/
theorem settled_judge (produced : Produced) (validation : GatewayResult) (modelSaysGrounded : Bool)
    (unsupported : List String) :
    (Session.drafting facts ((setting.runtime facts).judge draft response_id found produced
      validation modelSaysGrounded unsupported lastCode)).Settled setting := by
  rw [OrgRuntime.judge]
  split
  · trivial
  · split
    · trivial
    · split
      · trivial
      · next notThrown =>
        refine ⟨rfl, fun ungrounded => ?_⟩
        rw [Bool.and_eq_true, not_and] at notThrown
        have silent := notThrown (by simpa using ungrounded)
        rw [Bool.not_eq_true', Bool.not_eq_false, OrgRuntime.groundClauseFired,
          List.any_eq_true] at silent
        obtain ⟨outcome, member, fired⟩ := silent
        rw [Bool.and_eq_true] at fired
        rw [evaluateEscalation_eq_first]
        exact List.find?_isSome.mpr ⟨outcome, member, fired.2⟩

theorem settled_heardValidation (produced : Produced) (reply : GatewayReply) :
    (Session.drafting facts ((setting.runtime facts).heardValidation setting.parseJson draft
      response_id found produced lastCode reply)).Settled setting := by
  cases reply with
  | foreign => trivial
  | refused code =>
    simp only [OrgRuntime.heardValidation]
    split
    · trivial
    · exact settled_escalateWithoutGrounding ..
  | returned result =>
    simp only [OrgRuntime.heardValidation]
    split
    · exact settled_judge ..
    · exact settled_judge ..

end Computed

variable {s t : State} {act : Act} {i : Nat}

theorem settled_advance {session : Session} (settled : (s.sessions i).Settled setting)
    (next : advance setting s act = some (i, session)) : session.Settled setting := by
  cases act
  all_goals simp only [advance] at next
  case startTriage j facts id now head =>
    split at next
    · cases next
      simp only [startTriageStep]
      split
      · trivial
      · exact settled_start ..
    · cases next
  case reply j reply =>
    split at next
    · cases next
      exact settled_heard reply
    · cases next
  case startDraft j facts id now =>
    split at next
    · cases next
      simp only [OrgRuntime.startDraft]
      split
      · trivial
      · split <;> trivial
    · cases next
  case search j head search =>
    split at next
    · cases next
      exact settled_searched head search
    · cases next
  case price j response_id refused =>
    split at next
    · cases next
      cases refused with
      | none => trivial
      | some code =>
        simp only [OrgRuntime.priced]
        split <;> trivial
    · cases next
  case replyDraft j reply =>
    split at next
    · cases next
      exact settled_heardDraft _ reply
    · cases next
  case replyValidation j reply =>
    split at next
    · cases next
      exact settled_heardValidation _ reply
    · cases next
  case settle j policy ledger =>
    obtain ⟨other, decided, pair⟩ := Option.map_eq_some_iff.mp next
    cases pair
    unfold settleStep at decided
    split at decided
    · next here =>
      cases decided
      rw [here] at settled
      exact settled
    · next here =>
      cases decided
      rw [here] at settled
      exact settled
    · cases decided
  case throw j =>
    split at next
    · split at next <;> cases next
      trivial
    · split at next <;> cases next
      trivial
    · cases next
  all_goals first
    | cases next
    | split at next <;> cases next
      trivial

theorem Moves.settled (moves : Moves setting s act t)
    (settled : ∀ i, (s.sessions i).Settled setting) (i : Nat) : (t.sessions i).Settled setting := by
  have entered : ∀ (db : Database Nat) {j : Nat} {session : Session}, session.Settled setting →
      ((State.enter { s with db } j session).sessions i).Settled setting := by
    intro db j session computed
    by_cases same : i = j
    · subst same
      simpa only [State.enter, Function.update_self] using computed
    · simpa only [State.enter, Function.update_of_ne same] using settled i
  cases moves with
  | @computed act j session next => exact entered s.db (settled_advance (settled j) next)
  | submitted fresh free => exact settled i
  | taken alone stands found outside free => exact settled i
  | stale failing => exact entered s.db trivial
  | @bumped j facts held code ticket failing stands free =>
    have counted := settled j
    rw [failing] at counted
    exact entered _ (settled_bumped _ counted)
  | @wrote j work phase act db phase' writing step =>
    have reasoned := settled j
    rw [writing] at reasoned
    have standing : (Session.writing work phase').Settled setting := reasoned
    exact entered db standing
  | crashed live => exact entered _ trivial

/-! ### The decisions that are filed -/

/-- What a decision of a cycle says. -/
structure Explained (setting : Setting) (k : String) (decision : Decision) : Prop where
  names : decision.ticketId = k
  published : Published setting decision
  first : decision.action = .TICKET_TRIAGED ∨ decision.action = .TICKET_ESCALATED →
    NamesFirst decision
  silent : decision.action = .TICKET_DRAFTED ∨ decision.action = .TICKET_VALIDATED →
    decision.reason = none ∧ decision.clause = none

theorem explained_of_names {action : DecisionAction} {ticketId stage : String}
    {reason : Option EscalationReason} {clause : Option String} {features : EscalationFeatures}
    {now : ℚ} {detail : Members}
    (names : NamesFirst (fileDecision setting (setting.runtime facts) action ticketId stage reason
      clause features now detail))
    (spoken : action = .TICKET_TRIAGED ∨ action = .TICKET_ESCALATED) :
    Explained setting ticketId (fileDecision setting (setting.runtime facts) action ticketId stage
      reason clause features now detail) where
  names := rfl
  published := fileDecision_published ..
  first _ := names
  silent quiet := by
    -- an action is of one kind or of the other
    change action = _ ∨ action = _ at quiet
    rcases spoken with rfl | rfl <;> rcases quiet with same | same <;> cases same

theorem explained_of_none {action : DecisionAction} {ticketId stage : String}
    {features : EscalationFeatures} {now : ℚ} {detail : Members}
    (quiet : action = .TICKET_DRAFTED ∨ action = .TICKET_VALIDATED) :
    Explained setting ticketId (fileDecision setting (setting.runtime facts) action ticketId stage
      none none features now detail) where
  names := rfl
  published := fileDecision_published ..
  first spoken := by
    change action = _ ∨ action = _ at spoken
    rcases spoken with rfl | rfl <;> rcases quiet with same | same <;> cases same
  silent _ := ⟨rfl, rfl⟩

variable {work : Work} {k : String}

theorem explained_triage {held : Standing} {policy : Option SlaPolicy} {ledger : String}
    {settlement : Settlement} (settled : TriageSettled setting facts held settlement) :
    Explained setting held.ticket.id
      (triageDecision setting (setting.runtime facts) held policy ledger settlement) := by
  cases settlement with
  | atRecord reason clause => exact explained_of_names (fileDecision_names settled ..) (.inr rfl)
  | failure reason clause code =>
    exact explained_of_names (fileDecision_names settled ..) (.inr rfl)
  | answer reading redactedLength =>
    apply explained_of_names (fileDecision_names rfl ..)
    split
    · exact .inr rfl
    · exact .inl rfl

theorem explained_draft {held : DraftStanding} {settlement : DraftSettlement}
    (settled : DraftSettled setting facts held settlement) :
    ∀ decision ∈ draftDecisions setting (setting.runtime facts) held settlement, ∀ gap,
      Explained setting held.ticket.id (decision gap) := by
  intro decision member gap
  cases settlement with
  | escalation features reason clause evidence detail outcome =>
    rw [draftDecisions, List.mem_singleton] at member
    subst member
    exact explained_of_names (fileDecision_names settled ..) (.inr rfl)
  | answer judged =>
    simp only [draftDecisions, List.mem_cons, List.not_mem_nil, or_false] at member
    rcases member with rfl | rfl
    · by_cases grounded : judged.grounding.grounded = true
      · simp only [if_pos grounded]
        exact explained_of_none (.inl rfl)
      · simp only [if_neg grounded]
        exact explained_of_names (fileDecision_names settled.1.symm ..) (.inr rfl)
    · exact explained_of_none (.inr rfl)

/-- Every decision of a cycle is about its ticket, and says why. -/
theorem decisions_explained (settled : work.Settled setting) (about : work.ticketId = some k) :
    ∀ decision ∈ work.decisions setting, ∀ gap, Explained setting k (decision gap) := by
  cases work with
  | triage facts held policy ledger settlement =>
    cases about
    intro decision member gap
    rw [Work.decisions, List.mem_singleton] at member
    subst member
    exact explained_triage settled
  | draft facts held settlement =>
    cases about
    exact explained_draft settled
  | event content => cases about

/-- A cycle that takes its ticket out of the hands of the components names why. -/
theorem escalation_of_ends (settled : work.Settled setting) (about : work.ticketId = some k)
    (ends : work.endsIn setting = .ESCALATED) :
    ∃ reason clause, work.escalation setting = some (reason, clause) := by
  cases work with
  | event content => cases about
  | triage facts held policy ledger settlement =>
    cases settlement with
    | atRecord reason clause => exact ⟨reason, clause, rfl⟩
    | failure reason clause code => exact ⟨reason, clause, rfl⟩
    | answer reading redactedLength =>
      rw [Work.endsIn] at ends
      split at ends
      · next named =>
        obtain ⟨⟨reason, clause⟩, found⟩ := Option.isSome_iff_exists.mp named
        exact ⟨reason, clause, found⟩
      · cases ends
  | draft facts held settlement =>
    cases settlement with
    | escalation features reason clause evidence detail outcome => exact ⟨reason, clause, rfl⟩
    | answer judged =>
      rw [Work.endsIn] at ends
      split at ends
      · cases ends
      · next ungrounded =>
        obtain ⟨verdict, escalates⟩ := settled
        have escalate := escalates (Bool.not_eq_true _ ▸ ungrounded)
        rcases evaluateEscalation_cases (setting.runtime facts).tables judged.features held.now
          (setting.runtime facts).thresholds with ⟨clause, -, -, fired⟩ | ⟨-, none_fired⟩
        · refine ⟨clause.reason, clause.name, ?_⟩
          simp [Work.escalation, ungrounded, verdict, fired]
        · rw [verdict, none_fired] at escalate
          cases escalate

/-- What is written on the ticket is what is filed. -/
theorem decision_of_escalation {reason : EscalationReason} {clause : String}
    (named : work.escalation setting = some (reason, clause)) :
    ∃ decision ∈ work.decisions setting, ∀ gap, (decision gap).action = .TICKET_ESCALATED ∧
      (decision gap).reason = some reason ∧ (decision gap).clause = some clause := by
  cases work with
  | event content => cases named
  | triage facts held policy ledger settlement =>
    refine ⟨_, List.mem_singleton.mpr rfl, fun gap => ?_⟩
    cases settlement with
    | atRecord reason' clause' =>
      cases named
      exact ⟨rfl, rfl, rfl⟩
    | failure reason' clause' code =>
      cases named
      exact ⟨rfl, rfl, rfl⟩
    | answer reading redactedLength =>
      simp only [Work.escalation, Work.answerVerdict] at named
      rcases verdictOf_cases (setting.runtime facts).toTriageRuntime (answerInput
        (setting.runtime facts) held policy reading redactedLength) held.now with
        ⟨reason', clause', verdict⟩ | verdict
      · rw [verdict] at named
        cases named
        simp [triageDecision, fileDecision, verdict]
      · rw [verdict] at named
        cases named
  | draft facts held settlement =>
    cases settlement with
    | escalation features reason' clause' evidence detail outcome =>
      cases named
      exact ⟨_, List.mem_singleton.mpr rfl, fun gap => ⟨rfl, rfl, rfl⟩⟩
    | answer judged =>
      simp only [Work.escalation] at named
      split at named
      · cases named
      · next ungrounded =>
        obtain ⟨reason', isReason, named⟩ := Option.bind_eq_some_iff.mp named
        obtain ⟨clause', isClause, pair⟩ := Option.map_eq_some_iff.mp named
        cases pair
        refine ⟨_, List.mem_cons_self, fun gap => ?_⟩
        simp [fileDecision, ungrounded, isReason, isClause]

end LedgerDesk.Pipeline
