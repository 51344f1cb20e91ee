import LedgerDesk.Pipeline.Invariant
import LedgerDesk.Triage.Attempts

/-!
# What a cycle does to a ticket

A transaction that commits has taken all of its edges, one after the other, on the row as it was
committed before. So what a cycle has decided on says where the ticket was and where it is.
-/
namespace LedgerDesk.Pipeline

open Foundation Agents Ledger Drafting
open Tickets (TicketState GuardOwner findTransition)
open Triage

/-- A row that is the same ticket. -/
structure Keeps (row row' : Ticket) : Prop where
  id : row'.id = row.id
  org_id : row'.org_id = row.org_id
  subject : row'.subject = row.subject
  body_raw : row'.body_raw = row.body_raw

theorem Keeps.refl (row : Ticket) : Keeps row row := ⟨rfl, rfl, rfl, rfl⟩

theorem Keeps.trans {a b c : Ticket} (first : Keeps a b) (second : Keeps b c) : Keeps a c where
  id := second.id.trans first.id
  org_id := second.org_id.trans first.org_id
  subject := second.subject.trans first.subject
  body_raw := second.body_raw.trans first.body_raw

/-- The edge has been taken, and the columns beside it written. -/
structure Takes (org_id : String) (source target : TicketState) (assign : ComponentAssignment)
    (row row' : Ticket) : Prop where
  keeps : Keeps row row'
  own : row.org_id = org_id
  source : row.status = source
  target : row'.status = target
  columns : ∀ reason clause, assign.escalation = some (reason, clause) →
    row'.escalation_reason = some reason ∧ row'.escalation_clause = some clause

theorem transitionOn_eq_ok {org_id : String} {source target : TicketState} {owner : GuardOwner}
    {assign : ComponentAssignment} {row : Option Ticket} {row' : Ticket}
    (taken : transitionOn org_id source target owner assign row = .ok row') :
    ∃ ticket, row = some ticket ∧ Takes org_id source target assign ticket row' := by
  unfold transitionOn at taken
  split at taken
  · next ticket seen =>
    rw [Option.filter_eq_some_iff] at seen
    obtain ⟨stands, own⟩ := seen
    refine ⟨ticket, stands, ?_⟩
    unfold applyComponentTransitionOn at taken
    split at taken
    · cases taken
    · split at taken
      · cases taken
      · split at taken
        · cases taken
        · split at taken
          · cases taken
          · next applied =>
            rw [not_not] at applied
            cases taken
            refine ⟨⟨rfl, rfl, rfl, rfl⟩, of_decide_eq_true own, applied, rfl, ?_⟩
            intro reason clause columns
            simp [ComponentAssignment.write, columns]
  · split at taken
    · cases taken
    · split at taken
      · cases taken
      · split at taken <;> cases taken

variable {org_id k : String} {row row' : Option Ticket} {rest : List Statement}

/-- The edges are taken in turn. -/
theorem foldlM_transition {id : String} {source target : TicketState} {owner : GuardOwner}
    {assign : ComponentAssignment}
    (folded : (Statement.transition id source target owner assign :: rest).foldlM
      (applyTo org_id k) row = .ok row') :
    id ≠ k ∧ rest.foldlM (applyTo org_id k) row = .ok row' ∨
      id = k ∧ ∃ ticket next, row = some ticket ∧ Takes org_id source target assign ticket next ∧
        rest.foldlM (applyTo org_id k) (some next) = .ok row' := by
  obtain ⟨middle, first, others⟩ := foldlM_cons_eq_ok.mp folded
  by_cases same : id = k
  · right
    rw [applyTo, if_pos same] at first
    cases taken : transitionOn org_id source target owner assign row with
    | error fault =>
      rw [taken] at first
      cases first
    | ok next =>
      rw [taken] at first
      cases first
      obtain ⟨ticket, stands, takes⟩ := transitionOn_eq_ok taken
      exact ⟨same, ticket, next, stands, takes, others⟩
  · left
    rw [applyTo, if_neg same] at first
    cases first
    exact ⟨same, others⟩

theorem foldlM_spares (spares : ∀ statement ∈ rest, statement.spares k)
    (folded : rest.foldlM (applyTo org_id k) row = .ok row') : row' = row := by
  rw [foldlM_of_spares spares] at folded
  exact (Except.ok.inj folded).symm

/-- One edge and then nothing more of the ticket. -/
theorem foldlM_one {id : String} {source target : TicketState} {owner : GuardOwner}
    {assign : ComponentAssignment} (spares : ∀ statement ∈ rest, statement.spares k)
    (folded : (Statement.transition id source target owner assign :: rest).foldlM
      (applyTo org_id k) row = .ok row') :
    id ≠ k ∧ row' = row ∨
      id = k ∧ ∃ ticket next, row = some ticket ∧ row' = some next ∧
        Takes org_id source target assign ticket next := by
  rcases foldlM_transition folded with ⟨other, others⟩ | ⟨same, ticket, next, stands, takes, others⟩
  · exact .inl ⟨other, foldlM_spares spares others⟩
  · exact .inr ⟨same, ticket, next, stands, foldlM_spares spares others, takes⟩

theorem Takes.trans {source middle target : TicketState} {assign assign' : ComponentAssignment}
    {a b c : Ticket} (first : Takes org_id source middle assign a b)
    (second : Takes org_id middle target assign' b c) : Takes org_id source target assign' a c where
  keeps := first.keeps.trans second.keeps
  own := first.own
  source := first.source
  target := second.target
  columns := second.columns

/-- Two edges and then nothing more of the ticket. -/
theorem foldlM_two {id : String} {source middle target : TicketState} {owner owner' : GuardOwner}
    {assign assign' : ComponentAssignment} (spares : ∀ statement ∈ rest, statement.spares k)
    (folded : (Statement.transition id source middle owner assign ::
      Statement.transition id middle target owner' assign' :: rest).foldlM
      (applyTo org_id k) row = .ok row') :
    id ≠ k ∧ row' = row ∨
      id = k ∧ ∃ ticket next, row = some ticket ∧ row' = some next ∧
        Takes org_id source target assign' ticket next := by
  rcases foldlM_transition folded with ⟨other, others⟩ | ⟨same, ticket, between, stands, takes, others⟩
  · rcases foldlM_one spares others with ⟨-, kept⟩ | ⟨same, -⟩
    · exact .inl ⟨other, kept⟩
    · exact absurd same other
  · rcases foldlM_one spares others with ⟨other, -⟩ | ⟨-, ticket', next, stands', ends, takes'⟩
    · exact absurd same other
    · cases stands'
      exact .inr ⟨same, ticket, next, stands, ends, takes.trans takes'⟩

/-! ### The work of a cycle -/

namespace Work

variable (setting : Setting)

/-- The ticket the cycle is about. -/
def ticketId : Work → Option String
  | .triage _ held _ _ _ => some held.ticket.id
  | .draft _ held _ => some held.ticket.id
  | .event _ => none

/-- Where the ticket has to be. -/
def startsIn : Work → TicketState
  | .triage _ held _ _ _ => held.ticket.status
  | .draft _ held (.escalation _ _ _ _ _ _) => held.ticket.status
  | .draft _ _ (.answer _) => .TRIAGED
  | .event _ => .NEW

/-- The verdict on an answer. -/
def answerVerdict (facts : RuntimeFacts) (held : Standing) (policy : Option SlaPolicy)
    (reading : TriageReading) (redactedLength : Nat) : EscalationVerdict :=
  let runtime := setting.runtime facts
  runtime.verdictOf (answerInput runtime held policy reading redactedLength) held.now

/-- Why the ticket escalates, if it does. -/
def escalation : Work → Option (EscalationReason × String)
  | .triage _ _ _ _ (.atRecord reason clause) => some (reason, clause)
  | .triage _ _ _ _ (.failure reason clause _) => some (reason, clause)
  | .triage facts held policy _ (.answer reading redactedLength) =>
    let verdict := answerVerdict setting facts held policy reading redactedLength
    verdict.reason.bind fun reason => verdict.clause.map (reason, ·)
  | .draft _ _ (.escalation _ reason clause _ _ _) => some (reason, clause)
  | .draft _ _ (.answer judged) =>
    if judged.grounding.grounded then none
    else judged.verdict.reason.bind fun reason => judged.verdict.clause.map (reason, ·)
  | .event _ => none

/-- Where the ticket is taken. -/
def endsIn (work : Work) : TicketState :=
  match work with
  | .triage _ _ _ _ (.answer _ _) =>
    if (work.escalation setting).isSome then .ESCALATED else .TRIAGED
  | .draft _ _ (.answer judged) =>
    if judged.grounding.grounded then .AWAITING_AGENT else .ESCALATED
  | _ => .ESCALATED

end Work

variable {setting : Setting} {work : Work}

theorem records_spare (setting : Setting) (work : Work) (k : String) :
    ∀ statement ∈ (work.decisions setting).map fun decision =>
      Statement.record fun gap => (decision gap).event work.org_id, statement.spares k := by
  intro statement member
  obtain ⟨decision, -, rfl⟩ := List.mem_map.mp member
  trivial

theorem append_spares {more : List Statement} (spares : ∀ statement ∈ rest, statement.spares k)
    (spares' : ∀ statement ∈ more, statement.spares k) :
    ∀ statement ∈ rest ++ more, statement.spares k := by
  intro statement member
  rcases List.mem_append.mp member with first | second
  · exact spares statement first
  · exact spares' statement second

/-- What a commit of the work leaves of one ticket. -/
inductive Affects (setting : Setting) (work : Work) (k : String) :
    Option Ticket → Option Ticket → Prop
  | elsewhere {seen} (other : work.ticketId ≠ some k) : Affects setting work k seen seen
  | moved {ticket next assign} (about : work.ticketId = some k)
      (takes : Takes work.org_id work.startsIn (work.endsIn setting) assign ticket next)
      (columns : assign.escalation = work.escalation setting) :
      Affects setting work k (some ticket) (some next)

/-- What spares the ticket may stand before its edges. -/
theorem foldlM_after {before : List Statement}
    (spares : ∀ statement ∈ before, statement.spares k)
    (folded : (before ++ rest).foldlM (applyTo org_id k) row = .ok row') :
    rest.foldlM (applyTo org_id k) row = .ok row' := by
  rw [List.foldlM_append, foldlM_of_spares spares] at folded
  exact folded

/-- The work is one edge. -/
theorem affects_of_one {id : String} {source target : TicketState} {owner : GuardOwner}
    {assign : ComponentAssignment}
    (program : work.statements setting = .transition id source target owner assign :: rest)
    (spares : ∀ statement ∈ rest, statement.spares k) (about : work.ticketId = some id)
    (starts : work.startsIn = source) (ends : work.endsIn setting = target)
    (columns : assign.escalation = work.escalation setting)
    (folded : (work.unit setting).program.foldlM (applyTo work.org_id k) row = .ok row') :
    Affects setting work k row row' := by
  simp only [Work.unit, program, List.cons_append] at folded
  have quiet := append_spares spares (records_spare setting work k)
  rcases foldlM_one quiet folded with ⟨other, rfl⟩ | ⟨rfl, ticket, next, rfl, rfl, takes⟩
  · apply Affects.elsewhere
    rw [about]
    exact fun same => other (Option.some.inj same)
  · subst starts ends
    exact .moved about takes columns

/-- The work is two edges. What is before them is no edge of the ticket. -/
theorem affects_of_two (before : List Statement) {id : String} {source middle target : TicketState}
    {owner owner' : GuardOwner} {assign assign' : ComponentAssignment}
    (program : work.statements setting = before ++ .transition id source middle owner assign ::
      .transition id middle target owner' assign' :: rest)
    (calm : ∀ statement ∈ before, statement.spares k)
    (spares : ∀ statement ∈ rest, statement.spares k) (about : work.ticketId = some id)
    (starts : work.startsIn = source) (ends : work.endsIn setting = target)
    (columns : assign'.escalation = work.escalation setting)
    (folded : (work.unit setting).program.foldlM (applyTo work.org_id k) row = .ok row') :
    Affects setting work k row row' := by
  simp only [Work.unit, program, List.append_assoc, List.cons_append] at folded
  have quiet := append_spares spares (records_spare setting work k)
  rcases foldlM_two quiet (foldlM_after calm folded) with
    ⟨other, rfl⟩ | ⟨rfl, ticket, next, rfl, rfl, takes⟩
  · apply Affects.elsewhere
    rw [about]
    exact fun same => other (Option.some.inj same)
  · subst starts ends
    exact .moved about takes columns

theorem spares_nil : ∀ statement ∈ ([] : List Statement), statement.spares k :=
  fun _ member => absurd member List.not_mem_nil

theorem affects_triage {facts : RuntimeFacts} {held : Standing} {policy : Option SlaPolicy}
    {ledger : String} {settlement : Settlement}
    (own : work = .triage facts held policy ledger settlement)
    (folded : (work.unit setting).program.foldlM (applyTo work.org_id k) row = .ok row') :
    Affects setting work k row row' := by
  subst own
  cases settlement with
  | atRecord reason clause => exact affects_of_one rfl spares_nil rfl rfl rfl rfl folded
  | failure reason clause code =>
    by_cases reopened : held.ticket.status = .REOPENED
    · have program : Work.statements setting (.triage facts held policy ledger
            (.failure reason clause code)) =
          [.transition held.ticket.id .REOPENED .ESCALATED .escalationRule
            { escalation := some (reason, clause) }] := by
        simp only [Work.statements, triageTransitions, if_pos reopened]
      exact affects_of_one program spares_nil rfl reopened rfl rfl folded
    · have program : Work.statements setting (.triage facts held policy ledger
            (.failure reason clause code)) =
          [] ++ [.transition held.ticket.id held.ticket.status .TRIAGE_FAILED .triageAgent {},
            .transition held.ticket.id .TRIAGE_FAILED .ESCALATED .escalationRule
              { escalation := some (reason, clause) }] := by
        simp only [Work.statements, triageTransitions, if_neg reopened, List.nil_append]
      exact affects_of_two _ program spares_nil spares_nil rfl rfl rfl rfl folded
  | answer reading redactedLength =>
    -- the verdict names both a reason and a clause, or neither
    rcases verdictOf_cases (setting.runtime facts).toTriageRuntime (answerInput
      (setting.runtime facts) held policy reading redactedLength) held.now with
      ⟨reason, clause, verdict⟩ | verdict
    · refine affects_of_two [] (by
        simp only [Work.statements, triageTransitions, verdict, List.nil_append]; rfl)
        spares_nil spares_nil rfl rfl ?_ ?_ folded
      · simp [Work.endsIn, Work.escalation, Work.answerVerdict, verdict]
      · simp [Work.escalation, Work.answerVerdict, verdict]
    · refine affects_of_one (by simp only [Work.statements, triageTransitions, verdict]; rfl)
        spares_nil rfl rfl ?_ ?_ folded
      · simp [Work.endsIn, Work.escalation, Work.answerVerdict, verdict]
      · simp [Work.escalation, Work.answerVerdict, verdict]

theorem affects_draft {facts : RuntimeFacts} {held : DraftStanding} {settlement : DraftSettlement}
    (own : work = .draft facts held settlement)
    (folded : (work.unit setting).program.foldlM (applyTo work.org_id k) row = .ok row') :
    Affects setting work k row row' := by
  subst own
  cases settlement with
  | escalation features reason clause gap detail outcome =>
    have spares : ∀ statement ∈ (gap.map Statement.emitGap).toList, statement.spares k := by
      intro statement member
      simp only [Option.mem_toList, Option.map_eq_some_iff] at member
      obtain ⟨evidence, -, rfl⟩ := member
      trivial
    exact affects_of_one rfl spares rfl rfl rfl rfl folded
  | answer judged =>
    have calm : ∀ statement ∈ [Statement.insertResponse (Judged.response held.ticket.id judged)],
        statement.spares k := by
      intro statement member
      rw [List.mem_singleton] at member
      subst member
      trivial
    by_cases grounded : judged.grounding.grounded = true
    · refine affects_of_two _ (by
        simp only [Work.statements, draftStatements, grounded, if_true]; rfl) calm spares_nil rfl
        rfl ?_ ?_ folded
      · simp [Work.endsIn, grounded]
      · simp [Work.escalation, grounded]
    · have spares : ∀ statement ∈ [Statement.emitGap ⟨judged.found.terms, judged.found.snapshot,
          false, Judged.divergent judged⟩], statement.spares k := by
        intro statement member
        rw [List.mem_singleton] at member
        subst member
        trivial
      refine affects_of_two _ (by
        simp only [Work.statements, draftStatements, if_neg grounded]; rfl) calm spares rfl
        rfl ?_ ?_ folded
      · simp [Work.endsIn, grounded]
      · simp [Work.escalation, grounded]

/-- What commits has taken its ticket from where it started to where it ends, and no other
anywhere. -/
theorem work_effect (folded : (work.unit setting).program.foldlM (applyTo work.org_id k) row =
      .ok row') : Affects setting work k row row' := by
  cases work with
  | triage facts held policy ledger settlement => exact affects_triage rfl folded
  | draft facts held settlement => exact affects_draft rfl folded
  | event content =>
    have spares : ∀ statement ∈ ((Work.event content).unit setting).program,
        statement.spares k := by
      intro statement member
      simp only [Work.unit, Work.statements, Work.decisions, List.map_nil, List.append_nil,
        List.mem_singleton] at member
      subst member
      trivial
    rw [foldlM_spares spares folded]
    exact .elsewhere (by simp [Work.ticketId])

/-! ### How a ticket moves -/

/-- A transaction of a cycle of the session has taken the ticket where it is. -/
structure MovedByCycle (setting : Setting) (s t : State) (act : Act) (k : String) (row : Ticket)
    (i : Nat) (work : Work) : Prop where
  act : ∃ step, act = .unit i step ∧ step.commits = true
  writing : ∃ phase, s.sessions i = .writing work phase
  about : work.ticketId = some k
  commits : CommitsProgram (work.unit setting) s.db t.db
  takes : ∃ old assign, (s.db.tickets k).committed = some old ∧
    Takes work.org_id work.startsIn (work.endsIn setting) assign old row ∧
    assign.escalation = work.escalation setting

/-- A ticket whose state is another than before has been submitted, or has taken an edge that no
cycle takes, or has been moved by a cycle. -/
theorem Moves.moved {s t : State} {act : Act} (moves : Moves setting s act t)
    (sound : StateSound setting s) {row : Ticket} (stands : (t.db.tickets k).committed = some row)
    (before : ∀ old, (s.db.tickets k).committed = some old → old.status ≠ row.status) :
    row.status = .NEW ∨
      (∃ source edge, findTransition source row.status = some edge ∧ TakenOutside edge) ∨
      ∃ i work, MovedByCycle setting s t act k row i work := by
  -- a row that is what it was has not been moved
  have kept : (t.db.tickets k).committed ≠ (s.db.tickets k).committed := fun same =>
    before row (same ▸ stands) rfl
  have elsewhere : ∀ {id : String} {ticket : Ticket},
      ((s.setTicket id ticket).db.tickets k).committed = some row →
      ((s.setTicket id ticket).db.tickets k).committed ≠ (s.db.tickets k).committed →
      k = id ∧ row = ticket := by
    intro id ticket stands changed
    by_cases same : k = id
    · subst same
      simp only [State.setTicket, Function.update_self, Option.some.injEq] at stands
      exact ⟨rfl, stands.symm⟩
    · simp only [State.setTicket, Function.update_of_ne same, ne_eq, not_true_eq_false] at changed
  cases moves with
  | computed next => exact absurd rfl kept
  | stale failing => exact absurd rfl kept
  | submitted fresh free =>
    obtain ⟨-, rfl⟩ := elsewhere stands kept
    exact .inl rfl
  | taken alone stands' found outside free =>
    obtain ⟨-, rfl⟩ := elsewhere stands kept
    exact .inr (.inl ⟨_, _, found, outside⟩)
  | bumped failing stands' free =>
    obtain ⟨rfl, rfl⟩ := elsewhere stands kept
    have other := before _ stands'
    exact absurd rfl other
  | crashed live => exact absurd ((quiet_rollback s.db _).tickets k) kept
  | @wrote i work phase step db phase' writing taken =>
    have under := sound.sessions i
    rw [writing] at under
    obtain ⟨-, ⟨isCommit, commits⟩ | ⟨-, quiet⟩⟩ := unitStep_move sound.chains under taken
    · have affects := work_effect (commits.tickets k)
      generalize found : (s.db.tickets k).committed = row₀ at affects
      change (db.tickets k).committed = some row at stands
      rw [stands] at affects
      cases affects with
      | elsewhere other => exact absurd (stands.trans found.symm) kept
      | @moved old next assign about takes columns =>
        refine .inr (.inr ⟨i, work, ⟨step, rfl, isCommit⟩, ⟨phase, writing⟩, about, commits, ?_⟩)
        exact ⟨old, assign, found, takes, columns⟩
    · exact absurd (quiet.tickets k) kept

end LedgerDesk.Pipeline
