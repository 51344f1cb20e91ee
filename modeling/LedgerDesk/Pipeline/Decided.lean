import LedgerDesk.Pipeline.Decisions
import LedgerDesk.Pipeline.Guard

/-!
# Decisions and the moves they are about

Whatever the interleaving, a ticket that a cycle has moved and the rows that say so are committed
by one transaction, on a chain that stays linear.
-/
namespace LedgerDesk.Pipeline

open Foundation Agents Ledger Drafting
open Tickets (TicketState Edge findTransition)
open Triage

/-! ### The rows of a unit -/

/-- No row is filed by these. -/
def Statement.unrecorded : Statement → Prop
  | .record _ => False
  | _ => True

theorem Recorded.none_of_unrecorded {done : List Statement} {events : List AuditEventContent}
    {gap : EmittedGap} (recorded : Recorded done events gap)
    (unrecorded : ∀ statement ∈ done, statement.unrecorded) : events = [] := by
  have earlier : ∀ {before : List Statement} {statement : Statement},
      (∀ other ∈ before ++ [statement], other.unrecorded) → ∀ other ∈ before, other.unrecorded :=
    fun unrecorded other member => unrecorded other (List.mem_append_left _ member)
  induction recorded with
  | nil => rfl
  | transition rest ih => exact ih (earlier unrecorded)
  | insertResponse rest ih => exact ih (earlier unrecorded)
  | emitGap emitted rest ih => exact ih (earlier unrecorded)
  | record rest ih =>
    exact (unrecorded _ (List.mem_append_right _ (List.mem_singleton.mpr rfl))).elim

/-- The rows at the end of a program all name the gap that was emitted before them. -/
theorem Recorded.of_records {first : List Statement} {records : List (EmittedGap → AuditEventContent)}
    (unrecorded : ∀ statement ∈ first, statement.unrecorded) :
    ∀ {events : List AuditEventContent} {gap : EmittedGap},
      Recorded (first ++ records.map .record) events gap → events = records.map (· gap) := by
  induction records using List.reverseRecOn with
  | nil =>
    intro events gap recorded
    rw [List.map_nil, List.append_nil] at recorded
    exact recorded.none_of_unrecorded unrecorded
  | append_singleton records last ih =>
    intro events gap recorded
    rw [List.map_append, List.map_singleton, ← List.append_assoc] at recorded
    generalize program : first ++ records.map Statement.record ++ [Statement.record last] = done
      at recorded
    cases recorded with
    | nil => simp at program
    | record rest =>
      obtain ⟨same, last'⟩ := List.append_inj' program rfl
      cases last'
      subst same
      rw [ih rest, List.map_append, List.map_singleton]
    -- the last statement is the last record
    | transition rest => cases (List.append_inj' program rfl).2
    | insertResponse rest => cases (List.append_inj' program rfl).2
    | emitGap emitted rest => cases (List.append_inj' program rfl).2

variable {setting : Setting} {work : Work} {k : String}

/-- A cycle files nothing but its decisions. -/
theorem statements_unrecorded (about : work.ticketId = some k) :
    ∀ statement ∈ work.statements setting, statement.unrecorded := by
  have transition : ∀ {id source target owner assign},
      (Statement.transition id source target owner assign).unrecorded := trivial
  cases work with
  | event content => cases about
  | triage facts held policy ledger settlement =>
    cases settlement with
    | atRecord reason clause => simp [Work.statements, triageTransitions, Statement.unrecorded]
    | failure reason clause code =>
      simp only [Work.statements, triageTransitions]
      split <;> simp [Statement.unrecorded]
    | answer reading redactedLength =>
      simp only [Work.statements, triageTransitions]
      split <;> simp [Statement.unrecorded]
  | draft facts held settlement =>
    cases settlement with
    | escalation features reason clause gap detail outcome =>
      cases gap <;> simp [Work.statements, draftStatements, Statement.unrecorded]
    | answer judged =>
      simp only [Work.statements, draftStatements]
      split <;> simp [Statement.unrecorded]

/-- The decisions of a cycle are filed with what it commits. -/
theorem commits_decisions {db db' : Database Nat} (about : work.ticketId = some k)
    (commits : CommitsProgram (work.unit setting) db db') :
    ∃ rows gap,
      (db'.audit work.org_id).committed = (db.audit work.org_id).committed ++ rows ∧
      rows.map (fun row => row.toAuditEventContent) =
        ((work.decisions setting).map (· gap)).map (Decision.event work.org_id) := by
  obtain ⟨events, rows, gap, recorded, grown, contents⟩ := commits.audit
  refine ⟨rows, gap, grown, contents.trans ?_⟩
  have program : (work.unit setting).program = work.statements setting ++
      ((work.decisions setting).map fun decision gap =>
        (decision gap).event work.org_id).map .record := by
    simp only [Work.unit, List.map_map]
    rfl
  rw [program] at recorded
  rw [recorded.of_records (statements_unrecorded about), List.map_map, List.map_map]
  rfl

/-! ### The moves of a cycle -/

/-- The transaction of a cycle about the ticket commits. -/
def CycleCommits (s : State) (act : Act) (k : String) : Prop :=
  ∃ i step work phase, act = .unit i step ∧ step.commits = true ∧
    s.sessions i = .writing work phase ∧ work.ticketId = some k

/-- The rows of the transaction are these decisions. -/
def Files (s t : State) (org_id : String) (decisions : List Decision) : Prop :=
  ∃ rows, (t.db.audit org_id).committed = (s.db.audit org_id).committed ++ rows ∧
    rows.map (fun row => row.toAuditEventContent) = decisions.map (Decision.event org_id)

variable {s t : State} {act : Act}

/-- No edge that no cycle takes leads there. -/
theorem not_reached_outside {source target : TicketState} {edge : Edge}
    (found : findTransition source target = some edge) (outside : TakenOutside edge) :
    target ∉ [TicketState.ESCALATED, .TRIAGED, .AWAITING_AGENT] := by
  revert edge
  cases source <;> cases target <;> simp +decide [TakenOutside]

theorem decisions_ne_nil (about : work.ticketId = some k) : work.decisions setting ≠ [] := by
  cases work with
  | triage facts held policy ledger settlement => exact List.cons_ne_nil _ _
  | draft facts held settlement => cases settlement <;> exact List.cons_ne_nil _ _
  | event content => cases about

/-- A cycle that moves a ticket files why, in the same transaction, with what it has written on the
ticket. -/
theorem MovedByCycle.decided {row : Ticket} {i : Nat} (moved : MovedByCycle setting s t act k row i work)
    (settled : (s.sessions i).Settled setting) :
    CycleCommits s act k ∧ ∃ decisions, decisions ≠ [] ∧ Files s t row.org_id decisions ∧
      (∀ decision ∈ decisions, Explained setting k decision) ∧
      (row.status = .ESCALATED → ∃ decision ∈ decisions, decision.action = .TICKET_ESCALATED ∧
        decision.reason.isSome = true ∧ row.escalation_reason = decision.reason ∧
        row.escalation_clause = decision.clause) := by
  obtain ⟨step, isStep, isCommit⟩ := moved.act
  obtain ⟨phase, writing⟩ := moved.writing
  obtain ⟨old, assign, -, takes, columns⟩ := moved.takes
  obtain ⟨rows, gap, grown, contents⟩ := commits_decisions moved.about moved.commits
  rw [writing] at settled
  have org_id : row.org_id = work.org_id := takes.keeps.org_id.trans takes.own
  refine ⟨⟨i, step, work, phase, isStep, isCommit, writing, moved.about⟩,
    (work.decisions setting).map (· gap), ?_, ?_, ?_, ?_⟩
  · simpa using decisions_ne_nil moved.about
  · rw [org_id]
    exact ⟨rows, grown, contents⟩
  · intro decision member
    obtain ⟨filed, among, rfl⟩ := List.mem_map.mp member
    exact decisions_explained settled moved.about filed among gap
  · intro escalated
    obtain ⟨reason, clause, named⟩ :=
      escalation_of_ends settled moved.about (takes.target.symm.trans escalated)
    obtain ⟨filed, among, isFiled⟩ := decision_of_escalation named
    obtain ⟨isEscalation, isReason, isClause⟩ := isFiled gap
    obtain ⟨reason', clause'⟩ := takes.columns reason clause (columns.trans named)
    refine ⟨filed gap, List.mem_map.mpr ⟨filed, among, rfl⟩, isEscalation, ?_, ?_, ?_⟩
    · rw [isReason, Option.isSome_some]
    · rw [reason', isReason]
    · rw [clause', isClause]

/-! ### Cycles that fail -/

/-- The cycle is over, and has not done what it set out to do. -/
def Session.failed : Session → Bool
  | .triaging _ (.threw _) | .triaging _ (.ended (.abandoned _)) => true
  | .drafting _ (.threw _) | .drafting _ (.ended (.abandoned _)) => true
  | .writing _ (.failed _) | .crashed => true
  | _ => false

/-- No ticket has moved, and no row or response has been committed. A counter may have. -/
structure Unmoved (s t : State) : Prop where
  tickets : ∀ k, (t.db.tickets k).committed.map (fun row => { row with retries := 0 }) =
    (s.db.tickets k).committed.map fun row => { row with retries := 0 }
  audit : ∀ o, (t.db.audit o).committed = (s.db.audit o).committed
  responses : t.db.responses = s.db.responses

theorem unmoved_of_quiet (quiet : Quiet s.db t.db) : Unmoved s t where
  tickets k := by rw [quiet.tickets k]
  audit := quiet.audit
  responses := quiet.responses

/-- Nothing is left to do for a unit that has committed. -/
theorem Moves.stays_committed {i : Nat} (moves : Moves setting s act t)
    (done : s.sessions i = .writing work .committed) : t.sessions i = .writing work .committed := by
  have elsewhere : ∀ (db : Database Nat) {j : Nat} {session : Session}, i ≠ j →
      (State.enter { s with db } j session).sessions i = .writing work .committed := by
    intro db j session other
    simpa only [State.enter, Function.update_of_ne other] using done
  cases moves with
  | @computed act j session next =>
    apply elsewhere s.db
    rintro rfl
    obtain ⟨reads, -⟩ := advance_cases next
    rw [done] at reads
    exact reads.elim
  | submitted fresh free => exact done
  | taken alone stands found outside free => exact done
  | stale failing =>
    apply elsewhere s.db
    rintro rfl
    rw [done] at failing
    cases failing
  | bumped failing stands free =>
    apply elsewhere _
    rintro rfl
    rw [done] at failing
    cases failing
  | @wrote j work' phase step db phase' writing taken =>
    apply elsewhere db
    rintro rfl
    rw [done] at writing
    cases writing
    cases step <;> cases taken
  | crashed live =>
    apply elsewhere _
    rintro rfl
    rw [done] at live
    cases live

theorem stays_committed_run {i : Nat} {ts : List (Transition State Act)}
    (run : Run (pipelineStep setting) s ts t) (done : s.sessions i = .writing work .committed) :
    t.sessions i = .writing work .committed := by
  induction run with
  | done => exact done
  | step taken _ ih => exact ih ((pipelineStep_moves taken).stays_committed done)

/-- A step of a session commits nothing, or ends it well, or its end is not heard of. -/
theorem Moves.unmoved {i : Nat} (moves : Moves setting s act t) (sound : StateSound setting s)
    (own : act.session = some i) :
    Unmoved s t ∨ act = .unit i .commitUnheard ∨ ∃ work, t.sessions i = .writing work .committed := by
  have nothing : ∀ {j : Nat} {session : Session}, Unmoved s (s.enter j session) :=
    ⟨fun _ => rfl, fun _ => rfl, rfl⟩
  cases moves with
  | computed next => exact .inl nothing
  | submitted fresh free => cases own
  | taken alone stands found outside free =>
    rw [alone] at own
    cases own
  | stale failing => exact .inl nothing
  | @bumped j facts held code ticket failing stands free =>
    refine .inl ⟨fun k => ?_, fun _ => rfl, rfl⟩
    by_cases same : k = held.ticket.id
    · subst same
      simp [State.enter, State.setTicket, stands]
    · simp [State.enter, State.setTicket, Function.update_of_ne same]
  | crashed live => exact .inl (unmoved_of_quiet (quiet_rollback s.db _))
  | @wrote j work phase step db phase' writing taken =>
    cases own
    have under := sound.sessions i
    rw [writing] at under
    obtain ⟨-, ⟨isCommit, -⟩ | ⟨-, quiet⟩⟩ := unitStep_move sound.chains under taken
    · right
      cases step with
      | commitUnheard => exact .inl rfl
      | commit =>
        right
        simp only [unitStep] at taken
        split at taken
        · cases taken
          exact ⟨work, Function.update_self ..⟩
        · cases taken
      | _ => cases isCommit
    · exact .inl (unmoved_of_quiet quiet)

/-! ### Every run -/

theorem settled_run {ts : List (Transition State Act)}
    (run : Run (pipelineStep setting) empty ts t) :
    (∀ i, (t.sessions i).Settled setting) ∧ ∀ tr ∈ ts,
      (∀ i, (tr.source.sessions i).Settled setting) ∧ ∀ i, (tr.target.sessions i).Settled setting :=
  run.invariant (fun _ _ _ step settled => (pipelineStep_moves step).settled settled)
    fun _ => trivial

/-- In every run the chains stay linear, and a ticket that comes to be escalated, triaged or waiting
has been moved by a cycle, whose decisions about the ticket its transaction has filed. A decision to
triage or to escalate gives the first clause of its list that fired, the others give none, and what
is on the ticket is in the decision to escalate. A cycle that fails leaves nothing, unless it was
the reply to its commit that was lost. -/
theorem decisions_chained {ts : List (Transition State Act)}
    (run : Run (pipelineStep setting) empty ts t) :
    (∀ org_id, Linear setting.sha256Hex org_id (t.db.audit org_id).committed) ∧
      (∀ tr ∈ ts, ∀ k row, (tr.target.db.tickets k).committed = some row →
        row.status ∈ [TicketState.ESCALATED, .TRIAGED, .AWAITING_AGENT] →
        (∀ old, (tr.source.db.tickets k).committed = some old → old.status ≠ row.status) →
        CycleCommits tr.source tr.act k ∧ ∃ decisions, decisions ≠ [] ∧
          Files tr.source tr.target row.org_id decisions ∧
          (∀ decision ∈ decisions, Explained setting k decision) ∧
          (row.status = .ESCALATED → ∃ decision ∈ decisions, decision.action = .TICKET_ESCALATED ∧
            decision.reason.isSome = true ∧ row.escalation_reason = decision.reason ∧
            row.escalation_clause = decision.clause)) ∧
      ∀ i, (t.sessions i).failed = true → ∀ tr ∈ ts, tr.act.session = some i →
        tr.act ≠ .unit i .commitUnheard → Unmoved tr.source tr.target := by
  obtain ⟨sound, throughout⟩ := sound_run run
  refine ⟨fun org_id => ?_, ?_, ?_⟩
  · exact Linear.of_prefix (sound.chains.linear org_id 0) (sound.chains.grown org_id 0)
  · intro tr member k row stands reached before
    have moves := pipelineStep_moves (run.steps tr member)
    rcases moves.moved (throughout tr member).1 stands before with
      fresh | ⟨source, edge, found, outside⟩ | ⟨i, work, moved⟩
    · rw [fresh] at reached
      exact absurd reached (by decide)
    · exact absurd reached (not_reached_outside found outside)
    · exact moved.decided (((settled_run run).2 tr member).1 i)
  · intro i failed tr member own heard
    have moves := pipelineStep_moves (run.steps tr member)
    rcases moves.unmoved (throughout tr member).1 own with unmoved | lost | ⟨work, done⟩
    · exact unmoved
    · exact absurd lost heard
    · -- what has committed has not failed at the end of the run
      obtain ⟨first, rest, rfl⟩ := List.append_of_mem member
      obtain ⟨-, -, after⟩ := run.split_cons
      rw [stays_committed_run after done] at failed
      cases failed

/-- A triaged ticket comes to wait for an agent, and no decision about it has been forgotten. -/
theorem decisions_chained_sample : ∃ s t row, pipelineStep sampleSetting s (.unit 1 .commit) = some t ∧
    (t.db.tickets "T").committed = some row ∧ row.status = .AWAITING_AGENT ∧
    Linear sampleDigest "org" (t.db.audit "org").committed ∧
    ∃ decisions, decisions ≠ [] ∧ Files s t row.org_id decisions ∧
      ∀ decision ∈ decisions, Explained sampleSetting "T" decision := by
  obtain ⟨s, t, performed, taken, triaged, waits, -⟩ := sample_performed
  have run := (run_of_perform _ _ _ _ performed).append (.single taken)
  obtain ⟨row, stands, status⟩ := Option.map_eq_some_iff.mp waits
  obtain ⟨linear, moved, -⟩ := decisions_chained run
  have last : (⟨s, .unit 1 .commit, t⟩ : Transition State Act) ∈
      transitions (pipelineStep sampleSetting) empty sampleActs.dropLast ++
        [⟨s, .unit 1 .commit, t⟩] := List.mem_append_right _ (List.mem_singleton.mpr rfl)
  obtain ⟨-, decisions, filled, files, explained, -⟩ :=
    moved _ last "T" row stands (by rw [status]; decide) (by
      intro old stands'
      rw [stands', Option.map_some, Option.some.injEq] at triaged
      rw [triaged, status]
      decide)
  exact ⟨s, t, row, taken, stands, status, linear "org", decisions, filled, files, explained⟩

/-- The draft was grounded, and the first response was overdue: the decisions list the clause that
fired, and give none. -/
theorem drafted_names_nothing : ∃ ts s t, Run (pipelineStep sampleSetting) empty ts t ∧
    (⟨s, .unit 1 .commit, t⟩ : Transition State Act) ∈ ts ∧
    ((s.db.tickets "T").committed.map fun row => row.status) = some .TRIAGED ∧
    ((t.db.tickets "T").committed.map fun row => row.status) = some .AWAITING_AGENT ∧
    ∃ org_id decisions, Files s t org_id decisions ∧
      ∃ decision ∈ decisions, decision.ticketId = "T" ∧ ¬ NamesFirst decision := by
  obtain ⟨s, t, performed, taken, triaged, waits, fired⟩ := sample_performed
  have before := run_of_perform _ _ _ _ performed
  have run := before.append (.single taken)
  refine ⟨_, s, t, run, List.mem_append_right _ (List.mem_singleton.mpr rfl), triaged, waits, ?_⟩
  obtain ⟨row, stands, status⟩ := Option.map_eq_some_iff.mp waits
  have sound := (sound_run before).1
  rcases (pipelineStep_moves taken).moved sound stands (by
    intro old stands'
    rw [stands', Option.map_some, Option.some.injEq] at triaged
    rw [triaged, status]
    decide) with fresh | ⟨source, edge, found, outside⟩ | ⟨i, work, moved⟩
  · rw [status] at fresh
    cases fresh
  · rw [status] at found
    exact absurd (by decide) (not_reached_outside found outside)
  · obtain ⟨step, isStep, -⟩ := moved.act
    obtain ⟨phase, writing⟩ := moved.writing
    cases isStep
    rw [writing] at fired
    unfold sampleFired at fired
    split at fired
    · next facts held judged phase' here =>
      cases here
      obtain ⟨rows, gap, grown, contents⟩ := commits_decisions moved.about moved.commits
      -- the validation names no reason, and neither does the draft
      refine ⟨_, _, ⟨rows, grown, contents⟩, _,
        List.mem_map.mpr ⟨_, List.mem_cons_of_mem _ List.mem_cons_self, rfl⟩,
        Option.some.inj moved.about, fun names => ?_⟩
      obtain ⟨outcome, member, isFired⟩ := List.any_eq_true.mp fired
      have named := Option.map_eq_none_iff.mp names.clause.symm
      exact List.find?_eq_none.mp named outcome member isFired
    · cases fired

end LedgerDesk.Pipeline
