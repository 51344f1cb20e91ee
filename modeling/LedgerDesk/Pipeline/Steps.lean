import LedgerDesk.Pipeline.Progress

/-!
# The steps of a unit of work

What each exchange with the database does to a unit under way, to the chains, and to the sessions
beside it: nothing is committed before the whole program is, and then all of it is.
-/
namespace LedgerDesk.Pipeline

open Foundation Ledger
open Drafting (Response)
open Triage

variable {ι : Type*} [DecidableEq ι]

def UnitAct.commits : UnitAct → Bool
  | .commit | .commitUnheard => true
  | _ => false

/-- What a step of the session comes to. -/
structure UnitMove (sha256Hex : String → String) (unit : WorkUnit) (db : Database ι) (i : ι)
    (db' : Database ι) (phase' : UnitPhase) : Prop where
  chains : ChainsSound sha256Hex db'
  phase : PhaseSound sha256Hex unit db' i phase'
  frame : ∀ j, j ≠ i → Frame db db' j

variable {sha256Hex : String → String} {unit : WorkUnit} {db db' : Database ι} {i j : ι}
  {done rest : List Statement} {gap : EmittedGap}

/-- The statements performed so far lead from what is committed to what the session sees. -/
theorem Performed.applied (performed : Performed unit db i done gap) (k : String) :
    done.foldlM (applyTo unit.org_id k) (db.tickets k).committed = .ok ((db.tickets k).sight i) := by
  rcases performed.tickets k with ⟨-, applied⟩ | ⟨free, spares⟩
  · exact applied
  · rw [Cell.sight_of_not_held free]
    exact foldlM_of_spares spares

/-! ### Writing -/

theorem frame_writeTicket {k : String} {ticket : Ticket} (opened : (db.tickets k).isOpen i = true)
    (other : j ≠ i) : Frame db (db.writeTicket i k ticket) j where
  tickets k' := by
    by_cases same : k' = k
    · subst same
      refine .inr ⟨Cell.not_heldBy_of_open opened other, ?_⟩
      simp only [Database.writeTicket, Function.update_self]
      exact Cell.not_heldBy_write other
    · have kept : (db.writeTicket i k ticket).tickets k' = db.tickets k' :=
        Function.update_of_ne same ..
      rw [kept]
      exact (Frame.refl db j).tickets k'
  audit := (Frame.refl db j).audit
  inserted := rfl
  drawn := le_rfl

theorem Performed.writeTicket {k : String} {ticket : Ticket} {source target : Tickets.TicketState}
    {owner : Tickets.GuardOwner} {assign : ComponentAssignment}
    (performed : Performed unit db i done gap)
    (applied : transitionOn unit.org_id source target owner assign ((db.tickets k).sight i) =
      .ok ticket) :
    Performed unit (db.writeTicket i k ticket) i
      (done ++ [.transition k source target owner assign]) gap where
  tickets k' := by
    by_cases same : k' = k
    · subst same
      refine .inl ⟨?_, ?_⟩
      · simp only [Database.writeTicket, Function.update_self]
        exact Cell.heldBy_write
      · simp only [Database.writeTicket, Function.update_self, Cell.write_committed,
          Cell.sight_write]
        apply foldlM_append_eq_ok (performed.applied k')
        rw [applyTo, if_pos rfl, applied]
        rfl
    · simp only [Database.writeTicket, Function.update_of_ne same]
      rcases performed.tickets k' with ⟨held, applied'⟩ | ⟨free, spares⟩
      · refine .inl ⟨held, foldlM_append_eq_ok applied' ?_⟩
        exact applyTo_of_spares (Ne.symm same)
      · refine .inr ⟨free, fun statement member => ?_⟩
        rcases List.mem_append.mp member with old | new
        · exact spares statement old
        · rw [List.mem_singleton] at new
          subst new
          exact Ne.symm same
  own := performed.own
  filed := by
    obtain ⟨events, rows, recorded, seen, contents⟩ := performed.filed
    exact ⟨events, rows, .transition recorded, seen, contents⟩
  inserted := by
    rw [responsesOf, List.filterMap_append]
    exact performed.inserted.trans (List.append_nil _).symm

/-- A statement that writes no ticket leaves them as the program has made them. -/
theorem Performed.beside {statement : Statement} (spares : ∀ k, statement.spares k)
    (performed : Performed unit db i done gap) (k : String) :
    (db.tickets k).HeldBy i ∧
        (done ++ [statement]).foldlM (applyTo unit.org_id k) (db.tickets k).committed =
          .ok ((db.tickets k).sight i) ∨
      ¬ (db.tickets k).HeldBy i ∧ ∀ other ∈ done ++ [statement], other.spares k := by
  rcases performed.tickets k with ⟨held, applied⟩ | ⟨free, spared⟩
  · exact .inl ⟨held, foldlM_append_eq_ok applied (applyTo_of_spares (spares k))⟩
  · refine .inr ⟨free, fun other member => ?_⟩
    rcases List.mem_append.mp member with old | new
    · exact spared other old
    · rw [List.mem_singleton] at new
      subst new
      exact spares k

theorem frame_insertResponse (response : Response) (other : j ≠ i) :
    Frame db (db.insertResponse i response) j where
  tickets := (Frame.refl db j).tickets
  audit := (Frame.refl db j).audit
  inserted := Function.update_of_ne other ..
  drawn := le_rfl

theorem Performed.insertResponse (response : Response)
    (performed : Performed unit db i done gap) :
    Performed unit (db.insertResponse i response) i (done ++ [.insertResponse response]) gap where
  tickets k := by
    change (db.tickets k).HeldBy i ∧ _ ∨ ¬ (db.tickets k).HeldBy i ∧ _
    have spares : ∀ k, (Statement.insertResponse response).spares k := fun _ => trivial
    exact performed.beside spares k
  own := performed.own
  filed := by
    obtain ⟨events, rows, recorded, seen, contents⟩ := performed.filed
    exact ⟨events, rows, .insertResponse recorded, seen, contents⟩
  inserted := by
    simp only [Database.insertResponse, Function.update_self, responsesOf, List.filterMap_append,
      performed.inserted]
    rfl

theorem Performed.emit (evidence : Drafting.GapEvidence) (emitted : EmittedGap)
    (performed : Performed unit db i done gap) :
    Performed unit db i (done ++ [.emitGap evidence]) emitted where
  tickets := performed.beside fun _ => trivial
  own := performed.own
  filed := by
    obtain ⟨events, rows, recorded, seen, contents⟩ := performed.filed
    exact ⟨events, rows, .emitGap emitted recorded, seen, contents⟩
  inserted := by
    rw [responsesOf, List.filterMap_append]
    exact performed.inserted.trans (List.append_nil _).symm

/-! ### The row of a decision -/

theorem frame_appendAudit {row : AuditRow} (opened : (db.audit row.org_id).isOpen i = true)
    (other : j ≠ i) : Frame db (db.appendAudit i row) j where
  tickets := (Frame.refl db j).tickets
  audit o := by
    by_cases same : o = row.org_id
    · subst same
      refine .inr ⟨Cell.not_heldBy_of_open opened other, ?_, ?_⟩
      · simp only [Database.appendAudit, Function.update_self]
        exact Cell.not_heldBy_write other
      · simp only [Database.appendAudit, Function.update_self, Cell.write_committed]
        exact List.prefix_rfl
    · have kept : (db.appendAudit i row).audit o = db.audit o := Function.update_of_ne same ..
      rw [kept]
      exact (Frame.refl db j).audit o
  inserted := rfl
  drawn := le_rfl

theorem Performed.appendAudit {row : AuditRow} {event : EmittedGap → AuditEventContent}
    (own : row.org_id = unit.org_id) (content : row.toAuditEventContent = event gap)
    (performed : Performed unit db i done gap) :
    Performed unit (db.appendAudit i row) i (done ++ [.record event]) gap where
  tickets k := by
    change (db.tickets k).HeldBy i ∧ _ ∨ ¬ (db.tickets k).HeldBy i ∧ _
    have spares : ∀ k, (Statement.record event).spares k := fun _ => trivial
    exact performed.beside spares k
  own o held := by
    by_cases same : o = row.org_id
    · exact same.trans own
    · simp only [Database.appendAudit, Function.update_of_ne same] at held
      exact performed.own o held
  filed := by
    obtain ⟨events, rows, recorded, seen, contents⟩ := performed.filed
    refine ⟨events ++ [event gap], rows ++ [row], .record recorded, ?_, ?_⟩
    · simp only [Database.appendAudit, own, Function.update_self, Cell.sight_write,
        Cell.write_committed, seen, List.append_assoc]
    · rw [List.map_append, contents, List.map_singleton, content]
  inserted := by
    rw [responsesOf, List.filterMap_append]
    exact performed.inserted.trans (List.append_nil _).symm

theorem ChainsSound.appendAudit {id bound : Nat} {content : AuditEventContent}
    {row : ChainedAuditEvent}
    (links : Links sha256Hex db i id content row) (below : id < bound)
    (bounded : bound = db.nextId)
    (linked : linksToHead ((db.audit row.org_id).sight i) row = true)
    (childless : isSecondChild ((db.audit row.org_id).sight i) row = false)
    (sound : ChainsSound sha256Hex db) :
    ChainsSound sha256Hex (db.appendAudit i { row with id }) := by
  have grows : Linear sha256Hex row.org_id ((db.audit row.org_id).sight i ++ [{ row with id }]) :=
    (sound.linear _ i).append rfl links.digest links.rooted linked childless
  -- only the session itself sees the new row
  have seen : ∀ o j, ((db.appendAudit i { row with id }).audit o).sight j =
        (db.audit o).sight i ++ [{ row with id }] ∧ o = row.org_id ∨
      ((db.appendAudit i { row with id }).audit o).sight j = (db.audit o).committed ∨
      ((db.appendAudit i { row with id }).audit o).sight j = (db.audit o).sight j := by
    intro o j
    by_cases same : o = row.org_id
    · subst same
      by_cases mine : j = i
      · subst mine
        refine .inl ⟨?_, rfl⟩
        simp only [Database.appendAudit, Function.update_self, Cell.sight_write]
      · refine .inr (.inl ?_)
        simp only [Database.appendAudit, Function.update_self]
        exact Cell.sight_write_of_ne mine
    · refine .inr (.inr ?_)
      simp only [Database.appendAudit, Function.update_of_ne same]
  have committed : ∀ o, ((db.appendAudit i { row with id }).audit o).committed =
      (db.audit o).committed := by
    intro o
    by_cases same : o = row.org_id
    · subst same
      simp only [Database.appendAudit, Function.update_self, Cell.write_committed]
    · simp only [Database.appendAudit, Function.update_of_ne same]
  constructor
  · intro o j
    rcases seen o j with ⟨same, rfl⟩ | same | same
    · rw [same]
      exact grows
    · rw [same]
      exact Linear.of_prefix (sound.linear o j) (sound.grown o j)
    · rw [same]
      exact sound.linear o j
  · intro o j
    rw [committed]
    rcases seen o j with ⟨same, rfl⟩ | same | same
    · rw [same]
      exact (sound.grown _ i).trans (List.prefix_append _ _)
    · rw [same]
    · rw [same]
      exact sound.grown o j
  · intro o j r member
    rcases seen o j with ⟨same, rfl⟩ | same | same
    · rw [same, List.mem_append, List.mem_singleton] at member
      rcases member with old | rfl
      · exact sound.drawn _ i r old
      · exact below.trans_eq bounded
    · rw [same] at member
      exact sound.drawn o j r ((sound.grown o j).subset member)
    · rw [same] at member
      exact sound.drawn o j r member

/-! ### One step -/

theorem move_rollback {phase' : UnitPhase} (chains : ChainsSound sha256Hex db)
    (sound : PhaseSound sha256Hex unit (db.rollback i) i phase') :
    UnitMove sha256Hex unit db i (db.rollback i) phase' where
  chains := chains.rollback i
  phase := sound
  frame _ other := frame_rollback db other

theorem move_failed (fault : UnitFault) (chains : ChainsSound sha256Hex db) :
    UnitMove sha256Hex unit db i (db.rollback i) (.failed fault) :=
  move_rollback chains (released_rollback db i)

theorem begin_sound (released : Released db i) (attempt : Nat) :
    PhaseSound sha256Hex unit db i (.ready attempt unit.program {}) :=
  ⟨[], rfl, released.performed⟩

theorem move_conflict (attempt : Nat) (chains : ChainsSound sha256Hex db) :
    UnitMove sha256Hex unit db i (conflict unit db i attempt).1 (conflict unit db i attempt).2 := by
  simp only [conflict]
  split
  · exact move_rollback chains (begin_sound (released_rollback db i) _)
  · exact move_failed .chainLost chains

theorem cut_concat {statement : Statement} (cut : unit.program = done ++ statement :: rest) :
    unit.program = (done ++ [statement]) ++ rest := by
  rw [cut, List.append_assoc, List.singleton_append]

theorem executeStep_move {phase phase' : UnitPhase} (chains : ChainsSound sha256Hex db)
    (sound : PhaseSound sha256Hex unit db i phase)
    (taken : executeStep unit db i phase = some (db', phase')) :
    UnitMove sha256Hex unit db i db' phase' ∧ Quiet db db' := by
  unfold executeStep at taken
  split at taken
  · next attempt id source target owner assign rest gap =>
    obtain ⟨done, cut, performed⟩ := sound
    split at taken
    · cases taken
      exact ⟨move_failed _ chains, quiet_rollback db i⟩
    · next ticket applied =>
      split at taken
      · cases taken
      · next opened =>
        simp only [Bool.not_eq_true, Bool.not_eq_false'] at opened
        split at taken
        · cases taken
          exact ⟨move_failed _ chains, quiet_rollback db i⟩
        · cases taken
          refine ⟨⟨⟨chains.linear, chains.grown, chains.drawn⟩,
            ⟨done ++ [_], cut_concat cut, performed.writeTicket applied⟩,
            fun j other => frame_writeTicket opened other⟩, ?_⟩
          refine ⟨fun k => ?_, fun _ => rfl, rfl⟩
          by_cases same : k = id
          · subst same
            simp only [Database.writeTicket, Function.update_self, Cell.write_committed]
          · simp only [Database.writeTicket, Function.update_of_ne same]
  · next attempt response rest gap =>
    cases taken
    obtain ⟨done, cut, performed⟩ := sound
    exact ⟨⟨⟨chains.linear, chains.grown, chains.drawn⟩,
      ⟨done ++ [_], cut_concat cut, performed.insertResponse response⟩,
      fun j other => frame_insertResponse response other⟩, ⟨fun _ => rfl, fun _ => rfl, rfl⟩⟩
  · cases taken

theorem readHeadStep_move {phase phase' : UnitPhase} (chains : ChainsSound sha256Hex db)
    (sound : PhaseSound sha256Hex unit db i phase)
    (taken : readHeadStep sha256Hex db i phase = some (db', phase')) :
    UnitMove sha256Hex unit db i db' phase' ∧ db' = db := by
  unfold readHeadStep at taken
  split at taken
  · next attempt event rest gap =>
    cases taken
    obtain ⟨done, cut, performed⟩ := sound
    refine ⟨⟨chains, ⟨done, event, cut, performed, ?_⟩, fun j _ => Frame.refl db j⟩, rfl⟩
    exact ⟨rfl, rfl, rooted_of_head _ _ (chains.drawn _ i)⟩
  · cases taken

theorem insertStep_move {phase phase' : UnitPhase} (chains : ChainsSound sha256Hex db)
    (sound : PhaseSound sha256Hex unit db i phase)
    (taken : insertStep unit db i phase = some (db', phase')) :
    UnitMove sha256Hex unit db i db' phase' ∧ Quiet db db' := by
  have refused : ∀ {attempt : Nat}, (conflict unit db i attempt) = (db', phase') →
      UnitMove sha256Hex unit db i db' phase' ∧ Quiet db db' := by
    intro attempt lost
    have move : UnitMove sha256Hex unit db i _ _ := move_conflict attempt chains (i := i)
    rw [lost] at move
    refine ⟨move, ?_⟩
    cases lost
    exact quiet_rollback db i
  unfold insertStep at taken
  split at taken
  · next attempt id row rest gap =>
    obtain ⟨done, event, cut, performed, links, below⟩ := sound
    simp only at taken
    split at taken
    · cases taken
    · next opened =>
      simp only [Bool.not_eq_true, Bool.not_eq_false'] at opened
      split at taken
      · exact refused (Option.some.inj taken)
      · next linked =>
        simp only [Bool.not_eq_true, Bool.not_eq_false'] at linked
        split at taken
        · cases taken
          exact ⟨move_failed _ chains, quiet_rollback db i⟩
        · next own =>
          rw [not_not] at own
          split at taken
          · cases taken
            exact ⟨move_failed _ chains, quiet_rollback db i⟩
          · split at taken
            · exact refused (Option.some.inj taken)
            · next childless =>
              rw [Bool.not_eq_true] at childless
              cases taken
              refine ⟨⟨chains.appendAudit links below rfl linked childless,
                ⟨done ++ [_], cut_concat cut, performed.appendAudit own links.content⟩,
                fun j other => frame_appendAudit opened other⟩, ?_⟩
              refine ⟨fun _ => rfl, fun o => ?_, rfl⟩
              by_cases same : o = row.org_id
              · subst same
                simp only [Database.appendAudit, Function.update_self, Cell.write_committed]
              · simp only [Database.appendAudit, Function.update_of_ne same]
  · cases taken

/-- A step keeps the chains and the session sound, and the others where they are. It commits the
whole program or nothing. -/
theorem unitStep_move {phase phase' : UnitPhase} {act : UnitAct}
    (chains : ChainsSound sha256Hex db) (sound : PhaseSound sha256Hex unit db i phase)
    (taken : unitStep sha256Hex unit db i phase act = some (db', phase')) :
    UnitMove sha256Hex unit db i db' phase' ∧
      (act.commits = true ∧ CommitsProgram unit db db' ∨ act.commits = false ∧ Quiet db db') := by
  have nothing : Quiet db db := ⟨fun _ => rfl, fun _ => rfl, rfl⟩
  have committing : ∀ {attempt : Nat} {gap : EmittedGap} {ended : UnitPhase},
      PhaseSound sha256Hex unit db i (.ready attempt [] gap) →
      PhaseSound sha256Hex unit (db.commit i) i ended →
      UnitMove sha256Hex unit db i (db.commit i) ended ∧ CommitsProgram unit db (db.commit i) := by
    intro attempt gap ended sound after
    obtain ⟨done, cut, performed⟩ := sound
    rw [List.append_nil] at cut
    subst cut
    exact ⟨⟨chains.commit i, after, fun j other => frame_commit chains other⟩, performed.commits⟩
  cases act with
  | execute =>
    obtain ⟨move, quiet⟩ := executeStep_move chains sound taken
    exact ⟨move, .inr ⟨rfl, quiet⟩⟩
  | emit emitted =>
    simp only [unitStep, emitStep] at taken
    split at taken
    · next attempt evidence rest gap =>
      cases taken
      obtain ⟨done, cut, performed⟩ := sound
      exact ⟨⟨chains, ⟨done ++ [_], cut_concat cut, performed.emit evidence emitted⟩,
        fun j _ => Frame.refl db j⟩, .inr ⟨rfl, nothing⟩⟩
    · cases taken
  | readHead =>
    obtain ⟨move, rfl⟩ := readHeadStep_move chains sound taken
    exact ⟨move, .inr ⟨rfl, nothing⟩⟩
  | drawNumber =>
    simp only [unitStep, drawNumberStep] at taken
    split at taken
    · next attempt row rest gap =>
      cases taken
      obtain ⟨done, event, cut, performed, links⟩ := sound
      have frame : ∀ j, Frame db { db with nextId := db.nextId + 1 } j := fun j =>
        ⟨(Frame.refl db j).tickets, (Frame.refl db j).audit, rfl, Nat.le_succ _⟩
      refine ⟨⟨⟨chains.linear, chains.grown, fun o j r member => ?_⟩,
        ⟨done, event, cut, performed.frame (frame i), links.frame (frame i) le_rfl,
          Nat.lt_succ_self _⟩, fun j _ => frame j⟩, .inr ⟨rfl, ⟨fun _ => rfl, fun _ => rfl, rfl⟩⟩⟩
      exact (chains.drawn o j r member).trans (Nat.lt_succ_self _)
    · cases taken
  | insert =>
    obtain ⟨move, quiet⟩ := insertStep_move chains sound taken
    exact ⟨move, .inr ⟨rfl, quiet⟩⟩
  | commit =>
    simp only [unitStep] at taken
    split at taken
    · cases taken
      have after : PhaseSound sha256Hex unit (db.commit i) i .committed := released_commit db i
      obtain ⟨move, commits⟩ := committing sound after
      exact ⟨move, .inl ⟨rfl, commits⟩⟩
    · cases taken
  | commitUnheard =>
    simp only [unitStep] at taken
    split at taken
    · cases taken
      have after : PhaseSound sha256Hex unit (db.commit i) i (.failed .database) := released_commit db i
      obtain ⟨move, commits⟩ := committing sound after
      exact ⟨move, .inl ⟨rfl, commits⟩⟩
    · cases taken
  | refuse =>
    simp only [unitStep] at taken
    split at taken
    · cases taken
      exact ⟨move_failed _ chains, .inr ⟨rfl, quiet_rollback db i⟩⟩
    · cases taken

end LedgerDesk.Pipeline
