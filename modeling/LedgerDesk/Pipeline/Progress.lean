import LedgerDesk.Pipeline.Chain

/-!
# What a unit of work commits

A unit that is under way has performed a part of its program, on the committed rows of everything
it holds: nobody else changes those meanwhile. What it commits is the whole program, and what it
does not commit leaves nothing.
-/
namespace LedgerDesk.Pipeline

open Foundation Ledger
open Drafting (Response)
open Triage

/-! ### What a program does -/

/-- The statements make these records. What one of them names depends on the gap before it. -/
inductive Recorded : List Statement → List AuditEventContent → EmittedGap → Prop
  | nil : Recorded [] [] {}
  | transition {done events gap id source target owner assign} (rest : Recorded done events gap) :
      Recorded (done ++ [.transition id source target owner assign]) events gap
  | insertResponse {done events gap response} (rest : Recorded done events gap) :
      Recorded (done ++ [.insertResponse response]) events gap
  | emitGap {done events gap evidence} (emitted : EmittedGap) (rest : Recorded done events gap) :
      Recorded (done ++ [.emitGap evidence]) events emitted
  | record {done events gap event} (rest : Recorded done events gap) :
      Recorded (done ++ [.record event]) (events ++ [event gap]) gap

/-- What a statement does to one ticket. -/
def applyTo (org_id k : String) (row : Option Ticket) :
    Statement → Except TriageFault (Option Ticket)
  | .transition id source target owner assign =>
    if id = k then (transitionOn org_id source target owner assign row).map some else .ok row
  | _ => .ok row

/-- The statement is about another ticket, or about none. -/
def Statement.spares (k : String) : Statement → Prop
  | .transition id _ _ _ _ => id ≠ k
  | _ => True

def responsesOf (program : List Statement) : List Response :=
  program.filterMap fun
    | .insertResponse response => some response
    | _ => none

theorem foldlM_append_eq_ok {ε α β : Type} {f : β → α → Except ε β} {as : List α} {a : α}
    {b c d : β} (first : as.foldlM f b = .ok c) (last : f c a = .ok d) :
    (as ++ [a]).foldlM f b = .ok d := by
  rw [List.foldlM_append, except_bind_eq_ok]
  refine ⟨c, first, ?_⟩
  rw [List.foldlM_cons, except_bind_eq_ok]
  exact ⟨d, last, rfl⟩

theorem applyTo_of_spares {org_id k : String} {row : Option Ticket} {statement : Statement}
    (spares : statement.spares k) : applyTo org_id k row statement = .ok row := by
  cases statement with
  | transition id source target owner assign => rw [applyTo, if_neg spares]
  | _ => rfl

theorem foldlM_of_spares {org_id k : String} {row : Option Ticket} {program : List Statement}
    (spares : ∀ statement ∈ program, statement.spares k) :
    program.foldlM (applyTo org_id k) row = .ok row := by
  induction program with
  | nil => rfl
  | cons statement program ih =>
    rw [foldlM_cons_eq_ok]
    exact ⟨row, applyTo_of_spares (spares statement List.mem_cons_self),
      ih fun other member => spares other (List.mem_cons_of_mem _ member)⟩

/-! ### How far a unit is -/

variable {ι : Type*} [DecidableEq ι]

/-- The session has written nothing that is not committed. -/
structure Released (db : Database ι) (i : ι) : Prop where
  tickets : ∀ k, ¬ (db.tickets k).HeldBy i
  audit : ∀ o, ¬ (db.audit o).HeldBy i
  inserted : db.inserted i = []

/-- The session has performed these statements. -/
structure Performed (unit : WorkUnit) (db : Database ι) (i : ι) (done : List Statement)
    (gap : EmittedGap) : Prop where
  tickets : ∀ k, (db.tickets k).HeldBy i ∧
        done.foldlM (applyTo unit.org_id k) (db.tickets k).committed =
          .ok ((db.tickets k).sight i) ∨
      ¬ (db.tickets k).HeldBy i ∧ ∀ statement ∈ done, statement.spares k
  own : ∀ o, (db.audit o).HeldBy i → o = unit.org_id
  filed : ∃ events rows, Recorded done events gap ∧
    (db.audit unit.org_id).sight i = (db.audit unit.org_id).committed ++ rows ∧
    rows.map (fun row => row.toAuditEventContent) = events
  inserted : db.inserted i = responsesOf done

/-- The row is the event, linked to a head that the session has seen. -/
structure Links (sha256Hex : String → String) (db : Database ι) (i : ι) (bound : Nat)
    (content : AuditEventContent) (row : ChainedAuditEvent) : Prop where
  content : row.toAuditEventContent = content
  digest : row.row_hash = auditRowHash sha256Hex row.prev_hash row.toAuditEventContent
  rooted : Rooted ((db.audit row.org_id).sight i) bound row

section Phases

variable (sha256Hex : String → String) (unit : WorkUnit)

def PhaseSound (db : Database ι) (i : ι) : UnitPhase → Prop
  | .ready _ rest gap => ∃ done, unit.program = done ++ rest ∧ Performed unit db i done gap
  | .built _ row rest gap => ∃ done event, unit.program = done ++ .record event :: rest ∧
      Performed unit db i done gap ∧ Links sha256Hex db i db.nextId (event gap) row
  | .numbered _ id row rest gap => ∃ done event, unit.program = done ++ .record event :: rest ∧
      Performed unit db i done gap ∧ Links sha256Hex db i id (event gap) row ∧ id < db.nextId
  | .committed | .failed _ => Released db i

end Phases

/-- The chains are linear, in the eyes of every session, and their numbers have been drawn. -/
structure ChainsSound (sha256Hex : String → String) (db : Database ι) : Prop where
  linear : ∀ o i, Linear sha256Hex o ((db.audit o).sight i)
  grown : ∀ o i, (db.audit o).committed <+: (db.audit o).sight i
  drawn : ∀ o i, ∀ r ∈ (db.audit o).sight i, r.id < db.nextId

/-- What the step of another session leaves a session. -/
structure Frame (db db' : Database ι) (i : ι) : Prop where
  tickets : ∀ k, (db.tickets k).HeldBy i ∧ db'.tickets k = db.tickets k ∨
    ¬ (db.tickets k).HeldBy i ∧ ¬ (db'.tickets k).HeldBy i
  audit : ∀ o, (db.audit o).HeldBy i ∧ db'.audit o = db.audit o ∨
    ¬ (db.audit o).HeldBy i ∧ ¬ (db'.audit o).HeldBy i ∧
      (db.audit o).committed <+: (db'.audit o).committed
  inserted : db'.inserted i = db.inserted i
  drawn : db.nextId ≤ db'.nextId

/-- The session commits its program, on what was committed before. -/
structure CommitsProgram (unit : WorkUnit) (db db' : Database ι) : Prop where
  tickets : ∀ k, unit.program.foldlM (applyTo unit.org_id k) (db.tickets k).committed =
    .ok (db'.tickets k).committed
  audit : ∃ events rows gap, Recorded unit.program events gap ∧
    (db'.audit unit.org_id).committed = (db.audit unit.org_id).committed ++ rows ∧
    rows.map (fun row => row.toAuditEventContent) = events
  others : ∀ o, o ≠ unit.org_id → (db'.audit o).committed = (db.audit o).committed
  responses : db'.responses = db.responses ++ responsesOf unit.program

/-- Nothing is committed. -/
structure Quiet (db db' : Database ι) : Prop where
  tickets : ∀ k, (db'.tickets k).committed = (db.tickets k).committed
  audit : ∀ o, (db'.audit o).committed = (db.audit o).committed
  responses : db'.responses = db.responses

variable {sha256Hex : String → String} {unit : WorkUnit} {db db' : Database ι} {i j : ι}

/-! ### Sessions beside each other -/

omit [DecidableEq ι] in
theorem Frame.refl (db : Database ι) (i : ι) : Frame db db i where
  tickets k := by
    by_cases held : (db.tickets k).HeldBy i
    · exact .inl ⟨held, rfl⟩
    · exact .inr ⟨held, held⟩
  audit o := by
    by_cases held : (db.audit o).HeldBy i
    · exact .inl ⟨held, rfl⟩
    · exact .inr ⟨held, held, List.prefix_rfl⟩
  inserted := rfl
  drawn := le_rfl

/-- What a session sees of a chain only grows at the hands of others. -/
theorem Frame.sight (frame : Frame db db' i) (o : String) :
    (db.audit o).sight i <+: (db'.audit o).sight i := by
  rcases frame.audit o with ⟨-, same⟩ | ⟨free, free', grown⟩
  · rw [same]
  · rw [Cell.sight_of_not_held free, Cell.sight_of_not_held free']
    exact grown

omit [DecidableEq ι] in
theorem Released.frame (frame : Frame db db' i) (released : Released db i) : Released db' i where
  tickets k := by
    rcases frame.tickets k with ⟨held, -⟩ | ⟨-, free⟩
    · exact absurd held (released.tickets k)
    · exact free
  audit o := by
    rcases frame.audit o with ⟨held, -⟩ | ⟨-, free, -⟩
    · exact absurd held (released.audit o)
    · exact free
  inserted := frame.inserted.trans released.inserted

theorem Performed.frame {done : List Statement} {gap : EmittedGap} (frame : Frame db db' i)
    (performed : Performed unit db i done gap) : Performed unit db' i done gap where
  tickets k := by
    rcases frame.tickets k with ⟨held, same⟩ | ⟨free, free'⟩
    · rw [same]
      exact performed.tickets k
    · rcases performed.tickets k with ⟨held, -⟩ | ⟨-, spares⟩
      · exact absurd held free
      · exact .inr ⟨free', spares⟩
  own o held := by
    rcases frame.audit o with ⟨held', -⟩ | ⟨-, free, -⟩
    · exact performed.own o held'
    · exact absurd held free
  filed := by
    obtain ⟨events, rows, recorded, seen, contents⟩ := performed.filed
    rcases frame.audit unit.org_id with ⟨-, same⟩ | ⟨free, free', -⟩
    · rw [same]
      exact ⟨events, rows, recorded, seen, contents⟩
    · -- it has no rows of its own, so it sees what the others have committed
      rw [Cell.sight_of_not_held free, List.self_eq_append_right] at seen
      subst seen
      refine ⟨events, [], recorded, ?_, contents⟩
      rw [Cell.sight_of_not_held free', List.append_nil]
  inserted := frame.inserted.trans performed.inserted

theorem Links.frame {bound bound' : Nat} {content : AuditEventContent} {row : ChainedAuditEvent}
    (frame : Frame db db' i) (le : bound ≤ bound')
    (links : Links sha256Hex db i bound content row) :
    Links sha256Hex db' i bound' content row where
  content := links.content
  digest := links.digest
  rooted := links.rooted.mono (frame.sight _) le

theorem PhaseSound.frame {phase : UnitPhase} (frame : Frame db db' i)
    (sound : PhaseSound sha256Hex unit db i phase) : PhaseSound sha256Hex unit db' i phase := by
  cases phase with
  | ready attempt rest gap =>
    obtain ⟨done, cut, performed⟩ := sound
    exact ⟨done, cut, performed.frame frame⟩
  | built attempt row rest gap =>
    obtain ⟨done, event, cut, performed, links⟩ := sound
    exact ⟨done, event, cut, performed.frame frame, links.frame frame frame.drawn⟩
  | numbered attempt id row rest gap =>
    obtain ⟨done, event, cut, performed, links, below⟩ := sound
    exact ⟨done, event, cut, performed.frame frame, links.frame frame le_rfl,
      below.trans_le frame.drawn⟩
  | committed => exact Released.frame frame sound
  | failed fault => exact Released.frame frame sound

/-! ### The end of a transaction -/

theorem Released.performed (released : Released db i) : Performed unit db i [] {} where
  tickets k := .inr ⟨released.tickets k, by simp⟩
  own o held := absurd held (released.audit o)
  filed := ⟨[], [], .nil, by
    rw [Cell.sight_of_not_held (released.audit _), List.append_nil], rfl⟩
  inserted := released.inserted

theorem released_rollback (db : Database ι) (i : ι) : Released (db.rollback i) i where
  tickets _ := Cell.not_heldBy_abort
  audit _ := Cell.not_heldBy_abort
  inserted := Function.update_self ..

theorem released_commit (db : Database ι) (i : ι) : Released (db.commit i) i where
  tickets _ := Cell.not_heldBy_commit
  audit _ := Cell.not_heldBy_commit
  inserted := Function.update_self ..

theorem quiet_rollback (db : Database ι) (i : ι) : Quiet db (db.rollback i) where
  tickets _ := Cell.abort_committed
  audit _ := Cell.abort_committed
  responses := rfl

theorem frame_rollback (db : Database ι) (other : i ≠ j) : Frame db (db.rollback j) i where
  tickets k := by
    by_cases held : (db.tickets k).HeldBy i
    · exact .inl ⟨held, Cell.abort_of_held_other held other⟩
    · exact .inr ⟨held, mt (Cell.heldBy_abort_iff other).mp held⟩
  audit o := by
    by_cases held : (db.audit o).HeldBy i
    · exact .inl ⟨held, Cell.abort_of_held_other held other⟩
    · refine .inr ⟨held, mt (Cell.heldBy_abort_iff other).mp held, ?_⟩
      exact (Cell.abort_committed (c := db.audit o) (i := j)).symm ▸ List.prefix_rfl
  inserted := Function.update_of_ne other ..
  drawn := le_rfl

theorem frame_commit (sound : ChainsSound sha256Hex db) (other : i ≠ j) :
    Frame db (db.commit j) i where
  tickets k := by
    by_cases held : (db.tickets k).HeldBy i
    · exact .inl ⟨held, Cell.commit_of_held_other held other⟩
    · exact .inr ⟨held, mt (Cell.heldBy_commit_iff other).mp held⟩
  audit o := by
    by_cases held : (db.audit o).HeldBy i
    · exact .inl ⟨held, Cell.commit_of_held_other held other⟩
    · refine .inr ⟨held, mt (Cell.heldBy_commit_iff other).mp held, ?_⟩
      exact (Cell.commit_committed (c := db.audit o) (i := j)).symm ▸ sound.grown o j
  inserted := Function.update_of_ne other ..
  drawn := le_rfl

theorem ChainsSound.rollback (sound : ChainsSound sha256Hex db) (i : ι) :
    ChainsSound sha256Hex (db.rollback i) := by
  -- what anybody sees of a chain now somebody saw of it before
  have seen : ∀ o j, ((db.rollback i).audit o).sight j = (db.audit o).committed ∨
      ((db.rollback i).audit o).sight j = (db.audit o).sight j := by
    intro o j
    by_cases held : (db.audit o).HeldBy i
    · exact .inl (Cell.sight_abort_of_held held)
    · refine .inr ?_
      change ((db.audit o).abort i).sight j = _
      rw [Cell.abort_of_not_held held]
  constructor
  · intro o j
    rcases seen o j with same | same
    · rw [same]
      exact Linear.of_prefix (sound.linear o j) (sound.grown o j)
    · rw [same]
      exact sound.linear o j
  · intro o j
    change ((db.audit o).abort i).committed <+: _
    rw [Cell.abort_committed]
    rcases seen o j with same | same
    · rw [same]
    · rw [same]
      exact sound.grown o j
  · intro o j r member
    rcases seen o j with same | same
    · rw [same] at member
      exact sound.drawn o j r ((sound.grown o j).subset member)
    · rw [same] at member
      exact sound.drawn o j r member

theorem ChainsSound.commit (sound : ChainsSound sha256Hex db) (i : ι) :
    ChainsSound sha256Hex (db.commit i) := by
  have seen : ∀ o j, ((db.commit i).audit o).sight j = (db.audit o).sight i ∨
      ((db.commit i).audit o) = db.audit o := by
    intro o j
    by_cases held : (db.audit o).HeldBy i
    · exact .inl (Cell.sight_commit_of_held held)
    · exact .inr (Cell.commit_of_not_held held)
  constructor
  · intro o j
    rcases seen o j with same | same
    · rw [same]
      exact sound.linear o i
    · rw [same]
      exact sound.linear o j
  · intro o j
    rcases seen o j with same | same
    · rw [same]
      exact (Cell.commit_committed (c := db.audit o) (i := i)).symm ▸ List.prefix_rfl
    · rw [same]
      exact sound.grown o j
  · intro o j r member
    rcases seen o j with same | same
    · rw [same] at member
      exact sound.drawn o i r member
    · rw [same] at member
      exact sound.drawn o j r member

/-- A session that has performed all of its program commits it. -/
theorem Performed.commits {gap : EmittedGap} (performed : Performed unit db i unit.program gap) :
    CommitsProgram unit db (db.commit i) where
  tickets k := by
    change _ = Except.ok ((db.tickets k).commit i).committed
    rw [Cell.commit_committed]
    rcases performed.tickets k with ⟨-, applied⟩ | ⟨free, spares⟩
    · exact applied
    · rw [Cell.sight_of_not_held free]
      exact foldlM_of_spares spares
  audit := by
    obtain ⟨events, rows, recorded, seen, contents⟩ := performed.filed
    refine ⟨events, rows, gap, recorded, ?_, contents⟩
    exact Cell.commit_committed.trans seen
  others o other := by
    refine Cell.commit_committed.trans (Cell.sight_of_not_held ?_)
    exact fun held => other (performed.own o held)
  responses := by
    change db.responses ++ db.inserted i = _
    rw [performed.inserted]

end LedgerDesk.Pipeline
