import LedgerDesk.Pipeline.Cycles

/-!
# What a step of the system does

A session computes, or a row is written in a transaction of one statement, or a unit of work takes
a step, or a session is gone. From it: the chains and every session stay sound.
-/
namespace LedgerDesk.Pipeline

open Foundation Agents Ledger Drafting
open Tickets (TicketState UserRole GuardOwner Edge findTransition isGuardAvailable)
open Triage

/-- The edge is taken by no cycle. -/
def TakenOutside (edge : Edge) : Prop :=
  isGuardAvailable edge = true ∨ edge.guardedBy = .approvalConstraint ∨
    edge.guardedBy = .reopenWindow

/-- The session whose act it is. -/
def Act.session : Act → Option Nat
  | .startTriage i _ _ _ _ | .ask i | .reply i _ | .bump i | .startDraft i _ _ _ | .search i _ _
  | .price i _ _ | .replyDraft i _ | .replyValidation i _ | .settle i _ _ | .event i _ | .unit i _
  | .throw i | .crash i => some i
  | .submit _ _ _ _ _ _ _ _ | .console _ _ _ _ | .outside _ _ => none

inductive Moves (setting : Setting) (s : State) : Act → State → Prop
  | computed {act i session} (next : advance setting s act = some (i, session)) :
      Moves setting s act (s.enter i session)
  | submitted {id org_id subject body_raw language tier value_band created_at}
      (fresh : (s.db.tickets id).committed = none) (free : (s.db.tickets id).held = none) :
      Moves setting s (.submit id org_id subject body_raw language tier value_band created_at)
        (s.setTicket id
          (newTicket id org_id subject body_raw language tier value_band created_at))
  | taken {act id target ticket edge} (alone : act.session = none) (stands : (s.db.tickets id).committed = some ticket)
      (found : findTransition ticket.status target = some edge) (outside : TakenOutside edge)
      (free : (s.db.tickets id).held = none) :
      Moves setting s act (s.setTicket id { ticket with status := target })
  | stale {i facts held code} (failing : s.sessions i = .triaging facts (.failing held code)) :
      Moves setting s (.bump i) (s.enter i (.triaging facts (.threw .transitionStale)))
  | bumped {i facts held code ticket}
      (failing : s.sessions i = .triaging facts (.failing held code))
      (stands : (s.db.tickets held.ticket.id).committed = some ticket)
      (free : (s.db.tickets held.ticket.id).held = none) :
      Moves setting s (.bump i)
        ((s.setTicket held.ticket.id { ticket with retries := ticket.retries + 1 }).enter i
          (.triaging facts ((setting.runtime facts).bumped held code (ticket.retries + 1))))
  | wrote {i work phase act db phase'} (writing : s.sessions i = .writing work phase)
      (step : unitStep setting.sha256Hex (work.unit setting) s.db i phase act = some (db, phase')) :
      Moves setting s (.unit i act)
        { db, sessions := Function.update s.sessions i (.writing work phase') }
  | crashed {i} (live : (s.sessions i).live = true) :
      Moves setting s (.crash i) ({ s with db := s.db.rollback i }.enter i .crashed)

variable {setting : Setting} {s t : State} {act : Act} {i : Nat}

theorem visible_eq_some {org_id id : String} {ticket : Ticket}
    (seen : s.visible org_id id = some ticket) :
    (s.db.tickets id).committed = some ticket ∧ ticket.org_id = org_id := by
  rw [State.visible, Option.filter_eq_some_iff] at seen
  exact ⟨seen.1, of_decide_eq_true seen.2⟩

theorem bumpStep_moves {facts : RuntimeFacts} {held : Standing} {code : FailureCode}
    (failing : s.sessions i = .triaging facts (.failing held code))
    (step : bumpStep setting s i facts held code = some t) : Moves setting s (.bump i) t := by
  unfold bumpStep at step
  split at step
  · cases step
    exact .stale failing
  · next row found =>
    split at step
    · next free =>
      cases step
      rw [Option.filter_eq_some_iff] at found
      exact .bumped failing (visible_eq_some found.1).1 (Option.isNone_iff_eq_none.mp free)
    · cases step

theorem pipelineStep_moves (step : pipelineStep setting s act = some t) : Moves setting s act t := by
  have computes : ∀ {act}, (advance setting s act).map (fun next => s.enter next.1 next.2) = some t →
      Moves setting s act t := by
    intro act advanced
    obtain ⟨⟨i, session⟩, next, rfl⟩ := Option.map_eq_some_iff.mp advanced
    exact .computed next
  cases act with
  | submit id org_id subject body_raw language tier value_band created_at =>
    simp only [pipelineStep, submitStep] at step
    split at step
    · next free =>
      cases step
      simp only [newTicket, Bool.and_eq_true, Option.isNone_iff_eq_none] at free
      exact .submitted free.1 free.2
    · cases step
  | console org_id role id target =>
    simp only [pipelineStep, consoleStep, Option.bind_eq_bind, Option.bind_eq_some_iff] at step
    obtain ⟨ticket, seen, edge, found, step⟩ := step
    split at step
    · next guards =>
      cases step
      simp only [Bool.and_eq_true, Option.isNone_iff_eq_none] at guards
      exact .taken rfl (visible_eq_some seen).1 found (.inl guards.1.1.2) guards.2
    · cases step
  | outside id target =>
    simp only [pipelineStep, outsideStep, Option.bind_eq_bind, Option.bind_eq_some_iff] at step
    obtain ⟨ticket, stands, edge, found, step⟩ := step
    split at step
    · next guards =>
      cases step
      simp only [Bool.and_eq_true, Bool.or_eq_true, decide_eq_true_eq,
        Option.isNone_iff_eq_none] at guards
      exact .taken rfl stands found (.inr guards.1) guards.2
    · cases step
  | bump i =>
    simp only [pipelineStep] at step
    split at step
    · next facts held code failing => exact bumpStep_moves failing step
    · cases step
  | unit i act =>
    simp only [pipelineStep] at step
    split at step
    · next work phase writing =>
      obtain ⟨⟨db, phase'⟩, stepped, rfl⟩ := Option.map_eq_some_iff.mp step
      exact .wrote writing stepped
    · cases step
  | crash i =>
    simp only [pipelineStep] at step
    split at step
    · next live =>
      cases step
      exact .crashed live
    · cases step
  | startTriage | ask | reply | startDraft | search | price | replyDraft | replyValidation
    | settle | event | throw => exact computes step

/-! ### Sound states -/

/-- A unit under way is as far as its phase has it, and nobody else has anything open. -/
def SessionSound (setting : Setting) (db : Database Nat) (i : Nat) : Session → Prop
  | .writing work phase => PhaseSound setting.sha256Hex (work.unit setting) db i phase
  | _ => Released db i

structure StateSound (setting : Setting) (s : State) : Prop where
  chains : ChainsSound setting.sha256Hex s.db
  sessions : ∀ i, SessionSound setting s.db i (s.sessions i)

/-- The session writes nothing. -/
def Session.reads : Session → Prop
  | .writing _ _ => False
  | _ => True

theorem released_of_reads {session : Session} (reads : session.reads)
    (sound : SessionSound setting s.db i session) : Released s.db i := by
  cases session with
  | writing work phase => exact reads.elim
  | _ => exact sound

theorem sound_of_released {session : Session} (reads : session.reads)
    (released : Released s.db i) : SessionSound setting s.db i session := by
  cases session with
  | writing work phase => exact reads.elim
  | _ => exact released

theorem SessionSound.frame {db db' : Database Nat} {session : Session} (frame : Frame db db' i)
    (sound : SessionSound setting db i session) : SessionSound setting db' i session := by
  cases session with
  | writing work phase => exact PhaseSound.frame frame sound
  | _ => exact Released.frame frame sound

/-- To compute is to go on reading, or to begin a unit. -/
theorem advance_cases {session : Session} (next : advance setting s act = some (i, session)) :
    (s.sessions i).reads ∧
      (session.reads ∨ ∃ work, session = .writing work (Work.unit setting work).begin) := by
  cases act
  all_goals simp only [advance] at next
  case settle j policy ledger =>
    obtain ⟨other, settled, pair⟩ := Option.map_eq_some_iff.mp next
    cases pair
    unfold settleStep at settled
    split at settled
    · next here =>
      cases settled
      rw [here]
      exact ⟨trivial, .inr ⟨_, rfl⟩⟩
    · next here =>
      cases settled
      rw [here]
      exact ⟨trivial, .inr ⟨_, rfl⟩⟩
    · cases settled
  case event j content =>
    split at next
    · next here =>
      cases next
      rw [here]
      exact ⟨trivial, .inr ⟨_, rfl⟩⟩
    · cases next
  case throw j =>
    split at next
    · next here =>
      split at next
      · cases next
        rw [here]
        exact ⟨trivial, .inl trivial⟩
      · cases next
    · next here =>
      split at next
      · cases next
        rw [here]
        exact ⟨trivial, .inl trivial⟩
      · cases next
    · cases next
  all_goals first
    | cases next
    | split at next
      · next here =>
        cases next
        rw [here]
        exact ⟨trivial, .inl trivial⟩
      · cases next

theorem StateSound.enter {session : Session} (sound : StateSound setting s)
    (entered : SessionSound setting s.db i session) : StateSound setting (s.enter i session) where
  chains := sound.chains
  sessions j := by
    by_cases same : j = i
    · subst same
      simpa only [State.enter, Function.update_self] using entered
    · simpa only [State.enter, Function.update_of_ne same] using sound.sessions j

/-- A row nobody has locked is written beside every session. -/
theorem frame_setTicket {k : String} {ticket : Ticket} (free : (s.db.tickets k).held = none)
    (i : Nat) : Frame s.db (s.setTicket k ticket).db i where
  tickets k' := by
    by_cases same : k' = k
    · subst same
      refine .inr ⟨?_, ?_⟩
      · rintro ⟨version, held⟩
        rw [free] at held
        cases held
      · rintro ⟨version, held⟩
        simp [State.setTicket] at held
    · have kept : (s.setTicket k ticket).db.tickets k' = s.db.tickets k' :=
        Function.update_of_ne same ..
      rw [kept]
      exact (Frame.refl s.db i).tickets k'
  audit := (Frame.refl s.db i).audit
  inserted := rfl
  drawn := le_rfl

theorem StateSound.setTicket {k : String} {ticket : Ticket} (sound : StateSound setting s)
    (free : (s.db.tickets k).held = none) : StateSound setting (s.setTicket k ticket) where
  chains := ⟨sound.chains.linear, sound.chains.grown, sound.chains.drawn⟩
  sessions i := (sound.sessions i).frame (frame_setTicket free i)

theorem Moves.sound (moves : Moves setting s act t) (sound : StateSound setting s) :
    StateSound setting t := by
  cases moves with
  | @computed act i session next =>
    obtain ⟨reads, entered⟩ := advance_cases next
    have released := released_of_reads reads (sound.sessions i)
    apply sound.enter
    rcases entered with reads' | ⟨work, rfl⟩
    · exact sound_of_released reads' released
    · have begun : PhaseSound setting.sha256Hex (work.unit setting) s.db i
          (work.unit setting).begin := begin_sound released 0
      exact begun
  | submitted fresh free => exact sound.setTicket free
  | taken alone stands found outside free => exact sound.setTicket free
  | @stale i facts held code failing =>
    apply sound.enter
    have released := sound.sessions i
    rw [failing] at released
    exact released
  | @bumped i facts held code ticket failing stands free =>
    have written : StateSound setting
        (s.setTicket _ { ticket with retries := ticket.retries + 1 }) := sound.setTicket free
    apply written.enter
    have released := written.sessions i
    change SessionSound setting _ i (s.sessions i) at released
    rw [failing] at released
    exact released
  | @wrote i work phase act db phase' writing step =>
    have under := sound.sessions i
    rw [writing] at under
    obtain ⟨move, -⟩ := unitStep_move sound.chains under step
    refine ⟨move.chains, fun j => ?_⟩
    by_cases same : j = i
    · subst same
      simp only [Function.update_self]
      exact move.phase
    · simpa only [Function.update_of_ne same] using (sound.sessions j).frame (move.frame j same)
  | @crashed i live =>
    refine ⟨sound.chains.rollback i, fun j => ?_⟩
    by_cases same : j = i
    · subst same
      simp only [State.enter, Function.update_self]
      exact released_rollback s.db j
    · simpa only [State.enter, Function.update_of_ne same] using
        (sound.sessions j).frame (frame_rollback s.db same)

theorem sound_empty : StateSound setting empty where
  chains :=
    { linear := fun _ _ => .nil
      grown := fun _ _ => List.prefix_rfl
      drawn := fun _ _ _ member => absurd member List.not_mem_nil }
  sessions _ :=
    { tickets := fun _ ⟨_, held⟩ => nomatch held
      audit := fun _ ⟨_, held⟩ => nomatch held
      inserted := rfl }

/-- Every state of a run is sound. -/
theorem sound_run {ts : List (Transition State Act)} (run : Run (pipelineStep setting) empty ts t) :
    StateSound setting t ∧ ∀ tr ∈ ts, StateSound setting tr.source ∧ StateSound setting tr.target :=
  run.invariant (fun _ _ _ step sound => (pipelineStep_moves step).sound sound) sound_empty

end LedgerDesk.Pipeline
