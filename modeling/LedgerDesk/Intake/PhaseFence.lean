import LedgerDesk.Foundation.Checks
import LedgerDesk.Intake.Fence

/-!
# What the fence keeps apart

A phase is active from the commit that begins it to the commit that ends it, and nothing it
guards is committed between. The epoch counts everything that is, so who continues under the
epoch the end returned continues over what the phase began with.
-/
namespace LedgerDesk.Intake

open Foundation Foundation.HeadLock

/-! ### What a call can do -/

inductive Effect (f : Fence) : Done → Fence → Prop
  | begun {row} (free : f.active_phase = none) (new : f.phase row.id = none) :
      Effect f (.begun row.id (f.epoch + 1))
        { f with epoch := f.epoch + 1, active_phase := some row.id, phases := f.phases ++ [row] }
  | ended {c} (active : f.active_phase = some c.phase_id)
      (open_ : f.completed c.phase_id = false) :
      Effect f (.ended c.phase_id (f.epoch + 1))
        { f with epoch := f.epoch + 1, active_phase := none, completions := f.completions ++ [c] }
  | reconciled {c} (active : f.active_phase = some c.phase_id)
      (open_ : f.completed c.phase_id = false) :
      Effect f (.reconciled c.phase_id (f.epoch + 1))
        { f with epoch := f.epoch + 1, active_phase := none, completions := f.completions ++ [c] }
  | repeated {id} (free : f.active_phase = none) (completed : f.completed id = true) :
      Effect f (.repeated id f.epoch) f
  | asserted (free : f.active_phase = none) :
      Effect f (.asserted f.epoch) { f with epoch := f.epoch + 1 }
  | mutated (free : f.active_phase = none) :
      Effect f (.mutated (f.epoch + 1)) { f with epoch := f.epoch + 1 }

theorem no_private_phase_ok {f g : Fence} {epoch : Nat} (ok : f.no_private_phase = .ok (g, epoch)) :
    f.active_phase = none ∧ g = { f with epoch := f.epoch + 1 } ∧ epoch = f.epoch + 1 := by
  rw [Fence.no_private_phase] at ok
  split at ok
  · cases ok
  · next free =>
    cases ok
    exact ⟨Option.not_isSome_iff_eq_none.mp free, rfl, rfl⟩

theorem retire_ok {f g : Fence} {c : PhaseCompletion} (ok : f.retire c = .ok g) :
    f.completed c.phase_id = false ∧
      g = { f with epoch := f.epoch + 1, active_phase := none,
                   completions := f.completions ++ [c] } := by
  rw [Fence.retire] at ok
  split at ok
  · cases ok
  · next open_ =>
    cases ok
    exact ⟨Bool.not_eq_true _ ▸ open_, rfl⟩

theorem phaseRow_id {session : Session} {reads : BeginReads} {args : BeginArgs} {at_ms : Int}
    {row : PrivatePhase} (ok : phaseRow session reads args at_ms = .ok row) :
    row.id = args.p_id := by
  obtain ⟨l, -, ok⟩ := except_bind_eq_ok.mp ok
  obtain ⟨⟨e, reception_id, artifact_id, generation⟩, -, ok⟩ := except_bind_eq_ok.mp ok
  obtain ⟨a, -, ok⟩ := except_bind_eq_ok.mp ok
  obtain ⟨-, -, ok⟩ := except_bind_eq_ok.mp ok
  cases ok
  rfl

theorem begin_phase_effect {f g : Fence} {session : Session} {reads : BeginReads} {args : BeginArgs}
    {at_ms : Int} {d : Done} (ok : f.begin_phase session reads args at_ms = .ok (g, d)) :
    Effect f d g := by
  obtain ⟨-, -, ok⟩ := except_bind_eq_ok.mp ok
  obtain ⟨⟨h, epoch⟩, counted, ok⟩ := except_bind_eq_ok.mp ok
  obtain ⟨free, rfl, rfl⟩ := no_private_phase_ok counted
  obtain ⟨row, registered, ok⟩ := except_bind_eq_ok.mp ok
  dsimp only at ok
  split at ok
  · cases ok
  · next unique =>
    cases ok
    rw [← phaseRow_id registered] at unique ⊢
    exact .begun free (Option.not_isSome_iff_eq_none.mp unique)

theorem finish_phase_effect {f g : Fence} {session : Session} {args : FinishArgs} {at_ms : Int}
    {d : Done} (ok : f.finish_phase session args at_ms = .ok (g, d)) : Effect f d g := by
  rw [Fence.finish_phase] at ok
  split at ok
  · cases ok
  · split at ok
    · cases ok
    · split at ok
      · split at ok
        · next free =>
          cases ok
          rw [Bool.and_eq_true, Option.isNone_iff_eq_none] at free
          exact .repeated free.1 free.2
        · cases ok
      · next active =>
        split at ok
        · cases ok
        · split at ok
          · cases ok
          · obtain ⟨h, retired, ok⟩ := except_bind_eq_ok.mp ok
            obtain ⟨open_, rfl⟩ := retire_ok retired
            cases ok
            refine .ended (c := ⟨args.p_id, _, _, _, _, _⟩) ?_ open_
            simpa using active

theorem reconcile_phase_effect {f g : Fence} {session : Session} {alive : List Nat}
    {args : ReconcileArgs} {at_ms : Int} {d : Done}
    (ok : f.reconcile_phase session alive args at_ms = .ok (g, d)) : Effect f d g := by
  rw [Fence.reconcile_phase] at ok
  split at ok
  · cases ok
  · split at ok
    · cases ok
    · split at ok
      · cases ok
      · next current =>
        dsimp only at ok
        split at ok
        · cases ok
        · split at ok
          · cases ok
          · obtain ⟨h, retired, ok⟩ := except_bind_eq_ok.mp ok
            obtain ⟨open_, rfl⟩ := retire_ok retired
            cases ok
            refine .reconciled (c := ⟨args.p_id, _, _, _, _, _⟩) ?_ open_
            simp only [Bool.or_eq_true, not_or, bne_iff_ne, ne_eq, not_not] at current
            exact current.1.1.1

theorem call_effect (f : Fence) (call : FenceCall) (g : Fence) (d : Done)
    (ok : f.call call = .ok (g, d)) : Effect f d g := by
  cases call with
  | begin_phase => exact begin_phase_effect ok
  | finish_phase => exact finish_phase_effect ok
  | assert_fence_epoch expected =>
    simp only [Fence.call, Fence.assert_fence_epoch] at ok
    split at ok
    · cases ok
    · next current =>
      cases ok
      simp only [Bool.or_eq_true, not_or, bne_iff_ne, ne_eq, not_not] at current
      rw [← current.2]
      exact .asserted (Option.not_isSome_iff_eq_none.mp current.1)
  | reconcile_phase => exact reconcile_phase_effect ok
  | source_mutation =>
    obtain ⟨⟨h, epoch⟩, counted, ok⟩ := except_bind_eq_ok.mp ok
    obtain ⟨free, rfl, rfl⟩ := no_private_phase_ok counted
    cases ok
    exact .mutated free

/-! ### The tables -/

/-- A phase is active exactly while it is begun and not completed. -/
structure Fence.WellFormed (f : Fence) : Prop where
  completions : (f.completions.map PhaseCompletion.phase_id).Nodup
  active : ∀ id, f.active_phase = some id ↔ (f.phase id).isSome = true ∧ f.completed id = false
  known : ∀ id, f.completed id = true → (f.phase id).isSome = true

theorem Fence.completed_iff {f : Fence} {id : String} :
    f.completed id = true ↔ id ∈ f.completions.map PhaseCompletion.phase_id := by
  simp [Fence.completed]

theorem Fence.phase_isSome {f : Fence} {id : String} :
    (f.phase id).isSome = true ↔ id ∈ f.phases.map PrivatePhase.id := by
  simp [Fence.phase]

theorem Effect.wellFormed {f g : Fence} {d : Done} (effect : Effect f d g)
    (wf : f.WellFormed) : g.WellFormed := by
  cases effect with
  | @begun row free new =>
    have fresh : row.id ∉ f.phases.map PrivatePhase.id := by
      rw [← Fence.phase_isSome, new]
      exact Bool.false_ne_true
    refine ⟨wf.completions, fun id => ?_, fun id completed => ?_⟩
    · rw [Fence.phase_isSome, List.map_append, List.mem_append, ← Fence.phase_isSome]
      constructor
      · rintro ⟨⟩
        refine ⟨.inr (by simp), Bool.eq_false_iff.mpr fun completed => fresh ?_⟩
        exact Fence.phase_isSome.mp (wf.known _ completed)
      · rintro ⟨known | last, open_⟩
        · have active := (wf.active id).mpr ⟨known, open_⟩
          rw [free] at active
          cases active
        · simp only [List.map_cons, List.map_nil, List.mem_singleton] at last
          rw [last]
    · rw [Fence.phase_isSome, List.map_append, List.mem_append, ← Fence.phase_isSome]
      exact .inl (wf.known id completed)
  | @ended c active open_ | @reconciled c active open_ =>
    have fresh : c.phase_id ∉ f.completions.map PhaseCompletion.phase_id := by
      rw [← Fence.completed_iff, open_]
      exact Bool.false_ne_true
    have known := ((wf.active _).mp active).1
    refine ⟨?_, fun id => ?_, fun id completed => ?_⟩
    · rw [List.map_append, List.map_cons, List.map_nil, ← List.concat_eq_append]
      exact List.Nodup.concat fresh wf.completions
    · rw [Bool.eq_false_iff, ne_eq, Fence.completed_iff, List.map_append, List.mem_append]
      refine iff_of_false (by simp) ?_
      rintro ⟨begun, unfinished⟩
      have open_id : f.completed id = false := by
        rw [Bool.eq_false_iff, ne_eq, Fence.completed_iff]
        exact fun completed => unfinished (.inl completed)
      have same := (wf.active id).mpr ⟨begun, open_id⟩
      rw [active, Option.some.injEq] at same
      exact unfinished (.inr (by simp [same]))
    · rw [Fence.completed_iff, List.map_append, List.mem_append, ← Fence.completed_iff] at completed
      rcases completed with earlier | last
      · exact wf.known id earlier
      · simp only [List.map_cons, List.map_nil, List.mem_singleton] at last
        rw [last]
        exact known
  | repeated => exact wf
  | asserted | mutated => exact ⟨wf.completions, wf.active, wf.known⟩

/-- What is in the tables stays, and the epoch does not go back. -/
structure Grows (f g : Fence) : Prop where
  phases : f.phases <+: g.phases
  completions : f.completions <+: g.completions
  epoch : f.epoch ≤ g.epoch

theorem Grows.refl (f : Fence) : Grows f f :=
  ⟨List.prefix_rfl, List.prefix_rfl, le_refl _⟩

theorem Grows.trans {f g h : Fence} (first : Grows f g) (second : Grows g h) : Grows f h :=
  ⟨first.phases.trans second.phases, first.completions.trans second.completions,
    first.epoch.trans second.epoch⟩

theorem Grows.knows {f g : Fence} (grows : Grows f g) {id : String}
    (known : (f.phase id).isSome = true) : (g.phase id).isSome = true := by
  rw [Fence.phase_isSome] at known ⊢
  exact (grows.phases.map _).subset known

theorem Grows.completes {f g : Fence} (grows : Grows f g) {id : String}
    (completed : f.completed id = true) : g.completed id = true := by
  rw [Fence.completed_iff] at completed ⊢
  exact (grows.completions.map _).subset completed

theorem Effect.grows {f g : Fence} {d : Done} (effect : Effect f d g) : Grows f g := by
  cases effect with
  | begun => exact ⟨List.prefix_append _ _, List.prefix_rfl, Nat.le_succ _⟩
  | ended | reconciled => exact ⟨List.prefix_rfl, List.prefix_append _ _, Nat.le_succ _⟩
  | repeated => exact .refl f
  | asserted | mutated => exact ⟨List.prefix_rfl, List.prefix_rfl, Nat.le_succ _⟩

/-! ### The epoch -/

/-- A repetition alone leaves the head as it is. -/
def Done.effective : Done → Bool
  | .repeated _ _ => false
  | _ => true

/-- The end of the phase, by its owner or by the controller. -/
def Done.ends (p : String) : Done → Bool
  | .ended q _ | .reconciled q _ => p == q
  | _ => false

theorem Effect.epoch {f g : Fence} {d : Done} (effect : Effect f d g) :
    g.epoch = f.epoch + if d.effective then 1 else 0 := by
  cases effect <;> rfl

/-- Over an active phase nothing is done but its end. -/
theorem Effect.ends {f g : Fence} {d : Done} {p : String} (effect : Effect f d g)
    (active : f.active_phase = some p) : d.ends p = true ∧ g.epoch = f.epoch + 1 := by
  cases effect with
  | ended active' | reconciled active' =>
    rw [active, Option.some.injEq] at active'
    exact ⟨by simp [Done.ends, active'], rfl⟩
  | begun free | repeated free | asserted free | mutated free =>
    rw [active] at free
    cases free

/-! ### Transactions -/

section Transactions

variable {f g : Fence} {log : List Done}

theorem replay_grows (replay : Replay Fence.call f log g) : Grows f g :=
  replay.within (R := Grows) .refl (fun _ _ _ first second => first.trans second)
    fun a call b d ok => (call_effect a call b d ok).grows

theorem replay_epoch (replay : Replay Fence.call f log g) :
    g.epoch = f.epoch + log.countP Done.effective := by
  induction replay with
  | nil => rfl
  | cons step _ ih =>
    rw [ih, (call_effect _ _ _ _ step).epoch, List.countP_cons]
    omega

/-- A transaction over an active phase has done nothing, or has ended it first. -/
theorem replay_active {p : String} (replay : Replay Fence.call f log g)
    (active : f.active_phase = some p) :
    log = [] ∨ ∃ d rest, log = d :: rest ∧ d.ends p = true := by
  cases replay with
  | nil => exact .inl rfl
  | cons step => exact .inr ⟨_, _, rfl, ((call_effect _ _ _ _ step).ends active).1⟩

/-- A phase that is active after a transaction was so before, or was begun by it. -/
theorem replay_begun {p : String} (replay : Replay Fence.call f log g)
    (active : g.active_phase = some p) : log = [] ∨ ∃ epoch, .begun p epoch ∈ log := by
  induction replay with
  | nil => exact .inl rfl
  | cons step rest ih =>
    rcases ih active with rfl | ⟨epoch, begun⟩
    · cases rest
      cases call_effect _ _ _ _ step with
      | begun =>
        cases active
        exact .inr ⟨_, List.mem_cons_self⟩
      | ended | reconciled => cases active
      | repeated free | asserted free | mutated free =>
        rw [free] at active
        cases active
    · exact .inr ⟨epoch, List.mem_cons_of_mem _ begun⟩

/-- A guarded mutation is done where the transaction sees no phase active. -/
theorem replay_mutated {before after : List Done} {epoch : Nat}
    (replay : Replay Fence.call f (before ++ .mutated epoch :: after) g) :
    ∃ view, Replay Fence.call f before view ∧ view.active_phase = none := by
  induction before generalizing f with
  | nil =>
    cases replay with
    | cons step =>
      cases call_effect _ _ _ _ step with
      | mutated free => exact ⟨f, .nil f, free⟩
  | cons d before ih =>
    cases replay with
    | cons step rest =>
      obtain ⟨view, earlier, free⟩ := ih rest
      exact ⟨view, .cons step earlier, free⟩

/-- What a transaction begins was not known before it, and is from then on. -/
theorem replay_new {p : String} {epoch : Nat} (replay : Replay Fence.call f log g)
    (begun : .begun p epoch ∈ log) : f.phase p = none ∧ (g.phase p).isSome = true := by
  induction replay with
  | nil => cases begun
  | @cons a b c call d log step rest ih =>
    have effect := call_effect _ _ _ _ step
    rcases List.mem_cons.mp begun with rfl | later
    · cases effect with
      | @begun row free new =>
        refine ⟨new, (replay_grows rest).knows ?_⟩
        rw [Fence.phase_isSome]
        simp
    · obtain ⟨unknown, known⟩ := ih later
      refine ⟨?_, known⟩
      cases before : a.phase p with
      | none => rfl
      | some row =>
        have present : (a.phase p).isSome = true := by rw [before]; rfl
        have still := effect.grows.knows present
        rw [unknown] at still
        cases still

theorem replay_asserted {expected : Nat} (replay : Replay Fence.call f log g)
    (asserted : .asserted expected ∈ log) : f.epoch ≤ expected := by
  induction replay with
  | nil => cases asserted
  | cons step _ ih =>
    have effect := call_effect _ _ _ _ step
    rcases List.mem_cons.mp asserted with rfl | later
    · cases effect
      exact le_refl _
    · exact effect.grows.epoch.trans (ih later)

theorem replay_ended {p : String} {epoch : Nat} (replay : Replay Fence.call f log g)
    (ended : .ended p epoch ∈ log) : epoch ≤ g.epoch := by
  induction replay with
  | nil => cases ended
  | cons step rest ih =>
    rcases List.mem_cons.mp ended with rfl | later
    · cases call_effect _ _ _ _ step
      exact (replay_grows rest).epoch
    · exact ih later

end Transactions

/-! ### Runs -/

section Runs

variable {ι : Type*} [DecidableEq ι] {s u : LockState ι Fence Done}
variable {ts : List (Transition (LockState ι Fence Done) (LockAct ι FenceCall))}

abbrev fenceStep (s : LockState ι Fence Done) (act : LockAct ι FenceCall) :
    Option (LockState ι Fence Done) :=
  lockStep Fence.call s act

theorem grows_run (run : Run fenceStep s ts u) (sound : Sound Fence.call s) :
    Grows s.committed u.committed :=
  committed_within .refl (fun _ _ _ first second => first.trans second)
    (fun a call b d ok => (call_effect a call b d ok).grows) run sound

/-- Where the epoch has not moved, nothing was committed but repetitions. -/
theorem still_run (run : Run fenceStep s ts u) (sound : Sound Fence.call s)
    (still : u.committed.epoch ≤ s.committed.epoch) {log : List Done}
    (logged : log ∈ ts.filterMap committedLog) : ∀ d ∈ log, d.effective = false := by
  induction run with
  | done => cases logged
  | @step s t u act ts taken rest ih =>
    have next := lockStep_sound taken sound
    have first : s.committed.epoch ≤ t.committed.epoch :=
      (grows_run (.single taken) sound).epoch
    have later := (grows_run rest next).epoch
    cases own : committedLog ⟨s, act, t⟩ with
    | none =>
      rw [List.filterMap_cons_none own] at logged
      exact ih next (by omega) logged
    | some log' =>
      rw [List.filterMap_cons_some own] at logged
      rcases List.mem_cons.mp logged with rfl | tail
      · have counted := replay_epoch (sound.commit (lockStep_commits taken) own)
        have none_counted : log.countP Done.effective = 0 := by omega
        intro d member
        exact Bool.eq_false_iff.mpr (List.countP_eq_zero.mp none_counted d member)
      · exact ih next (by omega) tail

/-- What leaves the phase as it was, or ends it. -/
def Done.harmless (p : String) (d : Done) : Bool := !d.effective || d.ends p

/-- Where the epoch has moved by one from a state with an active phase, nothing was committed but
the end of that phase, and repetitions. -/
theorem ended_run {p : String} (run : Run fenceStep s ts u) (sound : Sound Fence.call s)
    (active : s.committed.active_phase = some p)
    (near : u.committed.epoch ≤ s.committed.epoch + 1) {log : List Done}
    (logged : log ∈ ts.filterMap committedLog) : ∀ d ∈ log, d.harmless p = true := by
  induction run with
  | done => cases logged
  | @step s t u act ts taken rest ih =>
    have next := lockStep_sound taken sound
    have commits := lockStep_commits taken
    cases own : committedLog ⟨s, act, t⟩ with
    | none =>
      have same : t.committed = s.committed := by
        cases commits with
        | none unchanged => exact unchanged
        | some _ log' =>
          rw [log'] at own
          cases own
      rw [List.filterMap_cons_none own] at logged
      exact ih next (same ▸ active) (same ▸ near) logged
    | some log' =>
      rw [List.filterMap_cons_some own] at logged
      have replay := sound.commit commits own
      generalize s.committed = before at replay active near
      generalize after : t.committed = m at replay
      cases replay with
      | nil =>
        rcases List.mem_cons.mp logged with rfl | tail
        · exact fun d member => absurd member List.not_mem_nil
        · exact ih next (after ▸ active) (after ▸ near) tail
      | @cons _ b _ call d log' step others =>
        -- the first thing done is the end, which takes the one epoch there is
        obtain ⟨ends, epoch⟩ := (call_effect _ _ _ _ step).ends active
        have counted := replay_epoch others
        have later := (grows_run rest next).epoch
        rw [after] at later
        have none_counted : log'.countP Done.effective = 0 := by omega
        rcases List.mem_cons.mp logged with rfl | tail
        · intro d' member
          rcases List.mem_cons.mp member with rfl | other
          · simp [Done.harmless, ends]
          · have idle := Bool.eq_false_iff.mpr (List.countP_eq_zero.mp none_counted d' other)
            simp [Done.harmless, idle]
        · intro d' member
          have idle := still_run rest next (by rw [after]; omega) tail d' member
          simp [Done.harmless, idle]

/-- The step commits a transaction that began the phase. -/
def Begins (p : String) (tr : Transition (LockState ι Fence Done) (LockAct ι FenceCall)) : Prop :=
  ∃ log epoch, committedLog tr = some log ∧ .begun p epoch ∈ log

/-- While a phase is active the epoch is the one its begin committed. -/
theorem active_run {p : String} (run : Run fenceStep (lockStart Fence.installed) ts u)
    (active : u.committed.active_phase = some p) :
    ∃ tr ∈ ts, Begins p tr ∧ tr.target.committed.active_phase = some p ∧
      tr.target.committed.epoch = u.committed.epoch := by
  have kept := run.traced (P := fun before s => Sound Fence.call s ∧
      ∀ p, s.committed.active_phase = some p → ∃ tr ∈ before, Begins p tr ∧
        tr.target.committed.active_phase = some p ∧
        tr.target.committed.epoch = s.committed.epoch)
    (fun before s act t taken held => by
      refine ⟨lockStep_sound taken held.1, fun p active => ?_⟩
      have commits := lockStep_commits taken
      have earlier : t.committed = s.committed → ∃ tr ∈ before ++ [⟨s, act, t⟩], Begins p tr ∧
          tr.target.committed.active_phase = some p ∧
          tr.target.committed.epoch = t.committed.epoch := by
        intro same
        rw [same] at active ⊢
        obtain ⟨tr, member, began⟩ := held.2 p active
        exact ⟨tr, List.mem_append_left _ member, began⟩
      cases own : committedLog ⟨s, act, t⟩ with
      | none =>
        cases commits with
        | none unchanged => exact earlier unchanged
        | some _ log =>
          rw [log] at own
          cases own
      | some log =>
        have replay := held.1.commit commits own
        rcases replay_begun replay active with rfl | ⟨epoch, begun⟩
        · refine earlier ?_
          generalize t.committed = after at replay
          generalize s.committed = before' at replay
          cases replay
          rfl
        · exact ⟨_, List.mem_append_right _ (List.mem_singleton_self _),
            ⟨log, epoch, own, begun⟩, active, rfl⟩)
    [] ⟨sound_start _, fun p active => by cases active⟩
  exact kept.2 p active

/-- A phase is begun once. -/
theorem begins_once {p : String} {pre post : List (Transition (LockState ι Fence Done) _)}
    {b tr : Transition (LockState ι Fence Done) (LockAct ι FenceCall)}
    (run : Run fenceStep (lockStart Fence.installed) (pre ++ b :: post) u) (begins : Begins p b)
    (member : tr ∈ pre ++ b :: post) (begins' : Begins p tr) : tr = b := by
  have new : ∀ x ∈ pre ++ b :: post, Begins p x →
      x.source.committed.phase p = none ∧ (x.target.committed.phase p).isSome = true := by
    rintro x member ⟨log, epoch, logged, begun⟩
    exact replay_new (commits_run run (sound_start _) member logged) begun
  obtain ⟨first, taken, second⟩ := run.split_cons
  have sound := sound_run run (sound_start _)
  obtain ⟨unknown, known⟩ := new b (by simp) begins
  rcases List.mem_append.mp member with earlier | later
  · obtain ⟨xs, ys, rfl⟩ := List.append_of_mem earlier
    have between := (first.split_cons).2.2
    have still := (grows_run between (sound.2 tr member).2).knows (new tr member begins').2
    rw [unknown] at still
    cases still
  · rcases List.mem_cons.mp later with same | later
    · exact same
    · obtain ⟨xs, ys, rfl⟩ := List.append_of_mem later
      have between := (second.split_cons).1
      have still := (grows_run between (sound.2 b (by simp)).2).knows known
      rw [(new tr member begins').1] at still
      cases still

/-- A call that ends a phase begun by a commit returns the epoch after the one it began with. -/
theorem returned_ended {p : String} {e : Nat}
    {tr : Transition (LockState ι Fence Done) (LockAct ι FenceCall)}
    (sound : Sound Fence.call tr.source) (result : returned Fence.call tr = some (.ended p e))
    (active : tr.source.committed.active_phase = some p) (wf : tr.source.committed.WellFormed) :
    e = tr.source.committed.epoch + 1 := by
  obtain ⟨s, act, t⟩ := tr
  cases act with
  | commit | rollback => cases result
  | statement i call =>
    obtain ⟨view, sight, result⟩ := Option.bind_eq_some_iff.mp result
    obtain ⟨⟨g, d⟩, ok, rfl⟩ := Option.map_eq_some_iff.mp result
    have step : Fence.call view call = .ok (g, .ended p e) := by
      generalize Fence.call view call = outcome at ok
      cases outcome <;> cases ok
      rfl
    have replay : ∃ log, Replay Fence.call s.committed log view := by
      simp only [sightOf] at sight
      split at sight
      · cases sight
        exact ⟨[], .nil _⟩
      · next held holder =>
        split at sight
        · cases sight
          exact ⟨held.log, sound held holder⟩
        · cases sight
    obtain ⟨log, replay⟩ := replay
    have known := ((wf.active p).mp active).1
    cases call_effect _ _ _ _ step with
    | ended active_view =>
      rcases replay_begun replay active_view with rfl | ⟨epoch, begun⟩
      · generalize s.committed = before at replay ⊢
        cases replay
        rfl
      · -- it would have begun the phase again
        rw [(replay_new replay begun).1] at known
        cases known

theorem installed_wellFormed : Fence.installed.WellFormed :=
  ⟨List.nodup_nil, fun _ => ⟨nofun, fun known => nomatch known.1⟩, nofun⟩

theorem wellFormed_run (run : Run fenceStep (lockStart Fence.installed) ts u) :
    ∀ tr ∈ ts, tr.source.committed.WellFormed ∧ tr.target.committed.WellFormed :=
  (committed_invariant (P := Fence.WellFormed)
    (fun a call b d ok wf => (call_effect a call b d ok).wellFormed wf) run (sound_start _)
    installed_wellFormed).2

/-- Nothing was committed between the commit that began a phase and that of who continues under
the epoch its end returned, but that end. -/
theorem continuation_fenced {p : String} {e : Nat}
    (run : Run fenceStep (lockStart Fence.installed) ts u) {pre mid post : List (List Done)}
    {begin_ continue_ : List Done} {epoch : Nat}
    (order : ts.filterMap committedLog = pre ++ begin_ :: mid ++ continue_ :: post)
    (begun : .begun p epoch ∈ begin_) (asserted : .asserted e ∈ continue_)
    (ended : .ended p e ∈ begin_ ∨ ∃ tr ∈ ts, returned Fence.call tr = some (.ended p e) ∧
      tr.source.committed.active_phase = some p) :
    ∀ log ∈ mid, ∀ d ∈ log, d.harmless p = true := by
  rw [List.append_assoc, List.cons_append] at order
  obtain ⟨front, rest, rfl, -, rest_order⟩ := List.filterMap_eq_append_iff.mp order
  obtain ⟨quiet, b, rest, rfl, -, logged, rest_order⟩ := List.filterMap_eq_cons_iff.mp rest_order
  obtain ⟨between, rest, rfl, mid_order, rest_order⟩ :=
    List.filterMap_eq_append_iff.mp rest_order
  obtain ⟨quiet', k, rest, rfl, none_logged, logged', -⟩ :=
    List.filterMap_eq_cons_iff.mp rest_order
  have sounds := (sound_run run (sound_start _)).2
  have formed := wellFormed_run run
  have whole : front ++ (quiet ++ b :: (between ++ (quiet' ++ k :: rest))) =
      (front ++ quiet) ++ b :: (between ++ (quiet' ++ k :: rest)) := by
    simp
  rw [whole] at run ended sounds formed
  obtain ⟨-, -, after⟩ := run.split_cons
  rw [← List.append_assoc] at after
  obtain ⟨middle, -, -⟩ := after.split_cons
  have replay_b := commits_run run (sound_start _) (by simp) logged
  have replay_k := commits_run run (sound_start _) (by simp) logged'
  have sound_b := (sounds b (by simp)).2
  have latest := replay_asserted replay_k asserted
  have logs : ∀ log ∈ mid, log ∈ (between ++ quiet').filterMap committedLog := by
    intro log member
    rw [List.filterMap_append, mid_order]
    exact List.mem_append_left _ member
  intro log member d in_log
  rcases ended with in_begin | ⟨tr, tr_member, result, active⟩
  · have bound := replay_ended replay_b in_begin
    have idle := still_run middle sound_b (by omega) (logs log member) d in_log
    simp [Done.harmless, idle]
  · -- the phase is active where the call was made, so under the epoch its begin committed
    have returns := returned_ended (sounds tr tr_member).1 result active (formed tr tr_member).1
    obtain ⟨xs, ys, cut⟩ := List.append_of_mem tr_member
    have run' := run
    rw [cut] at run'
    obtain ⟨x, x_member, begins, active_x, same_epoch⟩ := active_run run'.split_cons.1 active
    have x_is_b : x = b :=
      begins_once run ⟨_, _, logged, begun⟩ (by rw [cut]; simp [x_member]) begins
    rw [x_is_b] at active_x same_epoch
    exact ended_run middle sound_b active_x (by omega) (logs log member) d in_log

/-- What is completed is active no more. -/
theorem completed_run {p : String} {pre post : List (Transition (LockState ι Fence Done) _)}
    {tr later : Transition (LockState ι Fence Done) (LockAct ι FenceCall)}
    (run : Run fenceStep (lockStart Fence.installed) (pre ++ tr :: post) u)
    (completed : tr.target.committed.completed p = true) (member : later ∈ post) :
    later.target.committed.active_phase ≠ some p := by
  intro active
  obtain ⟨xs, ys, rfl⟩ := List.append_of_mem member
  have sound := (sound_run run (sound_start _)).2
  have formed := (wellFormed_run run later (by simp)).2
  -- from the completion to the later step, that step taken
  obtain ⟨first, taken, -⟩ := (run.split_cons).2.2.split_cons
  have grows := (grows_run first (sound tr (by simp)).2).trans
    (grows_run (.single taken) (sound later (by simp)).1)
  have still := grows.completes completed
  rw [((formed.active p).mp active).2] at still
  cases still

/-- In every run: a phase is active exactly while it is begun and not completed, and it is
completed once; nothing is committed over an active phase unless its end comes first, and a
guarded mutation is made where no phase is active; the epoch counts what was committed and was no
repetition; and who continues under the epoch that the end of a phase returned continues over what
the phase began with. -/
theorem phase_fence (run : Run fenceStep (lockStart Fence.installed) ts u) :
    (∀ tr ∈ ts, tr.source.committed.WellFormed ∧ tr.target.committed.WellFormed) ∧
    (∀ tr ∈ ts, ∀ log, committedLog tr = some log →
      (∀ p, tr.source.committed.active_phase = some p →
        log = [] ∨ ∃ d rest, log = d :: rest ∧ d.ends p = true) ∧
      (∀ before epoch after, log = before ++ .mutated epoch :: after →
        ∃ view, Replay Fence.call tr.source.committed before view ∧ view.active_phase = none) ∧
      tr.target.committed.epoch =
        tr.source.committed.epoch + log.countP Done.effective) ∧
    (∀ tr ∈ ts, committedLog tr = none → tr.target.committed = tr.source.committed) ∧
    (∀ p pre tr post, ts = pre ++ tr :: post → tr.target.committed.completed p = true →
      ∀ later ∈ post, later.target.committed.active_phase ≠ some p) ∧
    ∀ p e epoch pre begin_ mid continue_ post,
      ts.filterMap committedLog = pre ++ begin_ :: mid ++ continue_ :: post →
      .begun p epoch ∈ begin_ → .asserted e ∈ continue_ →
      (.ended p e ∈ begin_ ∨ ∃ tr ∈ ts, returned Fence.call tr = some (.ended p e) ∧
        tr.source.committed.active_phase = some p) →
      ∀ log ∈ mid, ∀ d ∈ log, d.harmless p = true := by
  refine ⟨wellFormed_run run, ?_, ?_, ?_, ?_⟩
  · intro tr member log logged
    have replay := commits_run run (sound_start _) member logged
    refine ⟨fun p active => replay_active replay active, ?_, replay_epoch replay⟩
    rintro before epoch after rfl
    exact replay_mutated replay
  · intro tr member quiet
    cases lockStep_commits (run.steps tr member) with
    | none unchanged => exact unchanged
    | some _ log =>
      rw [quiet] at log
      cases log
  · rintro p pre tr post rfl completed later member
    exact completed_run run completed member
  · intro p e epoch pre begin_ mid continue_ post order begun asserted ended
    exact continuation_fenced run order begun asserted ended

end Runs

/-! ### A phase finished twice -/

def owner : Session := ⟨.inc03_intake_runtime, 7⟩

/-- A cancelled reception, as the phase that fences its original reads it. -/
def cancelReads : BeginReads where
  live := some ⟨true, "source", "incarnation", 100000, 1, 1⟩
  namespace_admission := [⟨"intake_trial", "source", 1, true⟩]
  evidence _ := [⟨"evidence", "effect", "cancel_reception", 7, 1, 200, 0, some "reception",
    some "artifact", some 1, "principal"⟩]
  attempts _ := [⟨"reception", 1, "artifact", "incarnation", "active", 100000, "principal", false,
    1⟩]
  receipts _ := []

def begins : FenceCall :=
  .begin_phase owner cancelReads ⟨"p", "intake_trial", "evidence", "source", "incarnation",
    .object [("objects", .array [.text "fence"])], 1000⟩ 0

def finishes : FenceCall :=
  .finish_phase owner ⟨"p", "source", "incarnation", "evidence",
    .object [("objects", .object [("id", .text "p"), ("profile", .text "intake-phase-closed/1"),
      ("participant", .text "objects")])]⟩ 0

def phaseActs (others : List (LockAct (Fin 4) FenceCall)) (expected : Nat) :
    List (LockAct (Fin 4) FenceCall) :=
  [.statement 0 begins, .commit 0, .statement 1 finishes, .commit 1] ++ others ++
    [.statement 3 (.assert_fence_epoch expected), .commit 3]

def phaseRun (acts : List (LockAct (Fin 4) FenceCall)) :
    List (Transition (LockState (Fin 4) Fence Done) (LockAct (Fin 4) FenceCall)) :=
  Foundation.transitions fenceStep (lockStart Fence.installed) acts

theorem phase_fence_once :
    ∃ ts u, Run fenceStep (lockStart (ι := Fin 4) Fence.installed) ts u ∧
      ts.filterMap committedLog = [[.begun "p" 2], [.ended "p" 3], [.asserted 3]] ∧
      ∀ d ∈ [Done.ended "p" 3], d.harmless "p" = true := by
  have performed : (perform fenceStep (lockStart Fence.installed) (phaseActs [] 3)).isSome = true :=
    by decide +kernel
  have order : (phaseRun (phaseActs [] 3)).filterMap committedLog =
      [] ++ [.begun "p" 2] :: [[.ended "p" 3]] ++ [.asserted 3] :: [] := by decide +kernel
  have ended : ∃ tr ∈ phaseRun (phaseActs [] 3), returned Fence.call tr = some (.ended "p" 3) ∧
      tr.source.committed.active_phase = some "p" := by
    have found : ((phaseRun (phaseActs [] 3)).any fun tr =>
        decide (returned Fence.call tr = some (.ended "p" 3)) &&
          decide (tr.source.committed.active_phase = some "p")) = true := by decide +kernel
    obtain ⟨tr, member, both⟩ := List.any_eq_true.mp found
    rw [Bool.and_eq_true, decide_eq_true_iff, decide_eq_true_iff] at both
    exact ⟨tr, member, both⟩
  obtain ⟨u, performed⟩ := Option.isSome_iff_exists.mp performed
  have run := run_of_perform _ _ _ _ performed
  refine ⟨_, u, run, order, ?_⟩
  exact (phase_fence run).2.2.2.2 "p" 3 2 [] [.begun "p" 2] [[.ended "p" 3]] [.asserted 3] [] order
    List.mem_cons_self List.mem_cons_self (.inr ended) _ List.mem_cons_self

/-- The call that repeats an end answers with the epoch of the head, which a mutation has moved:
who continues under it does so over the mutation. -/
theorem repeated_end_forgets :
    ∃ ts u, Run fenceStep (lockStart (ι := Fin 4) Fence.installed) ts u ∧
      ts.filterMap committedLog =
        [[.begun "p" 2], [.ended "p" 3], [.mutated 4], [.repeated "p" 4], [.asserted 4]] := by
  have performed : (perform fenceStep (lockStart Fence.installed) (phaseActs
      [.statement 2 .source_mutation, .commit 2, .statement 1 finishes, .commit 1] 4)).isSome =
        true := by decide +kernel
  obtain ⟨u, performed⟩ := Option.isSome_iff_exists.mp performed
  exact ⟨_, u, run_of_perform _ _ _ _ performed, by decide +kernel⟩

end LedgerDesk.Intake
