import LedgerDesk.Reception.Standing

/-!
# The lifecycle of a reception

Runs of the service over any receptions. The calls are cut at their commits, each goes on with
rows that it has read before, and a call that never comes back is one whose later acts are missing.
-/
namespace LedgerDesk.Reception

open Foundation Foundation.Rows
open Intake (Raised)

variable {d d' : Data} {w w' : ReceptionWorld} {r r' : ReceptionRow} {a a' : Attempt}
  {act : ReceptionAct} {ts us : List (Transition ReceptionWorld ReceptionAct)}
  {target : String} {generation : Nat}

/-! ### What a step can do -/

namespace ReceptionWorld

theorem commit_eq_some {committed : Committed} :
    w.commit committed = some w' ↔ ∃ d, committed = .ok d ∧ w' = { w with data := d } := by
  simp only [commit, Option.map_eq_some_iff, toOption_eq_some]
  exact exists_congr fun d => and_congr_right fun _ => eq_comm

theorem hold_eq_some {expected_generation : Nat}
    (taken : w.step (.hold target expected_generation) = some w') :
    ∃ rows, w.data.selected target = .ok rows ∧
      w.data.resumable rows.1 rows.2 expected_generation = .ok () ∧
      w' = { w with quota := some rows } := by
  simp only [step, Option.bind_eq_bind, Option.bind_eq_some_iff, Option.guard_eq_some',
    toOption_eq_some] at taken
  obtain ⟨_, -, rows, selected, _, resumable, done⟩ := taken
  exact ⟨rows, selected, resumable, (Option.some_inj.mp done).symm⟩

theorem resume_eq_some {guard : Except Raised Unit} {call : Call}
    {artifact_id incarnation : String} {deadline : Nat}
    (taken : w.step (.resume guard call artifact_id incarnation deadline) = some w') :
    ∃ rows d, w.quota = some rows ∧
      w.data.resume guard rows.1 rows.2 call artifact_id incarnation deadline = .ok d ∧
      w' = { data := d, quota := none } := by
  simp only [step, Option.bind_eq_bind, Option.bind_eq_some_iff, toOption_eq_some] at taken
  obtain ⟨rows, held, d, resumed, done⟩ := taken
  exact ⟨rows, d, held, resumed, (Option.some_inj.mp done).symm⟩

theorem reserve_eq_some {b : Reservation} (taken : w.step (.reserve b) = some w') :
    ∃ d, w.quota = none ∧ w.data.reserve b = .ok d ∧ w' = { w with data := d } := by
  rw [step] at taken
  split at taken
  · next free =>
    obtain ⟨d, reserved, done⟩ := commit_eq_some.mp taken
    exact ⟨d, Option.isNone_iff_eq_none.mp free, reserved, done⟩
  · cases taken

/-- A step touches one reception, or at most notes an intention. -/
theorem step_touches (sound : Sound w.data) (taken : w.step act = some w') :
    (∃ intentions, w'.data = { w.data with intentions := intentions }) ∨
      ∃ r', Touches w.data w'.data r' := by
  cases act with
  | reserve b =>
    obtain ⟨d, -, reserved, rfl⟩ := reserve_eq_some taken
    exact .inr (reserve_touches sound reserved)
  | chunk associated target generation consumed next =>
    obtain ⟨d, done, rfl⟩ := commit_eq_some.mp taken
    exact .inr (appendChunk_touches sound done)
  | stage reception attempt =>
    obtain ⟨d, done, rfl⟩ := commit_eq_some.mp taken
    exact .inr (stageOriginal_touches sound done)
  | finalize reception attempt artifact call =>
    obtain ⟨d, done, rfl⟩ := commit_eq_some.mp taken
    exact .inr (finalize_touches sound done)
  | cancel guard reception attempt call =>
    obtain ⟨d, done, rfl⟩ := commit_eq_some.mp taken
    obtain ⟨r, a, current, -, -, rfl⟩ := cancel_eq_ok sound done
    exact .inr ⟨_, afterStop_touches sound current _⟩
  | requestStop reception call =>
    obtain ⟨d, done, rfl⟩ := commit_eq_some.mp taken
    obtain ⟨-, -, rfl⟩ := requestStop_eq_ok done
    exact .inl ⟨_, rfl⟩
  | finishStop guard reception =>
    obtain ⟨d, done, rfl⟩ := commit_eq_some.mp taken
    obtain ⟨r, a, current, rfl⟩ := finishStop_eq_ok sound done
    exact .inr ⟨_, afterStop_touches sound current _⟩
  | hold target expected_generation =>
    obtain ⟨rows, -, -, rfl⟩ := hold_eq_some taken
    exact .inl ⟨_, rfl⟩
  | resume guard call artifact_id incarnation deadline =>
    obtain ⟨rows, d, -, resumed, rfl⟩ := resume_eq_some taken
    exact .inr (resume_touches sound resumed)
  | leave =>
    cases taken
    exact .inl ⟨_, rfl⟩
  | incomplete target generation incarnation session unresolved =>
    obtain ⟨d, done, rfl⟩ := commit_eq_some.mp taken
    rcases recordIncomplete_touches sound done with rfl | touched
    · exact .inl ⟨_, rfl⟩
    · exact .inr touched

theorem step_sound (sound : Sound w.data) (taken : w.step act = some w') : Sound w'.data := by
  rcases step_touches sound taken with ⟨intentions, same⟩ | ⟨r', touches⟩
  · rw [same]
    exact sound.intentions intentions
  · exact touches.sound sound

theorem run_sound (run : Run step w ts w') (sound : Sound w.data) :
    Sound w'.data ∧ ∀ tr ∈ ts, Sound tr.source.data ∧ Sound tr.target.data :=
  run.invariant (P := fun w => Sound w.data) (fun _ _ _ taken sound => step_sound sound taken) sound

/-- A reception that is stopped stays as it is, with the receipts that it has. -/
theorem run_stopped (run : Run step w ts w') (sound : Sound w.data) (member : r ∈ w.data.receptions)
    (stopped : r.stopped = true) :
    r ∈ w'.data.receptions ∧
      ∀ e ∈ w'.data.receipts, e.reception_id = r.id → e ∈ w.data.receipts := by
  induction run with
  | done => exact ⟨member, fun e held _ => held⟩
  | @step w t _ _ _ taken _ ih =>
    have kept : r ∈ t.data.receptions ∧
        ∀ e ∈ t.data.receipts, e.reception_id = r.id → e ∈ w.data.receipts := by
      rcases step_touches sound taken with ⟨intentions, same⟩ | ⟨r', touches⟩
      · rw [same]
        exact ⟨member, fun e held _ => held⟩
      · exact touches.stopped member stopped
    obtain ⟨later, receipts⟩ := ih (step_sound sound taken) kept.1
    exact ⟨later, fun e held own => kept.2 e (receipts e held own) own⟩

end ReceptionWorld

/-! ### The quota -/

/-- What the call with the lock of the quota is about to reserve. -/
def ReceptionWorld.pending (w : ReceptionWorld) : Nat :=
  match w.quota with
  | some rows => rows.1.declaration.bytes
  | none => 0

/-- The quota is kept, with what is about to be reserved. -/
structure Bounded (w : ReceptionWorld) : Prop where
  receptions : w.data.receptions.length ≤ ReceptionBounds.receptions
  storage : w.data.quota + w.pending ≤ ReceptionBounds.storageBytes
  read : ∀ rows, w.quota = some rows →
    ∃ r ∈ w.data.receptions, r.id = rows.1.id ∧ r.declaration = rows.1.declaration

theorem Bounded.installed : Bounded .installed where
  receptions := by decide
  storage := by decide
  read := by simp [ReceptionWorld.installed]

/-- A declaration is never changed. -/
theorem Touches.declaration (touches : Touches d d' r') (member : r ∈ d.receptions) :
    ∃ q ∈ d'.receptions, q.id = r.id ∧ q.declaration = r.declaration := by
  by_cases same : r.id = r'.id
  · exact ⟨r', (touches.receptions r').mpr (.inl rfl), same.symm, touches.declared r member same⟩
  · exact ⟨r, (touches.receptions r).mpr (.inr ⟨member, same⟩), rfl, rfl⟩

theorem quota_put (sound : Sound d) (member : a ∈ d.attempts) (key : a'.key = a.key)
    (reserved : a'.reserved_bytes = a.reserved_bytes) :
    ((put Attempt.key a' d.attempts).map Attempt.reserved_bytes).sum = d.quota := by
  rw [map_put sound.attempts_apart member key reserved, Data.quota]

/-- A transaction that adds neither a reception nor an attempt leaves the quota as it is. -/
structure Levels (d d' : Data) : Prop where
  receptions : d'.receptions.length = d.receptions.length
  quota : d'.quota = d.quota

theorem Bounded.levels (bounded : Bounded w)
    (touched : (∃ intentions, d' = { w.data with intentions := intentions }) ∨
      ∃ r', Touches w.data d' r') (levels : Levels w.data d') :
    Bounded { w with data := d' } where
  receptions := by
    rw [levels.receptions]
    exact bounded.receptions
  storage := by
    show d'.quota + w.pending ≤ _
    rw [levels.quota]
    exact bounded.storage
  read := by
    intro rows held
    obtain ⟨r, member, id, declaration⟩ := bounded.read rows held
    rcases touched with ⟨intentions, rfl⟩ | ⟨r', touches⟩
    · exact ⟨r, member, id, declaration⟩
    · obtain ⟨q, among, same, declared⟩ := touches.declaration member
      exact ⟨q, among, same.trans id, declared.trans declaration⟩

theorem ReceptionWorld.step_bounded (sound : Sound w.data) (bounded : Bounded w)
    (taken : w.step act = some w') : Bounded w' := by
  have touched := step_touches sound taken
  cases act with
  | reserve b =>
    obtain ⟨d, free, reserved, rfl⟩ := reserve_eq_some taken
    obtain ⟨-, few, room, -, -, rfl⟩ := reserve_eq_ok reserved
    refine ⟨?_, ?_, fun rows held => ?_⟩
    · rw [List.length_append]
      exact few
    · simp only [pending, free, Data.quota, List.map_append, List.map_cons, List.map_nil,
        List.sum_append, List.sum_cons, List.sum_nil] at room ⊢
      exact room
    · rw [free] at held
      cases held
  | chunk associated target generation consumed next =>
    obtain ⟨d, done, rfl⟩ := commit_eq_some.mp taken
    refine bounded.levels touched ?_
    obtain ⟨r, a, current, -, -, -, -, -, rfl⟩ := appendChunk_eq_ok sound done
    exact ⟨length_put, quota_put sound current.attempt rfl rfl⟩
  | stage reception attempt =>
    obtain ⟨d, done, rfl⟩ := commit_eq_some.mp taken
    refine bounded.levels touched ?_
    obtain ⟨r, a, current, -, -, -, -, -, rfl⟩ := stageOriginal_eq_ok sound done
    exact ⟨length_put, quota_put sound current.attempt rfl rfl⟩
  | finalize reception attempt artifact call =>
    obtain ⟨d, done, rfl⟩ := commit_eq_some.mp taken
    refine bounded.levels touched ?_
    obtain ⟨r, a, e, o, -, evidence, rfl⟩ := finalize_eq_ok sound done
    exact ⟨length_put, rfl⟩
  | cancel guard reception attempt call =>
    obtain ⟨d, done, rfl⟩ := commit_eq_some.mp taken
    refine bounded.levels touched ?_
    obtain ⟨r, a, current, -, -, rfl⟩ := cancel_eq_ok sound done
    exact ⟨length_put, quota_put sound current.attempt Attempt.fence_key Attempt.fence_reserved⟩
  | requestStop reception call =>
    obtain ⟨d, done, rfl⟩ := commit_eq_some.mp taken
    refine bounded.levels touched ?_
    obtain ⟨-, -, rfl⟩ := requestStop_eq_ok done
    exact ⟨rfl, rfl⟩
  | finishStop guard reception =>
    obtain ⟨d, done, rfl⟩ := commit_eq_some.mp taken
    refine bounded.levels touched ?_
    obtain ⟨r, a, current, rfl⟩ := finishStop_eq_ok sound done
    exact ⟨length_put, quota_put sound current.attempt Attempt.fence_key Attempt.fence_reserved⟩
  | hold target expected_generation =>
    obtain ⟨rows, selected, resumable, rfl⟩ := hold_eq_some taken
    simp only [Data.resumable, except_bind_eq_ok, ensure_eq_ok, decide_eq_true_eq] at resumable
    obtain ⟨_, -, room⟩ := resumable
    refine ⟨bounded.receptions, room, fun rows' held => ?_⟩
    cases held
    obtain ⟨member, -, -⟩ := selected_eq_ok selected
    exact ⟨_, member, rfl, rfl⟩
  | resume guard call artifact_id incarnation deadline =>
    obtain ⟨rows, d, held, resumed, rfl⟩ := resume_eq_some taken
    obtain ⟨r, a, current, id, -, -, -, -, rfl⟩ := resume_eq_ok sound resumed
    -- What the call has counted is what the attempt reserves.
    obtain ⟨q, among, same, declared⟩ := bounded.read rows held
    rw [eq_of_key sound.receptions_apart among current.reception (same.trans id.symm)] at declared
    refine ⟨?_, ?_, fun rows held => by cases held⟩
    · rw [length_put]
      exact bounded.receptions
    · have room := bounded.storage
      have kept : ((put Attempt.key { a with state := .fenced } w.data.attempts).map
          Attempt.reserved_bytes).sum = w.data.quota := quota_put sound current.attempt rfl rfl
      simp only [pending, held, ← declared] at room
      simpa only [pending, Data.quota, List.map_append, List.map_cons, List.map_nil,
        List.sum_append, List.sum_cons, List.sum_nil, nextAttempt, kept, Nat.add_zero] using room
  | leave =>
    cases taken
    refine ⟨bounded.receptions, ?_, fun rows held => by cases held⟩
    exact Nat.le_trans (Nat.le_add_right _ _) bounded.storage
  | incomplete target generation incarnation session unresolved =>
    obtain ⟨d, done, rfl⟩ := commit_eq_some.mp taken
    refine bounded.levels touched ?_
    rcases recordIncomplete_eq_ok sound done with rfl | ⟨r, a, current, -, -, rfl⟩
    · exact ⟨rfl, rfl⟩
    · exact ⟨length_put, quota_put sound current.attempt rfl rfl⟩

/-! ### The chunks of an attempt -/

/-- The chunk that a transition records in the attempt. -/
def chunkOf (target : String) (generation : Nat)
    (tr : Transition ReceptionWorld ReceptionAct) : Option (Nat × Nat) :=
  match tr.act with
  | .chunk _ t g consumed next =>
    if (t, g) = (target, generation) then some (consumed, next) else none
  | _ => none

def recorded (ts : List (Transition ReceptionWorld ReceptionAct)) (target : String)
    (generation : Nat) : List (Nat × Nat) :=
  ts.filterMap (chunkOf target generation)

/-- The chunks follow on each other from 0. -/
inductive Contiguous : List (Nat × Nat) → Nat → Prop
  | start : Contiguous [] 0
  | chunk {chunks : List (Nat × Nat)} {consumed next : Nat} :
      Contiguous chunks consumed → consumed < next → Contiguous (chunks ++ [(consumed, next)]) next

/-- The bytes of an attempt are the chunks that were recorded in it. -/
structure Captured (ts : List (Transition ReceptionWorld ReceptionAct)) (d : Data) : Prop where
  bytes : ∀ a ∈ d.attempts, Contiguous (recorded ts a.reception_id a.generation) a.actual_bytes
  others : ∀ target generation, (∀ a ∈ d.attempts, a.key ≠ (target, generation)) →
    recorded ts target generation = []

/-- An attempt has the bytes that it had, and a new one has none. -/
structure Carries (d d' : Data) : Prop where
  keys : ∀ a ∈ d.attempts, ∃ b ∈ d'.attempts, b.key = a.key
  bytes : ∀ b ∈ d'.attempts,
    (∃ a ∈ d.attempts, a.key = b.key ∧ a.actual_bytes = b.actual_bytes) ∨
      ((∀ a ∈ d.attempts, a.key ≠ b.key) ∧ b.actual_bytes = 0)

theorem Carries.of_eq (same : d'.attempts = d.attempts) : Carries d d' where
  keys a member := ⟨a, same ▸ member, rfl⟩
  bytes b member := .inl ⟨b, same ▸ member, rfl, rfl⟩

theorem Carries.of_put (member : a ∈ d.attempts)
    (attempts : d'.attempts = put Attempt.key a' d.attempts) (key : a'.key = a.key)
    (bytes : a'.actual_bytes = a.actual_bytes) : Carries d d' where
  keys b held := by
    rw [attempts]
    by_cases same : b.key = a'.key
    · exact ⟨a', row_mem_put ⟨a, member, key.symm⟩, same.symm⟩
    · exact ⟨b, (mem_put ⟨a, member, key.symm⟩).mpr (.inr ⟨held, same⟩), rfl⟩
  bytes b held := by
    rw [attempts, mem_put ⟨a, member, key.symm⟩] at held
    rcases held with rfl | ⟨old, -⟩
    · exact .inl ⟨a, member, key.symm, bytes.symm⟩
    · exact .inl ⟨b, old, rfl, rfl⟩

theorem Carries.concat (carries : Carries d d') {d'' : Data}
    (attempts : d''.attempts = d'.attempts ++ [a]) (fresh : ∀ b ∈ d.attempts, b.key ≠ a.key)
    (empty : a.actual_bytes = 0) : Carries d d'' where
  keys b held := by
    obtain ⟨c, member, key⟩ := carries.keys b held
    exact ⟨c, attempts ▸ List.mem_append_left _ member, key⟩
  bytes b held := by
    rw [attempts] at held
    rcases List.mem_append.mp held with old | new
    · exact carries.bytes b old
    · rw [List.mem_singleton.mp new]
      exact .inr ⟨fresh, empty⟩

theorem recorded_concat {tr : Transition ReceptionWorld ReceptionAct} :
    recorded (ts ++ [tr]) target generation =
      recorded ts target generation ++ (chunkOf target generation tr).toList := by
  rw [recorded, List.filterMap_append, recorded]
  cases found : chunkOf target generation tr <;> simp [found]

theorem Captured.carried {tr : Transition ReceptionWorld ReceptionAct} (captured : Captured ts d)
    (carries : Carries d d') (silent : ∀ target generation, chunkOf target generation tr = none) :
    Captured (ts ++ [tr]) d' where
  bytes b member := by
    rw [recorded_concat, silent, Option.toList_none, List.append_nil]
    rcases carries.bytes b member with ⟨a, held, key, bytes⟩ | ⟨fresh, empty⟩
    · obtain ⟨of, at_generation⟩ := Prod.mk.inj key
      rw [← of, ← at_generation, ← bytes]
      exact captured.bytes a held
    · rw [captured.others _ _ fresh, empty]
      exact .start
  others target generation none := by
    rw [recorded_concat, silent, Option.toList_none, List.append_nil]
    apply captured.others
    intro a held key
    obtain ⟨b, member, same⟩ := carries.keys a held
    exact none b member (same.trans key)

/-- What a chunk adds is added to the attempt that it is recorded in. -/
theorem Captured.chunk {tr : Transition ReceptionWorld ReceptionAct} {next : Nat}
    (captured : Captured ts d) (member : a ∈ d.attempts)
    (attempts : d'.attempts = put Attempt.key a' d.attempts) (key : a'.key = a.key)
    (bytes : a'.actual_bytes = next) (advances : a.actual_bytes < next)
    (taken : ∀ target generation, chunkOf target generation tr =
      if a.key = (target, generation) then some (a.actual_bytes, next) else none) :
    Captured (ts ++ [tr]) d' where
  bytes b held := by
    rw [attempts, mem_put ⟨a, member, key.symm⟩] at held
    rw [recorded_concat, taken]
    rcases held with rfl | ⟨old, other⟩
    · obtain ⟨of, at_generation⟩ := Prod.mk.inj key
      have own : a.key = (a.reception_id, a.generation) := rfl
      rw [of, at_generation, if_pos own, bytes]
      exact .chunk (captured.bytes a member) advances
    · rw [if_neg fun same => other (same.symm.trans key.symm), Option.toList_none, List.append_nil]
      exact captured.bytes b old
  others target generation none := by
    rw [attempts] at none
    have apart : a.key ≠ (target, generation) := by
      intro same
      exact none a' (row_mem_put ⟨a, member, key.symm⟩) (key.trans same)
    rw [recorded_concat, taken, if_neg apart, Option.toList_none, List.append_nil]
    apply captured.others
    intro b held same
    refine none b ((mem_put ⟨a, member, key.symm⟩).mpr (.inr ⟨held, ?_⟩)) same
    intro itself
    exact apart (key.symm.trans (itself.symm.trans same))

namespace ReceptionWorld

theorem step_captured (sound : Sound w.data) (captured : Captured ts w.data)
    (taken : w.step act = some w') : Captured (ts ++ [⟨w, act, w'⟩]) w'.data := by
  cases act with
  | reserve b =>
    obtain ⟨d, -, reserved, rfl⟩ := reserve_eq_some taken
    obtain ⟨fresh, -, -, -, -, rfl⟩ := reserve_eq_ok reserved
    refine captured.carried ((Carries.of_eq rfl).concat rfl ?_ rfl) fun _ _ => rfl
    intro a member same
    obtain ⟨r, held, of⟩ := sound.attempt_of a member
    exact fresh r held (of.trans (congrArg Prod.fst same))
  | chunk associated target generation consumed next =>
    obtain ⟨d, done, rfl⟩ := commit_eq_some.mp taken
    obtain ⟨r, a, current, -, -, previous, advances, -, rfl⟩ := appendChunk_eq_ok sound done
    refine captured.chunk current.attempt rfl rfl rfl (previous ▸ advances) fun t g => ?_
    rw [current.key, previous]
    rfl
  | stage reception attempt =>
    obtain ⟨d, done, rfl⟩ := commit_eq_some.mp taken
    obtain ⟨r, a, current, -, -, -, -, -, rfl⟩ := stageOriginal_eq_ok sound done
    exact captured.carried (.of_put current.attempt rfl rfl rfl) fun _ _ => rfl
  | finalize reception attempt artifact call =>
    obtain ⟨d, done, rfl⟩ := commit_eq_some.mp taken
    obtain ⟨r, a, e, o, -, evidence, rfl⟩ := finalize_eq_ok sound done
    exact captured.carried (.of_eq rfl) fun _ _ => rfl
  | cancel guard reception attempt call =>
    obtain ⟨d, done, rfl⟩ := commit_eq_some.mp taken
    obtain ⟨r, a, current, -, -, rfl⟩ := cancel_eq_ok sound done
    exact captured.carried
      (.of_put current.attempt rfl Attempt.fence_key Attempt.fence_actual) fun _ _ => rfl
  | requestStop reception call =>
    obtain ⟨d, done, rfl⟩ := commit_eq_some.mp taken
    obtain ⟨-, -, rfl⟩ := requestStop_eq_ok done
    exact captured.carried (.of_eq rfl) fun _ _ => rfl
  | finishStop guard reception =>
    obtain ⟨d, done, rfl⟩ := commit_eq_some.mp taken
    obtain ⟨r, a, current, rfl⟩ := finishStop_eq_ok sound done
    exact captured.carried
      (.of_put current.attempt rfl Attempt.fence_key Attempt.fence_actual) fun _ _ => rfl
  | hold target expected_generation =>
    obtain ⟨rows, -, -, rfl⟩ := hold_eq_some taken
    exact captured.carried (.of_eq rfl) fun _ _ => rfl
  | resume guard call artifact_id incarnation deadline =>
    obtain ⟨rows, d, held, resumed, rfl⟩ := resume_eq_some taken
    obtain ⟨r, a, current, -, -, -, -, -, rfl⟩ := resume_eq_ok sound resumed
    have fenced : Carries w.data { w.data with
        attempts := put Attempt.key { a with state := .fenced } w.data.attempts } :=
      .of_put current.attempt rfl rfl rfl
    refine captured.carried (fenced.concat rfl ?_ rfl) fun _ _ => rfl
    intro b member same
    have known := ((sound.stands r current.reception).fits b member (congrArg Prod.fst same)).known
    have next : b.generation = r.generation + 1 := congrArg Prod.snd same
    omega
  | leave =>
    cases taken
    exact captured.carried (.of_eq rfl) fun _ _ => rfl
  | incomplete target generation incarnation session unresolved =>
    obtain ⟨d, done, rfl⟩ := commit_eq_some.mp taken
    rcases recordIncomplete_eq_ok sound done with rfl | ⟨r, a, current, -, -, rfl⟩
    · exact captured.carried (.of_eq rfl) fun _ _ => rfl
    · exact captured.carried (.of_put current.attempt rfl rfl rfl) fun _ _ => rfl

theorem run_captured (run : Run step .installed ts w) : Captured ts w.data := by
  have kept := run.traced (P := fun ts w => Sound w.data ∧ Captured ts w.data) ?_ []
    ⟨.installed, by simp [installed, Data.installed], fun _ _ _ => rfl⟩
  · exact kept.2
  · intro before s act t taken held
    exact ⟨step_sound held.1 taken, step_captured held.1 held.2 taken⟩

/-! ### A run -/

def aReservation (id : String) (bytes : Nat) : Reservation where
  id := id
  operation_id := id ++ "-operation"
  artifact_id := id ++ "-artifact"
  effect_id := id ++ "-effect"
  principal := "principal"
  person_ref := "person"
  session := "session"
  client_key := id ++ "-key"
  payload_digest := id ++ "-payload"
  incarnation := "incarnation"
  deadline := 60000
  original := ⟨bytes, "digest"⟩

def aCall (name artifact : String) (generation : Nat) : Call where
  principal := "principal"
  client_key := name ++ "-key"
  payload_digest := name ++ "-payload"
  operation_id := name ++ "-operation"
  evidence_id := name ++ "-evidence"
  receipt_id := name ++ "-receipt"
  job_id := name ++ "-job"
  load_original := (artifact, generation)

/-- The rows that a call has read of the reception in its second generation. -/
def aReading (state : ReceptionState) (revision : Nat) (held : AttemptState) :
    ReceptionRow × Attempt :=
  let rows := newReception (aReservation "first" 100)
  ({ rows.1 with state := state, revision := revision, generation := 2 },
    { rows.2 with state := held, generation := 2, artifact_id := "next" })

/-- One of two receptions is interrupted, resumed and staged. -/
def stagedActs : List ReceptionAct :=
  let read := aReading .receiving 3 .receiving
  [.reserve (aReservation "first" 100), .reserve (aReservation "second" 7),
    .chunk true "first" 1 0 40, .incomplete "first" 1 "incarnation" "session" false,
    .hold "first" 1, .resume (.ok ()) (aCall "resume" "" 0) "next" "incarnation" 60000,
    .chunk true "first" 2 0 30, .chunk true "first" 2 30 100, .stage read.1 read.2]

/-- It is received, and then stopped. -/
def finalActs : List ReceptionAct :=
  let staged := aReading .staged 4 .sealed
  let received := aReading .received 5 .sealed
  stagedActs ++ [
    .finalize staged.1 staged.2 ⟨"next", "first", 2, 100, "digest"⟩ (aCall "finalize" "next" 2),
    .cancel (.ok ()) received.1 received.2 (aCall "cancel" "" 0)]

/-! ### The lifecycle -/

/-- The receipt is the only one of a reception that is received or stopped, and of its current
attempt: sealed, with what was declared, which came in chunks from the first byte to the last. -/
structure OfWholeOriginal (ts : List (Transition ReceptionWorld ReceptionAct)) (d : Data)
    (e : Receipt) (r : ReceptionRow) (a : Attempt) : Prop where
  only : ∀ e' ∈ d.receipts, e'.reception_id = e.reception_id → e' = e
  reception : r ∈ d.receptions ∧ r.id = e.reception_id ∧ r.effect_slot = e.effect_id
  state : r.state = .received ∨ r.state = .stopped
  attempt : a ∈ d.attempts ∧ a.reception_id = r.id ∧ a.generation = r.generation
  original : a.artifact_id = e.artifact_id ∧ e.generation = r.generation
  sealed : a.state = .sealed ∧ a.actual_sha256 = some r.declaration.sha256 ∧
    a.actual_bytes = r.declaration.bytes
  declared : e.bytes = r.declaration.bytes ∧ e.sha256 = r.declaration.sha256
  chunks : Contiguous (recorded ts r.id r.generation) r.declaration.bytes

/-- A receipt is of a whole original, and a reception that is received has one. -/
theorem receipt_of_whole_original (run : Run step .installed ts w) :
    (∀ e ∈ w.data.receipts, ∃ r a, OfWholeOriginal ts w.data e r a) ∧
      ∀ r ∈ w.data.receptions, r.state = .received →
        ∃ e ∈ w.data.receipts, e.reception_id = r.id := by
  obtain ⟨sound, -⟩ := run_sound run .installed
  refine ⟨fun e member => ?_, fun r member now => (sound.stands r member).received now⟩
  obtain ⟨r, held, of⟩ := sound.receipt_of e member
  have stands := sound.stands r held
  have receipted := stands.receipt e member of.symm
  obtain ⟨a, original⟩ := receipted.original
  obtain ⟨own, at_generation⟩ := Prod.mk.inj original.key
  have fits := stands.fits a original.member own
  obtain ⟨whole, digest⟩ := fits.whole original.state
  have current : a.generation = r.generation := at_generation.trans receipted.generation
  have bytes : a.actual_bytes = r.declaration.bytes := whole.trans fits.declared
  refine ⟨r, a, ?_, ⟨held, of, receipted.slot.symm⟩, receipted.state,
    ⟨original.member, own, current⟩, ⟨original.artifact, receipted.generation⟩,
    ⟨original.state, digest, bytes⟩, ⟨receipted.bytes, receipted.digest⟩, ?_⟩
  · exact fun e' among same => eq_of_key sound.receipts_apart among member same
  · rw [← bytes, ← own, ← current]
    exact (run_captured run).bytes a original.member

/-- A resumed reception that was received and then stopped. -/
theorem receipt_of_whole_original_resumed : ∃ ts w, Run step .installed ts w ∧
    w.data.receipts.length = 1 ∧ w.data.receptions.map ReceptionRow.state = [.stopped, .reserved] ∧
    ∀ e ∈ w.data.receipts, ∃ r a, OfWholeOriginal ts w.data e r a := by
  have facts : ((perform step .installed finalActs).map fun w => (w.data.receipts.length,
      w.data.receptions.map ReceptionRow.state)) = some (1, [.stopped, .reserved]) := by
    decide +kernel
  obtain ⟨w, performed, facts⟩ := Option.map_eq_some_iff.mp facts
  obtain ⟨one, states⟩ := Prod.mk.inj facts
  have run := run_of_perform step finalActs .installed w performed
  exact ⟨_, w, run, one, states, (receipt_of_whole_original run).1⟩

/-- A stopped reception stays as it is and gets no receipt, a chunk goes into the open attempt of an
open reception, and the attempts of earlier generations are fenced, of three at most. -/
theorem stopped_and_fenced (run : Run step .installed ts w) :
    (∀ tr ∈ ts, ∀ r ∈ tr.source.data.receptions, r.stopped = true → r ∈ w.data.receptions ∧
      ∀ e ∈ w.data.receipts, e.reception_id = r.id → e ∈ tr.source.data.receipts) ∧
    (∀ tr ∈ ts, ∀ associated target generation consumed next,
      tr.act = .chunk associated target generation consumed next →
        ∃ r a, Current tr.source.data target generation r a ∧ r.isOpen ∧ a.isOpen ∧
          a.actual_bytes = consumed) ∧
    ∀ r ∈ w.data.receptions, 1 ≤ r.generation ∧ r.generation ≤ ReceptionBounds.attempts ∧
      (r.stopped = true ↔ r.state = .stopped) ∧
      ∀ a ∈ w.data.attempts, a.reception_id = r.id →
        a.generation = r.generation ∨ (a.generation < r.generation ∧ a.state = .fenced) := by
  obtain ⟨sound, between⟩ := run_sound run .installed
  refine ⟨?_, ?_, ?_⟩
  · intro tr member r held stopped
    obtain ⟨before, after, rfl⟩ := List.append_of_mem member
    obtain ⟨-, taken, rest⟩ := run.split_cons
    exact run_stopped (.step taken rest) (between tr member).1 held stopped
  · intro tr member associated target generation consumed next chunk
    have taken := run.steps tr member
    rw [chunk] at taken
    obtain ⟨d, done, -⟩ := commit_eq_some.mp taken
    obtain ⟨r, a, current, takes, opened, previous, -⟩ :=
      appendChunk_eq_ok (between tr member).1 done
    exact ⟨r, a, current, takes, opened, previous⟩
  · intro r member
    have stands := sound.stands r member
    refine ⟨stands.generations.1, stands.generations.2, stands.stopped, fun a held own => ?_⟩
    have fits := stands.fits a held own
    rcases Nat.lt_or_eq_of_le fits.known with earlier | current
    · exact .inr ⟨earlier, fits.fenced earlier⟩
    · exact .inl current

theorem stopped_and_fenced_resumed : ∃ ts w, Run step .installed ts w ∧
    w.data.receptions.map ReceptionRow.generation = [2, 1] ∧
    ∀ r ∈ w.data.receptions, ∀ a ∈ w.data.attempts, a.reception_id = r.id →
      a.generation = r.generation ∨ (a.generation < r.generation ∧ a.state = .fenced) := by
  have facts : ((perform step .installed finalActs).map fun w =>
      w.data.receptions.map ReceptionRow.generation) = some [2, 1] := by decide +kernel
  obtain ⟨w, performed, generations⟩ := Option.map_eq_some_iff.mp facts
  have run := run_of_perform step finalActs .installed w performed
  refine ⟨_, w, run, generations, fun r member => ?_⟩
  exact ((stopped_and_fenced run).2.2 r member).2.2.2

/-- What is reserved is within the quota, whatever calls are at work. -/
theorem quota_kept (run : Run step .installed ts w) :
    w.data.receptions.length ≤ ReceptionBounds.receptions ∧
      (w.data.attempts.map Attempt.reserved_bytes).sum ≤ ReceptionBounds.storageBytes := by
  have kept := (run.invariant (P := fun w => Sound w.data ∧ Bounded w)
    (fun s act t taken held => ⟨step_sound held.1 taken, step_bounded held.1 held.2 taken⟩)
    ⟨.installed, .installed⟩).1.2
  exact ⟨kept.receptions, Nat.le_trans (Nat.le_add_right _ _) kept.storage⟩

theorem quota_kept_resumed : ∃ ts w, Run step .installed ts w ∧
    (w.data.attempts.map Attempt.reserved_bytes).sum = 207 ∧
    (w.data.attempts.map Attempt.reserved_bytes).sum ≤ ReceptionBounds.storageBytes := by
  have facts : ((perform step .installed stagedActs).map fun w =>
      (w.data.attempts.map Attempt.reserved_bytes).sum) = some 207 := by decide +kernel
  obtain ⟨w, performed, total⟩ := Option.map_eq_some_iff.mp facts
  have run := run_of_perform step stagedActs .installed w performed
  exact ⟨_, w, run, total, (quota_kept run).2⟩

end ReceptionWorld

end LedgerDesk.Reception
