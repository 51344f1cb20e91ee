import LedgerDesk.Reception.Lifecycle
import LedgerDesk.Reception.Projection

/-!
# Every reception can be told of

The rules that an answer is checked by hold of the rows of every reception, in every state that the
service reaches, and a key that an effect was committed under is answered with that reception and
commits no second effect.
-/
namespace LedgerDesk.Reception

open Foundation Foundation.Rows
open Intake (Raised)

variable {d d' : Data} {w w' : ReceptionWorld} {r r' : ReceptionRow} {a a' : Attempt}
  {act : ReceptionAct} {ts us : List (Transition ReceptionWorld ReceptionAct)}
  {target : String} {generation : Nat}

/-! ### Receipts and work -/

/-- Every receipt has its work, which is stopped with its reception. -/
structure Worked (d : Data) : Prop where
  receipts_apart : (d.receipts.map Receipt.id).Nodup
  work_apart : (d.work.map Work.receipt_id).Nodup
  work_of : ∀ e ∈ d.receipts, ∀ r ∈ d.receptions, r.id = e.reception_id →
    ∃ j ∈ d.work, j.receipt_id = e.id ∧ (j.state = .stopped ↔ r.state = .stopped)

theorem Worked.installed : Worked .installed where
  receipts_apart := .nil
  work_apart := .nil
  work_of := by simp [Data.installed]

/-- Where receipts and work are as they were, a reception that has changed has no receipt. -/
theorem Worked.silent (worked : Worked d) (receipts : d'.receipts = d.receipts)
    (work : d'.work = d.work) (receptions : ∀ q ∈ d'.receptions,
      q ∈ d.receptions ∨ ∀ e ∈ d.receipts, e.reception_id ≠ q.id) : Worked d' where
  receipts_apart := by
    rw [receipts]
    exact worked.receipts_apart
  work_apart := by
    rw [work]
    exact worked.work_apart
  work_of := by
    intro e member q reception own
    rw [receipts] at member
    rw [work]
    rcases receptions q reception with held | none
    · exact worked.work_of e member q held own
    · exact absurd own.symm (none e member)

theorem receptions_of_put (same : r'.id = r.id) (none : ∀ e ∈ d.receipts, e.reception_id ≠ r.id) :
    ∀ q ∈ put ReceptionRow.id r' d.receptions,
      q ∈ d.receptions ∨ ∀ e ∈ d.receipts, e.reception_id ≠ q.id := by
  intro q member
  rcases eq_or_mem_of_mem_put member with rfl | held
  · rw [same]
    exact .inr none
  · exact .inl held

theorem Current.no_receipt (current : Current d target generation r a) (sound : Sound d)
    (takes : r.isOpen) : ∀ e ∈ d.receipts, e.reception_id ≠ r.id :=
  (sound.stands r current.reception).no_receipt (takes.ne (by simp)) current.unstopped

theorem finalize_worked {reception : ReceptionRow} {attempt : Attempt} {artifact : Artifact}
    {call : Call} (sound : Sound d) (worked : Worked d)
    (done : d.finalize reception attempt artifact call = .ok d') : Worked d' := by
  obtain ⟨r, a, e, o, finalized, evidence, rfl⟩ := finalize_eq_ok sound done
  refine ⟨nodup_concat worked.receipts_apart finalized.fresh,
    nodup_concat worked.work_apart finalized.idle, ?_⟩
  intro e' member q reception same
  have held : q = { r with state := .received, revision := r.revision + 1 } ∨
      (q ∈ d.receptions ∧ q.id ≠ r.id) :=
    (mem_put ⟨r, finalized.current.reception, by rfl⟩).mp reception
  rcases List.mem_append.mp member with old | new
  · -- An earlier receipt is of another reception.
    rcases held with rfl | ⟨held, -⟩
    · exact absurd same.symm (finalized.none e' old)
    · obtain ⟨j, work, of, stops⟩ := worked.work_of e' old q held same
      exact ⟨j, List.mem_append_left _ work, of, stops⟩
  · rw [List.mem_singleton.mp new] at same ⊢
    rcases held with rfl | ⟨-, other⟩
    · exact ⟨_, List.mem_append_right _ (List.mem_singleton_self _), rfl, by simp⟩
    · exact absurd (same.trans finalized.own) other

theorem afterStop_worked (worked : Worked d) (current : Current d r.id r.generation r a)
    (intentions : List Intention) : Worked { d.afterStop r a with intentions := intentions } := by
  refine ⟨worked.receipts_apart, ?_, ?_⟩
  · show ((update _ _ d.work).map Work.receipt_id).Nodup
    rw [map_update]
    · exact worked.work_apart
    · exact fun _ _ _ => rfl
  intro e member q reception same
  have held : q = { r with stopped := true, state := .stopped, revision := r.revision + 1 } ∨
      (q ∈ d.receptions ∧ q.id ≠ r.id) := (mem_put ⟨r, current.reception, by rfl⟩).mp reception
  rcases held with rfl | ⟨held, other⟩
  · obtain ⟨j, work, of, -⟩ := worked.work_of e member r current.reception same
    have stops : (d.receipts.any fun e => e.reception_id = r.id && e.id = j.receipt_id) = true :=
      List.any_eq_true.mpr ⟨e, member, by simp [← same, of]⟩
    exact ⟨_, mem_update_of_chosen work stops, of, by simp⟩
  · obtain ⟨j, work, of, stops⟩ := worked.work_of e member q held same
    refine ⟨j, mem_update_of_not work ?_, of, stops⟩
    -- Its receipt is of this reception, not of the stopped one.
    by_contra chosen
    simp only [Bool.not_eq_false, List.any_eq_true, Bool.and_eq_true, decide_eq_true_eq] at chosen
    obtain ⟨e', held', own', of'⟩ := chosen
    rw [eq_of_key worked.receipts_apart held' member (of'.trans of)] at own'
    exact other (same.trans own')

namespace ReceptionWorld

theorem step_worked (sound : Sound w.data) (worked : Worked w.data)
    (taken : w.step act = some w') : Worked w'.data := by
  cases act with
  | reserve b =>
    obtain ⟨d, -, reserved, rfl⟩ := reserve_eq_some taken
    obtain ⟨fresh, -, -, -, -, rfl⟩ := reserve_eq_ok reserved
    refine worked.silent rfl rfl fun q member => ?_
    rcases List.mem_append.mp member with old | new
    · exact .inl old
    · right
      intro e held same
      obtain ⟨r, among, of⟩ := sound.receipt_of e held
      rw [List.mem_singleton.mp new] at same
      exact fresh r among (of.trans same)
  | chunk associated target generation consumed next =>
    obtain ⟨d, done, rfl⟩ := commit_eq_some.mp taken
    obtain ⟨r, a, current, takes, -, -, -, -, rfl⟩ := appendChunk_eq_ok sound done
    exact worked.silent rfl rfl (receptions_of_put rfl (current.no_receipt sound takes))
  | stage reception attempt =>
    obtain ⟨d, done, rfl⟩ := commit_eq_some.mp taken
    obtain ⟨r, a, current, takes, -, -, -, -, rfl⟩ := stageOriginal_eq_ok sound done
    exact worked.silent rfl rfl (receptions_of_put rfl (current.no_receipt sound takes))
  | finalize reception attempt artifact call =>
    obtain ⟨d, done, rfl⟩ := commit_eq_some.mp taken
    exact finalize_worked sound worked done
  | cancel guard reception attempt call =>
    obtain ⟨d, done, rfl⟩ := commit_eq_some.mp taken
    obtain ⟨r, a, current, -, -, rfl⟩ := cancel_eq_ok sound done
    exact afterStop_worked worked current _
  | requestStop reception call =>
    obtain ⟨d, done, rfl⟩ := commit_eq_some.mp taken
    obtain ⟨-, -, rfl⟩ := requestStop_eq_ok done
    exact worked.silent rfl rfl fun q member => .inl member
  | finishStop guard reception =>
    obtain ⟨d, done, rfl⟩ := commit_eq_some.mp taken
    obtain ⟨r, a, current, rfl⟩ := finishStop_eq_ok sound done
    exact afterStop_worked worked current _
  | hold target expected_generation =>
    obtain ⟨rows, -, -, rfl⟩ := hold_eq_some taken
    exact worked
  | resume guard call artifact_id incarnation deadline =>
    obtain ⟨rows, d, -, resumed, rfl⟩ := resume_eq_some taken
    obtain ⟨r, a, current, -, -, -, none, -, rfl⟩ := resume_eq_ok sound resumed
    exact worked.silent rfl rfl (receptions_of_put rfl none)
  | leave =>
    cases taken
    exact worked
  | incomplete target generation incarnation session unresolved =>
    obtain ⟨d, done, rfl⟩ := commit_eq_some.mp taken
    rcases recordIncomplete_eq_ok sound done with rfl | ⟨r, a, current, takes, -, rfl⟩
    · exact worked
    · exact worked.silent rfl rfl (receptions_of_put rfl (current.no_receipt sound takes))

theorem run_worked (run : Run step .installed ts w) : Sound w.data ∧ Worked w.data :=
  (run.invariant (P := fun w => Sound w.data ∧ Worked w.data)
    (fun _ _ _ taken held => ⟨step_sound held.1 taken, step_worked held.1 held.2 taken⟩)
    ⟨.installed, .installed⟩).1

end ReceptionWorld

/-! ### Answers -/

/-- The rows of a reception are found by its id. -/
theorem Sound.selected (sound : Sound d) (member : r ∈ d.receptions) :
    ∃ a ∈ d.attempts, a.key = (r.id, r.generation) ∧ d.selected r.id = .ok (r, a) := by
  obtain ⟨a, held, key⟩ := (sound.stands r member).current
  refine ⟨a, held, key, ?_⟩
  have reception : d.receptions.find? (fun q => q.id = r.id) = some r :=
    find?_of_key sound.receptions_apart member
  have attempt : d.attempts.find? (fun b => b.of r.id r.generation) = some a := by
    rw [← find?_of_key sound.attempts_apart held, key]
    congr 1
    funext b
    rw [Bool.eq_iff_iff, Attempt.of_iff, decide_eq_true_eq]
  simp only [Data.selected, reception, attempt]

/-- What is found of a row that is there and the only one of its key. -/
theorem receipt_found (sound : Sound d) {e : Receipt} (member : e ∈ d.receipts)
    (own : e.reception_id = r.id) :
    (d.receipts.find? fun x => x.reception_id = r.id) = some e := by
  rw [← own]
  exact find?_of_key sound.receipts_apart member

theorem work_found (worked : Worked d) {e : Receipt} {j : Work} (member : j ∈ d.work)
    (of : j.receipt_id = e.id) : (d.work.find? fun x => x.receipt_id = e.id) = some j := by
  rw [← of]
  exact find?_of_key worked.work_apart member

theorem RECEPTION_RESPONSE_iff {value : ReceptionResponse} :
    RECEPTION_RESPONSE value = true ↔
      (0 < value.revision ∧ 0 < value.original.2.1 ∧ value.original.2.2.1 ≤ 1048576) ∧
      (value.effect = none ↔ value.work = none) ∧
      (value.state = .received → value.effect ≠ none) ∧
      (value.effect ≠ none → value.state = .received ∨ value.state = .stopped) ∧
      (∀ work, value.work = some work →
        work.2 = if value.state = .stopped then .stopped else .not_started) ∧
      (value.availability ∈ [.available, .missing, .corrupt] → value.effect ≠ none) := by
  rw [RECEPTION_RESPONSE]
  cases effect : value.effect <;> cases work : value.work <;> simp [and_assoc] <;> grind

/-- The answer about a reception passes the rules that it is checked by. -/
theorem response_passes (sound : Sound d) (worked : Worked d) (member : r ∈ d.receptions)
    (key : a.key = (r.id, r.generation)) (observed : String → Option Observation)
    (operation_id : String) : RECEPTION_RESPONSE (d.response observed r a operation_id) = true := by
  have stands := sound.stands r member
  have generation : a.generation = r.generation := congrArg Prod.snd key
  have numbers : 0 < r.revision ∧ 0 < a.generation ∧ r.declaration.bytes ≤ 1048576 := by
    rw [generation]
    exact ⟨stands.revised, stands.generations.1, stands.small⟩
  rw [RECEPTION_RESPONSE_iff]
  refine ⟨numbers, ?_⟩
  by_cases none : ∀ e ∈ d.receipts, e.reception_id ≠ r.id
  · -- Without a receipt there is neither effect nor work, and the reception is not received.
    have absent : (d.receipts.find? fun e => e.reception_id = r.id) = Option.none :=
      List.find?_eq_none.mpr fun e held => by simpa using none e held
    have unreceived : r.state ≠ .received := by
      intro now
      obtain ⟨e, held, own⟩ := stands.received now
      exact none e held own
    simp only [Data.response, absent, Option.map_none, Option.bind_none, Option.getD_none]
    refine ⟨trivial, fun now => absurd now unreceived, fun some => absurd rfl some, by simp,
      fun seen => ?_⟩
    split at seen <;> simp at seen
  · push Not at none
    obtain ⟨e, held, own⟩ := none
    obtain ⟨j, work, of, stops⟩ := worked.work_of e held r member own.symm
    simp only [Data.response, receipt_found sound held own, Option.bind_some, Option.map_some,
      work_found worked work of]
    refine ⟨by simp, fun _ => by simp, fun _ => (stands.receipt e held own).state, ?_,
      fun _ => by simp⟩
    rintro _ ⟨⟩
    -- The work has two states, and is stopped with the reception.
    by_cases stopped : r.state = .stopped
    · rw [if_pos stopped]
      exact stops.mpr stopped
    · rw [if_neg stopped]
      cases state : j.state with
      | not_started => rfl
      | stopped => exact absurd (stops.mp state) stopped

/-- Every reception of a state that the service reaches can be told of. -/
theorem ReceptionWorld.receptions_shown (run : Run ReceptionWorld.step .installed ts w)
    (observed : String → Option Observation) (operation_id : String) :
    ∀ r ∈ w.data.receptions, ∃ a ∈ w.data.attempts, w.data.selected r.id = .ok (r, a) ∧
      w.data.projection observed r a operation_id =
        .ok (w.data.response observed r a operation_id) := by
  obtain ⟨sound, worked⟩ := run_worked run
  intro r member
  obtain ⟨a, attempt, key, selected⟩ := sound.selected member
  have passes := response_passes sound worked member key observed operation_id
  refine ⟨a, attempt, selected, ?_⟩
  rw [Data.projection, ensure, if_pos passes]
  rfl

theorem ReceptionWorld.receptions_shown_resumed : ∃ ts w, Run ReceptionWorld.step .installed ts w ∧
    w.data.receptions.length = 2 ∧ ∀ r ∈ w.data.receptions, ∃ a ∈ w.data.attempts,
      w.data.selected r.id = .ok (r, a) ∧ w.data.projection (fun _ => some .available) r a "asked" =
        .ok (w.data.response (fun _ => some .available) r a "asked") := by
  have facts : ((perform ReceptionWorld.step .installed finalActs).map fun w =>
      w.data.receptions.length) = some 2 := by decide +kernel
  obtain ⟨w, performed, two⟩ := Option.map_eq_some_iff.mp facts
  have run := run_of_perform ReceptionWorld.step finalActs .installed w performed
  exact ⟨_, w, run, two, receptions_shown run _ _⟩

/-! ### Keys -/

/-- The intention that a transition commits an effect under. -/
def effectOf (tr : Transition ReceptionWorld ReceptionAct) : Option Intention :=
  match tr.act with
  | .reserve b => some b.intention
  | .finalize reception _ _ call =>
    some (call.intention .finalize_reception reception.id (some reception.effect_slot))
  | .cancel _ reception _ call => some (call.intention .cancel_reception reception.id none)
  | .requestStop reception call => some (call.intention .cancel_reception reception.id none)
  | .resume _ call _ _ _ =>
    tr.source.quota.map fun rows => call.intention .resume_reception rows.1.id none
  | _ => none

/-- The intentions are the effects that were committed, each under a key of its own. -/
structure Noted (ts : List (Transition ReceptionWorld ReceptionAct)) (d : Data) : Prop where
  effects : d.intentions = ts.filterMap effectOf
  apart : (d.intentions.map Intention.key).Nodup
  reception_of : ∀ i ∈ d.intentions, ∃ r ∈ d.receptions, r.id = i.reception_id

/-- No reception goes away. -/
def Keeps (d d' : Data) : Prop := ∀ r ∈ d.receptions, ∃ q ∈ d'.receptions, q.id = r.id

theorem Noted.silent {tr : Transition ReceptionWorld ReceptionAct} (noted : Noted ts d)
    (keeps : Keeps d d') (none : effectOf tr = none) (intentions : d'.intentions = d.intentions) :
    Noted (ts ++ [tr]) d' where
  effects := by
    rw [intentions, noted.effects, List.filterMap_append]
    simp [none]
  apart := by
    rw [intentions]
    exact noted.apart
  reception_of := by
    intro i member
    rw [intentions] at member
    obtain ⟨r, held, of⟩ := noted.reception_of i member
    obtain ⟨q, among, same⟩ := keeps r held
    exact ⟨q, among, same.trans of⟩

theorem Noted.effect {tr : Transition ReceptionWorld ReceptionAct} {i : Intention}
    (noted : Noted ts d) (keeps : Keeps d d') (some : effectOf tr = some i)
    (fresh : ∀ x ∈ d.intentions, x.key ≠ i.key) (intentions : d'.intentions = d.intentions ++ [i])
    (of : ∃ r ∈ d'.receptions, r.id = i.reception_id) : Noted (ts ++ [tr]) d' where
  effects := by
    rw [intentions, noted.effects, List.filterMap_append]
    simp [some]
  apart := by
    rw [intentions]
    exact nodup_concat noted.apart fresh
  reception_of := by
    intro x member
    rw [intentions] at member
    rcases List.mem_append.mp member with old | new
    · obtain ⟨r, held, of⟩ := noted.reception_of x old
      obtain ⟨q, among, same⟩ := keeps r held
      exact ⟨q, among, same.trans of⟩
    · rw [List.mem_singleton.mp new]
      exact of

namespace ReceptionWorld

theorem step_keeps (sound : Sound w.data) (taken : w.step act = some w') :
    Keeps w.data w'.data := by
  intro r member
  rcases step_touches sound taken with ⟨intentions, same⟩ | ⟨r', touches⟩
  · rw [same]
    exact ⟨r, member, rfl⟩
  · obtain ⟨q, among, id, -⟩ := touches.declaration member
    exact ⟨q, among, id⟩

theorem step_noted (sound : Sound w.data) (noted : Noted ts w.data)
    (taken : w.step act = some w') : Noted (ts ++ [⟨w, act, w'⟩]) w'.data := by
  have keeps := step_keeps sound taken
  cases act with
  | reserve b =>
    obtain ⟨d, -, reserved, rfl⟩ := reserve_eq_some taken
    obtain ⟨-, -, -, -, fresh, rfl⟩ := reserve_eq_ok reserved
    exact noted.effect keeps rfl fresh rfl ⟨(newReception b).1, by simp, rfl⟩
  | chunk associated target generation consumed next =>
    obtain ⟨d, done, rfl⟩ := commit_eq_some.mp taken
    obtain ⟨r, a, -, -, -, -, -, -, rfl⟩ := appendChunk_eq_ok sound done
    exact noted.silent keeps rfl rfl
  | stage reception attempt =>
    obtain ⟨d, done, rfl⟩ := commit_eq_some.mp taken
    obtain ⟨r, a, -, -, -, -, -, -, rfl⟩ := stageOriginal_eq_ok sound done
    exact noted.silent keeps rfl rfl
  | finalize reception attempt artifact call =>
    obtain ⟨d, done, rfl⟩ := commit_eq_some.mp taken
    obtain ⟨r, a, e, o, finalized, evidence, rfl⟩ := finalize_eq_ok sound done
    obtain ⟨q, among, same⟩ := keeps r finalized.current.reception
    exact noted.effect keeps rfl finalized.unasked rfl ⟨q, among, same.trans finalized.of_id⟩
  | cancel guard reception attempt call =>
    obtain ⟨d, done, rfl⟩ := commit_eq_some.mp taken
    obtain ⟨r, a, current, id, fresh, rfl⟩ := cancel_eq_ok sound done
    exact noted.effect keeps (by rw [id]; rfl) fresh rfl (keeps r current.reception)
  | requestStop reception call =>
    obtain ⟨d, done, rfl⟩ := commit_eq_some.mp taken
    obtain ⟨held, fresh, rfl⟩ := requestStop_eq_ok done
    exact noted.effect keeps rfl fresh rfl held
  | finishStop guard reception =>
    obtain ⟨d, done, rfl⟩ := commit_eq_some.mp taken
    obtain ⟨r, a, -, rfl⟩ := finishStop_eq_ok sound done
    exact noted.silent keeps rfl rfl
  | hold target expected_generation =>
    obtain ⟨rows, -, -, rfl⟩ := hold_eq_some taken
    exact noted.silent keeps rfl rfl
  | resume guard call artifact_id incarnation deadline =>
    obtain ⟨rows, d, held, resumed, rfl⟩ := resume_eq_some taken
    obtain ⟨r, a, current, id, -, -, -, fresh, rfl⟩ := resume_eq_ok sound resumed
    refine noted.effect keeps ?_ fresh rfl (keeps r current.reception)
    simp [effectOf, held, id]
  | leave =>
    cases taken
    exact noted.silent keeps rfl rfl
  | incomplete target generation incarnation session unresolved =>
    obtain ⟨d, done, rfl⟩ := commit_eq_some.mp taken
    rcases recordIncomplete_eq_ok sound done with rfl | ⟨r, a, -, -, -, rfl⟩
    · exact noted.silent keeps rfl rfl
    · exact noted.silent keeps rfl rfl

theorem run_noted (run : Run step .installed ts w) : Noted ts w.data := by
  have kept := run.traced (P := fun ts w => Sound w.data ∧ Noted ts w.data) ?_ []
    ⟨.installed, rfl, .nil, by simp [installed, Data.installed]⟩
  · exact kept.2
  · intro before s act t taken held
    exact ⟨step_sound held.1 taken, step_noted held.1 held.2 taken⟩

end ReceptionWorld

end LedgerDesk.Reception
