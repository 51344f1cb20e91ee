import LedgerDesk.Workspace.Turns

/-!
# How a gesture begins

A gesture is done at once, or it begins an activity where none is under way, or it begins a task
that is none: the start, and the reading of files.
-/
namespace LedgerDesk.Workspace

open Foundation LedgerDesk.Preparation Async

variable {platform : Platform} {s : Controller} {gesture : Gesture}

/-- The place of a task that is begun among the activities. -/
def Gesture.number (gesture : Gesture) (s : Controller) : Nat :=
  (gesture.opens s).activityEpoch + if gesture.isActivity then 1 else 0

/-- The states in which a task that a gesture begins is too late. -/
def Gesture.stale (gesture : Gesture) (s : Controller) : Controller → Prop :=
  Past (gesture.opens s).localEpoch (gesture.number s) (gesture.opens s).lifetime

inductive Opening (platform : Platform) (gesture : Gesture) (s : Controller) : Ended → Prop
  | quiet {s'} (keeps : Keeps platform (fun _ => False) s s') :
      Opening platform gesture s ⟨s', [], .returned ()⟩
  | activity (is : gesture.isActivity = true) (idle : (gesture.opens s).current.busy = false)
      (work : Task Unit)
      (tame : Tame (rules platform gesture.may gesture.reconciles (gesture.stale s)) work
        (gesture.opens s).beginActivity) :
      Opening platform gesture s
        ((ensuring work (finish (gesture.number s))).turn (gesture.opens s).beginActivity)
  | task (other : gesture.isActivity = false) (work : Task Unit)
      (tame : Tame (timely platform gesture.may gesture.reconciles (gesture.stale s)) work (gesture.opens s)) :
      Opening platform gesture s (work.turn (gesture.opens s))

/-! ### Activities -/

/-- An activity that receives no original may do everything but that. -/
theorem may_of_ne (is : gesture.isActivity = true) (slot : Slot)
    (reserve : slot.2 ≠ .reserve_reception) (finalize : slot.2 ≠ .finalize_reception) :
    gesture.may slot :=
  ⟨is, fun receives => (receives.elim reserve finalize).elim⟩

/-- Work that is fine is the work of an activity, with what catches its faults. -/
theorem opening_activity {work : Task Unit} {failed : Fault → Controller → Controller}
    (is : gesture.isActivity = true) (idle : (gesture.opens s).current.busy = false)
    (fine : ∀ {stale}, (∀ s', stale s' → s'.localEpoch ≠ (gesture.opens s).localEpoch) →
      Fine (rules platform gesture.may gesture.reconciles stale) work (gesture.opens s).beginActivity)
    (keeps : ∀ fault s, Keeps platform gesture.may s (failed fault s)) :
    Opening platform gesture s ((activity (gesture.number s) work failed).turn
      (gesture.opens s).beginActivity) :=
  .activity is idle _ (tame_caught (fun _ past => past.2.1) (fine fun _ past => past.1) keeps)

theorem opening_action (key : ItemKey) (chosen : ItemAction) :
    Opening platform (.action key chosen) s ((action platform key chosen).turn s) := by
  rw [action, turn_get]
  split
  · exact .quiet (.refl s)
  · next item found =>
    by_cases free : (!item.view.actions.contains chosen || (s.current.busy && chosen ≠ .stop)) = true
    · rw [if_pos free]
      exact .quiet (.refl s)
    · rw [if_neg free]
      by_cases discards : chosen = .discard
      · rw [if_pos discards]
        exact .quiet keeps_discard
      · rw [if_neg discards]
        have opens : (if chosen = .stop then s.changeContext else s) =
            (Gesture.action key chosen).opens s := by
          split
          · next stop =>
            subst stop
            rfl
          · next other =>
            cases chosen <;> first | rfl | exact absurd rfl other
        change Opening platform _ s ((activity
          ((if chosen = .stop then s.changeContext else s).activityEpoch + 1)
          (perform platform key chosen item (if chosen = .stop then s.changeContext else s).localEpoch)
          _).turn (if chosen = .stop then s.changeContext else s).beginActivity)
        rw [opens]
        refine opening_activity rfl ?_ (fun late => ?_) fun fault s => ?_
        · -- A stop has left the busy context; every other action waits for it.
          rw [← opens]
          split
          · rfl
          · next other =>
            simp only [ne_eq, other, not_false_eq_true, decide_true, Bool.and_true,
              Bool.or_eq_true, not_or, Bool.not_eq_true] at free
            exact free.2
        · refine fine_perform late (fun receive => ⟨rfl, fun _ => ?_⟩)
            (fun receive => ⟨rfl, fun _ => ?_⟩) (fun reconcile => ?_) (may_of_ne rfl)
          · rw [receive]
            rfl
          · rw [receive]
            rfl
          · rw [reconcile]
            rfl
        · exact keeps_actionFailed.trans keeps_failure

theorem opening_downloadOriginal :
    Opening platform .downloadOriginal s ((downloadOriginal platform).turn s) := by
  rw [downloadOriginal, turn_get]
  split
  · next key _ _ _ =>
    by_cases busy : s.current.busy = true
    · rw [if_pos busy]
      exact .quiet (.refl s)
    · rw [if_neg busy]
      refine opening_activity rfl (Bool.eq_false_iff.mpr busy) (fun late => ?_) fun _ _ => keeps_failure
      exact Fine.seq (fine_deliveredOriginal late) fun _ _ => ⟨trivial, trivial⟩
  · exact .quiet (.refl s)

theorem opening_propose : Opening platform .propose s ((propose platform).turn s) := by
  rw [propose, turn_get]
  split
  · split
    · by_cases busy : s.current.busy = true
      · rw [if_pos busy]
        exact .quiet (.refl s)
      · rw [if_neg busy]
        exact opening_activity rfl (Bool.eq_false_iff.mpr busy)
          (fun late => fine_proposeWork late (may_of_ne rfl)) fun _ _ =>
            keeps_proposeFailed.trans keeps_failure
    · exact .quiet (.refl s)
  · exact .quiet (.refl s)

theorem opening_confirm : Opening platform .confirm s ((confirm platform).turn s) := by
  rw [confirm, turn_get]
  split
  · next key confirmation _ _ =>
    by_cases free : (!confirmation.confirmOffered || s.current.busy) = true
    · rw [if_pos free]
      exact .quiet (.refl s)
    · rw [if_neg free]
      have idle : s.current.busy = false := by
        rw [Bool.or_eq_true, not_or] at free
        exact Bool.eq_false_iff.mpr free.2
      exact opening_activity rfl idle (fun late => fine_confirmWork late (may_of_ne rfl))
        fun _ _ => keeps_confirmFailed.trans keeps_failure
  · exact .quiet (.refl s)

theorem opening_downloadResource (reference : Artifact) :
    Opening platform (.downloadResource reference) s ((downloadResource platform reference).turn s) := by
  rw [downloadResource, turn_get]
  split
  · split
    · exact .quiet (.refl s)
    · by_cases busy : s.current.busy = true
      · rw [if_pos busy]
        exact .quiet (.refl s)
      · rw [if_neg busy]
        split
        · exact .quiet (.refl s)
        · exact opening_activity rfl (Bool.eq_false_iff.mpr busy) (fun late => fine_downloadWork late)
            fun _ _ => keeps_failure
  · exact .quiet (.refl s)

/-- A draft of which nothing can be built is shown as a failure; any other is saved. -/
theorem tame_saveWork {may : Slot → Prop} {reconciles : ItemKey → Prop} {stale : Controller → Prop} {epoch number : Nat}
    {key : ItemKey} {extraction : ExtractionResponse} {draft : PreparationDraft} {context : Context}
    (late : ∀ s, stale s → s.localEpoch ≠ epoch) (other : ∀ s, stale s → s.activityEpoch ≠ number)
    (others : ∀ slot : Slot, slot.2 ≠ .reserve_reception → slot.2 ≠ .finalize_reception → may slot) :
    Tame (rules platform may reconciles stale)
      (saveWork platform key extraction draft context number epoch) s := by
  have built : Fine (rules platform may reconciles stale)
      (builtPreparation platform extraction draft context epoch >>= fun b => pure (some b)) s :=
    Fine.seq (fine_builtPreparation late) fun _ _ => trivial
  refine built.handled (fun b s => ?_) (fun fault s => ?_) fun fault s passed => ?_
  · cases b with
    | none => trivial
    | some b =>
      exact tame_caught other (fine_savedPreparation late others) fun _ _ =>
        keeps_saveFailed.trans keeps_failure
  · change Tame _ (Async.bind (Async.bind (ite _ _ _) _) _) s
    split
    · exact ⟨keeps_failure, trivial⟩
    · trivial
  · change Silent _ (Async.bind (Async.bind (ite _ _ _) _) _) s
    rw [if_neg (other s passed)]
    trivial

theorem opening_savePreparation :
    Opening platform .savePreparation s ((savePreparation platform).turn s) := by
  rw [savePreparation, turn_get]
  split
  · next key item context editor _ _ _ =>
    split
    · by_cases free : (s.current.busy || !editor.saveOffered) = true
      · rw [if_pos free]
        exact .quiet (.refl s)
      · rw [if_neg free]
        have idle : (Gesture.savePreparation.opens s).current.busy = false := by
          rw [Bool.or_eq_true, not_or] at free
          exact Bool.eq_false_iff.mpr free.1
        exact .activity rfl idle _
          (tame_saveWork (fun _ past => past.1) (fun _ past => past.2.1) (may_of_ne rfl))
    · exact .quiet (.refl s)
  · exact .quiet (.refl s)

/-! ### What is no activity -/

theorem opening_start : Opening platform .start s ((start platform).turn s) := by
  rw [turn_start]
  exact .task rfl _ (timely_of_tame (tame_starting (fun _ past => past.1)
    (fun _ past => past.2.1) fun _ past => past.2.2))

theorem opening_addFiles (files : List File) :
    Opening platform (.addFiles files) s ((addFiles platform files).turn s) := by
  change Opening platform _ s (Async.turn (ite _ _ _ : Task Unit) s)
  split
  · exact .quiet (.refl s)
  · exact .task rfl _ (tame_addEach (fun _ past => past.1) files)

/-- Whatever a person does. -/
theorem opening (gesture : Gesture) :
    Opening platform gesture s ((gesture.task platform).turn s) := by
  cases gesture with
  | start => exact opening_start
  | suspend => exact .quiet keeps_suspend
  | select key => exact .quiet keeps_select
  | openIntake => exact .quiet (keeps_changeContext.published fun _ => rfl)
  | setTextDraft draft => exact .quiet (keeps_publish fun _ => rfl)
  | setProfile key profile => exact .quiet keeps_setProfile
  | addFiles files => exact opening_addFiles files
  | captureText => exact .quiet keeps_captureText
  | editPreparation edit => exact .quiet keeps_editPreparation
  | discardPreparation => exact .quiet keeps_discardPreparation
  | setProposalDraft draft => exact .quiet keeps_setProposalDraft
  | setProposalUnit id => exact .quiet keeps_setProposalUnit
  | action key chosen => exact opening_action key chosen
  | downloadOriginal => exact opening_downloadOriginal
  | savePreparation => exact opening_savePreparation
  | propose => exact opening_propose
  | confirm => exact opening_confirm
  | downloadResource reference => exact opening_downloadResource reference

end LedgerDesk.Workspace
