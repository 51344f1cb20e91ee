import LedgerDesk.Workspace.Keeping

/-!
# Turns of the workspace

Each task of the workspace keeps to its rules from one wait to the next. What is answered too late
changes nothing, but for a file that cannot be read: that is shown in whatever context it happens.
-/
namespace LedgerDesk.Workspace

open Foundation LedgerDesk.Preparation Async

variable {platform : Platform} {s s' : Controller}

/-! ### The rules of a task -/

/-- The slots in which a gesture may pend an operation: an activity that does not receive the
original of an item leaves the slots of its reception alone. -/
def Gesture.may (gesture : Gesture) (slot : Slot) : Prop :=
  gesture.isActivity = true ∧
    (slot.2 = .reserve_reception ∨ slot.2 = .finalize_reception → gesture.receives = some slot.1)

/-- The item that a gesture reconciles. -/
def Gesture.reconciles : Gesture → ItemKey → Prop
  | .action key .reconcile, other => other = key
  | _, _ => False

/-- A state in which the context of a task has passed. -/
def Past (epoch number lifetime : Nat) (s : Controller) : Prop :=
  s.localEpoch ≠ epoch ∧ s.activityEpoch ≠ number ∧ s.lifetime ≠ lifetime

/-- A file that cannot be read is answered in the context in which it was chosen. -/
def Timely (stale : Controller → Prop) : (r : Request) → Answer r → Controller → Prop
  | .arrayBuffer _, .error (.unreadable _), s => ¬stale s
  | _, _, _ => True

def timely (platform : Platform) (may : Slot → Prop) (reconciles : ItemKey → Prop)
    (stale : Controller → Prop) : Rules Controller Note Answer :=
  { rules platform may reconciles stale with allows := Timely stale }

theorem timely_of_tame {may : Slot → Prop} {reconciles : ItemKey → Prop} {stale : Controller → Prop}
    {x : Task Unit}
    (tame : Tame (rules platform may reconciles stale) x s) : Tame (timely platform may reconciles stale) x s := by
  apply Tame.restrict _ _ _ _ tame
  · rfl
  · rfl
  · rfl
  · exact fun _ _ _ _ => trivial

/-! ### The end of an activity -/

/-- The workspace is no longer busy, when the activity is the latest. -/
def Controller.idle (s : Controller) (number : Nat) : Controller :=
  if s.activityEpoch = number then s.publish fun c => { c with busy := false } else s

theorem turn_finish (number : Nat) (s : Controller) :
    (finish number).turn s = ⟨s.idle number, [], .returned ()⟩ := by
  change (ite _ _ _ : Task Unit).turn s = _
  rw [Controller.idle]
  split
  · rfl
  · rfl

theorem turn_finish_fail (number : Nat) (fault : Fault) (s : Controller) :
    ((finish number).bind fun _ => (.fail fault : Task Unit)).turn s =
      ⟨s.idle number, [], .threw fault⟩ := by
  change (Async.bind (ite _ _ _ : Task Unit) _).turn s = _
  rw [Controller.idle]
  split
  · rfl
  · rfl

/-- What a turn of the work of an activity leaves of the activity. -/
def ensured (number : Nat) (t : Ended) : Ended :=
  match t.rest with
  | .returned () => ⟨t.state.idle number, t.notes, .returned ()⟩
  | .threw fault => ⟨t.state.idle number, t.notes, .threw fault⟩
  | .waits request resume =>
    ⟨t.state, t.notes, .waits request fun o => ensuring (resume o) (finish number)⟩

theorem turn_ensuring (number : Nat) (x : Task Unit) (s : Controller) :
    (ensuring x (finish number)).turn s = ensured number (x.turn s) := by
  induction x generalizing s with
  | done a => exact turn_finish number s
  | fail fault =>
    change (((finish number).bind fun _ => (.fail fault : Task Unit)).bind _).turn s = _
    rw [Async.bind_assoc]
    exact turn_finish_fail number fault s
  | read k ih => exact ih s s
  | write s' k ih => exact ih s'
  | note m k ih =>
    have later := ih s
    change (⟨((ensuring k (finish number)).turn s).state,
      m :: ((ensuring k (finish number)).turn s).notes,
      ((ensuring k (finish number)).turn s).rest⟩ : Ended) = _
    rw [later]
    simp only [ensured, Async.turn]
    split
    · rfl
    · rfl
    · rfl
  | await r k ih => rfl

/-! ### What is done at once -/

section AtOnce

variable {may : Slot → Prop}

theorem keeps_discard {key : ItemKey} : Keeps platform may s (s.discard key) where
  epochs := .inl ⟨rfl, rfl, rfl, le_refl _⟩
  uuids := le_refl _
  offers k := by
    rintro ⟨item, member, rfl, receive⟩
    exact .inl ⟨item, (List.mem_filter.mp member).1, rfl, receive⟩
  pending _ member := .inl member

theorem keeps_select {key : ItemKey} : Keeps platform may s (s.select key) := by
  unfold Controller.select
  split
  · exact keeps_changeContext.published fun _ => rfl
  · exact .refl s

theorem keeps_setProfile {key : ItemKey} {profile : ExtractionFormat} :
    Keeps platform may s (s.setProfile key profile) := by
  unfold Controller.setProfile
  split
  · exact .refl s
  · split
    · exact Keeps.published (keeps_setItem (fun _ => rfl) fun _ offered => offered) fun _ => rfl
    · exact .refl s

theorem keeps_captureText : Keeps platform may s (s.captureText platform) := by
  unfold Controller.captureText
  split
  · exact .refl s
  · unfold Controller.attempt
    split
    · next added => exact keeps_add added
    · exact keeps_failure

theorem keeps_editPreparation {edit : PreparationEdit} :
    Keeps platform may s (s.editPreparation platform edit) := by
  unfold Controller.editPreparation
  split
  · exact .refl s
  · split
    · split
      · exact .refl s
      · exact Keeps.published (keeps_uuids.trans (keeps_setItem_of_view fun _ => rfl)) fun _ => rfl
    · exact .refl s

theorem keeps_discardPreparation : Keeps platform may s s.discardPreparation := by
  unfold Controller.discardPreparation
  split
  · exact .refl s
  · split
    · exact .refl s
    · split
      · exact .refl s
      · split
        · exact keeps_notice
        · refine Keeps.published (Keeps.trans ?_ keeps_changeContext) fun _ => rfl
          exact keeps_setItem_of_view fun _ => rfl

theorem keeps_setProposalDraft {draft : ProposalDraft} :
    Keeps platform may s (s.setProposalDraft draft) := by
  unfold Controller.setProposalDraft
  split
  · split
    · exact .refl s
    · exact Keeps.published (keeps_setItem_of_view fun _ => rfl) fun _ => rfl
  · exact .refl s

theorem keeps_setProposalUnit {id : String} : Keeps platform may s (s.setProposalUnit id) := by
  unfold Controller.setProposalUnit
  split
  · split
    · exact .refl s
    · exact Keeps.published (keeps_setItem_of_view fun _ => rfl) fun _ => rfl
  · exact .refl s

end AtOnce

/-! ### The start, and files -/

section Start

variable {may : Slot → Prop} {reconciles : ItemKey → Prop} {stale : Controller → Prop}
variable {epoch number lifetime : Nat}

theorem fine_sessionAnswered {response : Response} {body : Wire} :
    Fine (rules platform may reconciles stale) (sessionAnswered response body) s := by
  unfold sessionAnswered
  split
  · split
    · exact Fine.seq ⟨keeps_suspendClient, trivial⟩ fun _ _ => trivial
    · trivial
    · trivial
  · split
    · refine Fine.seq fine_require fun _ s => Fine.seq trivial fun s' s => ?_
      split
      · exact Fine.seq ⟨keeps_suspendClient, trivial⟩ fun _ _ => trivial
      · exact Fine.seq ⟨keeps_csrf, trivial⟩ fun _ _ => trivial
    · trivial

/-- The session of a start is asked for in its lifetime. -/
theorem fine_session (late : ∀ s, stale s → s.lifetime ≠ lifetime) (own : s.lifetime = lifetime) :
    Fine (rules platform may reconciles stale) session s := by
  subst own
  have look : ∀ s', Looks (rules platform may reconciles stale) (assertLifetime s.lifetime) s' := by
    intro s'
    change Looks _ (ite _ _ _) s'
    split
    · next same => exact fun passed => late s' passed same
    · trivial
  change Fine _ (fetch .session >>= fun response => readBody 32768 >>= fun body =>
    assertLifetime s.lifetime >>= fun _ => sessionAnswered response body) s
  -- Neither of the two waits writes, and the lifetime is looked at after them.
  have waits : Looks (rules platform may reconciles stale) (fetch .session >>= fun response =>
      readBody 32768 >>= fun body => assertLifetime s.lifetime >>= fun _ =>
        pure (response, body)) s :=
    Idle.looks idle_fetch fun response s' => Idle.looks idle_readBody fun body s' =>
      Looks.seq (look s') fun _ _ passed => passed
  have answered : ∀ (r : Response × Wire) s',
      Fine (rules platform may reconciles stale) (sessionAnswered r.1 r.2) s' := fun _ _ => fine_sessionAnswered
  have whole := Fine.seq waits.fine answered
  simpa only [Async.bind_eq, Async.bind_assoc, Async.pure_eq, Async.bind] using whole

theorem fine_startWork {priorContext : Option Context}
    (late : ∀ s, stale s → s.localEpoch ≠ epoch) (past : ∀ s, stale s → s.lifetime ≠ lifetime)
    (own : s.lifetime = lifetime) :
    Fine (rules platform may reconciles stale) (startWork platform priorContext epoch) s := by
  refine Fine.seq (fine_session past own) fun known s => ?_
  split
  · refine Fine.seq (looks_assertContext late).fine fun _ s => ?_
    refine Fine.seq (fine_query late) fun answer s => ?_
    refine Fine.seq fine_require fun _ s => Fine.seq trivial fun s' s => ?_
    exact Fine.seq fine_settle fun entries s => ⟨keeps_started, trivial⟩
  · exact ⟨keeps_suspend, trivial⟩

/-- What a start does once it has changed the context. -/
def starting (platform : Platform) (priorContext : Option Context) (opened : Controller) : Task Unit :=
  (Async.modify fun s : Controller => s.publish fun c => { c with
    phase := .checking_session, notices := [], intakeOffered := false, page := .intake
    editor := none, inspector := none, confirmation := none }).bind fun _ =>
  (startWork platform priorContext opened.localEpoch).tryCatch fun fault =>
    ifLatest opened.activityEpoch fun s => if fault = .abort then s else s.suspend.failure fault

theorem turn_start : (start platform).turn s =
    (starting platform s.current.context s.changeContext).turn s.changeContext := rfl

theorem tame_starting {priorContext : Option Context} (late : ∀ s', stale s' → s'.localEpoch ≠ s.localEpoch)
    (other : ∀ s', stale s' → s'.activityEpoch ≠ s.activityEpoch)
    (past : ∀ s', stale s' → s'.lifetime ≠ s.lifetime) :
    Tame (rules platform may reconciles stale) (starting platform priorContext s) s := by
  refine ⟨keeps_publish fun _ => rfl, ?_⟩
  refine Tame.tryCatch (fine_startWork late past rfl).tame (fun fault _ => tame_ifLatest fun s => ?_)
    fun fault _ => silent_ifLatest other
  split
  · exact .refl s
  · exact keeps_suspend.trans keeps_failure

/-- What is left of the reading of a file when its item has been made, or refused. -/
def itemMade : Except Fault Controller → Task Unit
  | .ok next => Async.modify fun _ => next
  | .error fault => throw fault

/-- Files are read one after another. A file that cannot be read is shown in whatever context. -/
theorem tame_addEach (late : ∀ s, stale s → s.localEpoch ≠ epoch) (files : List File) :
    Tame (timely platform may reconciles stale) (addEach platform epoch files) s := by
  induction files generalizing s with
  | nil => trivial
  | cons file files ih =>
    -- What fails is shown, and the other files are read unless the reading was aborted.
    have shown : ∀ fault s, Tame (timely platform may reconciles stale)
        ((Async.modify fun s : Controller => s.failure fault).bind fun _ =>
          if (fault ≠ .abort : Bool) then addEach platform epoch files else pure ()) s := by
      intro fault s
      refine ⟨keeps_failure, ?_⟩
      change Tame _ (ite _ _ _) _
      split
      · exact ih
      · trivial
    unfold addEach addFile
    unfold require
    split
    · -- The file is read; too late, whatever it was answered is an abort.
      intro answer s'
      constructor
      · intro passed allowed
        cases answer with
        | ok bytes =>
          change Silent _ (((((ite (s'.localEpoch = epoch) (pure ()) (throw .abort) :
            Task Unit).bind _).bind _).tryCatch _).bind _) s'
          rw [if_neg (late s' passed)]
          exact ⟨rfl, trivial⟩
        | error e =>
          cases e with
          | aborted => exact ⟨rfl, trivial⟩
          | unreadable message => exact absurd passed allowed
      · cases answer with
        | ok bytes =>
          change Tame _ (((((ite (s'.localEpoch = epoch) (pure ()) (throw .abort) :
            Task Unit).bind _).bind _).tryCatch _).bind _) s'
          split
          · have added : ∀ profile media, Tame (timely platform may reconciles stale)
                ((((itemMade (s'.add platform file.name bytes .file profile media)).bind fun _ =>
                  pure true).tryCatch fun fault =>
                    (Async.modify fun s : Controller => s.failure fault).bind fun _ =>
                      pure (fault ≠ .abort : Bool)).bind fun more =>
                        if more then addEach platform epoch files else pure ()) s' := by
              intro profile media
              cases added : s'.add platform file.name bytes .file profile media with
              | ok next => exact ⟨keeps_add added, ih⟩
              | error fault => exact shown fault s'
            exact added _ _
          · exact shown .abort s'
        | error e =>
          cases e with
          | aborted => exact shown .abort s'
          | unreadable message => exact shown (.error message) s'
    · exact shown _ s

end Start

end LedgerDesk.Workspace
