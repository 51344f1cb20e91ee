import LedgerDesk.Workspace.Staleness

/-!
# Reservations that are sent

The reception of an original is offered once: an item comes with it under a new name, and the first
turn of the activity that receives takes it back for good. So of each item one reservation at most is
sent, under one key.
-/
namespace LedgerDesk.Workspace

open Foundation LedgerDesk.Preparation Async

variable {platform : Platform} {s s' : Controller} {key : ItemKey} {epoch : Nat}

/-- The note of a reservation of the item. -/
def isReserve (key : ItemKey) : Note → Bool
  | .sent slot _ => slot = (key, .reserve_reception)
  | _ => false

/-! ### What receives an original sends one -/

section Few

variable {α β : Type} {x : Task α} {f : α → Task β} {n : Nat}

theorem few_seq (none : AtMost (fun m => isReserve key m) 0 x s)
    (next : ∀ a s, AtMost (fun m => isReserve key m) n (f a) s) :
    AtMost (fun m => isReserve key m) n (x >>= f) s := none.first next

/-- What is fine without the slot of the reservation makes no note of it. -/
theorem none_of_fine (platform : Platform) (fine : Fine (rules platform
    (fun slot => slot ≠ (key, .reserve_reception)) (fun _ => True) fun _ => False) x s) : AtMost (fun m => isReserve key m) 0 x s := by
  refine fine.none fun m allowed is => ?_
  cases m with
  | sent slot _ => exact allowed (by simpa [isReserve] using is)
  | refused slot pending => cases is
  | reconciled key left => cases is
  | downloaded name => cases is

theorem none_begin {slot : Slot} {profile : JournalProfile} {references : References}
    {command : Command} {refusal : String} : AtMost (fun m => isReserve key m) 0
      (begin platform slot profile references command refusal epoch) s := by
  have rest : ∀ frozen s, AtMost (fun m => isReserve key m) 0 (do
      retain frozen.entry
      Async.modify fun s => s.setPending slot frozen
      return frozen) s := fun frozen s =>
    few_seq (none_of_fine platform fine_retain) fun _ s => trivial
  refine few_seq (fun _ _ => trivial) fun digest s => ?_
  refine few_seq idle_assertContext.none fun _ s => few_seq idle_get.none fun s' s => ?_
  split
  · split
    · -- The refusal is another note.
      refine few_seq ?_ fun _ _ => trivial
      change AtMost _ 0 (Async.note _ _) s
      rw [AtMost, if_neg (by simp [isReserve])]
      trivial
    · exact rest _ s
  · exact few_seq (none_of_fine platform fine_freeze) rest

theorem one_request {γ : Type} {call : Call} {reading : Reading γ} {slot : Slot} {sent : String} :
    AtMost (fun m => isReserve key m) 1 (request call reading epoch (some (slot, sent))) s := by
  refine AtMost.get ?_
  split
  · trivial
  · split
    · trivial
    · refine few_seq idle_get.none fun s' s => few_seq idle_verifySessionForView.none fun _ s => ?_
      change AtMost _ 1 (Async.note _ _) s
      rw [AtMost]
      split
      · exact ⟨Nat.one_pos, idle_exchange.none⟩
      · exact idle_exchange.none.mono (Nat.zero_le _)

theorem one_receptionEffect {command : Command} : AtMost (fun m => isReserve key m) 1
    (receptionEffect platform key command epoch) s := by
  refine few_seq idle_get.none fun s' s => few_seq idle_require.none fun _ s => ?_
  refine few_seq idle_require.none fun _ s => few_seq none_begin fun frozen s => ?_
  exact AtMost.last one_request fun value s =>
    few_seq (none_of_fine platform fine_conclude) fun _ _ => trivial

theorem one_submit {item : LocalItem} {bytes : Bytes} {profile : ExtractionFormat}
    {context : Context} : AtMost (fun m => isReserve key m) 1
      (submit platform key item bytes profile context epoch) s := by
  have never : ∀ s : Controller, False → s.localEpoch ≠ epoch := fun _ none => none.elim
  have finalizes : ((key, Operation.finalize_reception) : Slot) ≠ (key, .reserve_reception) := by simp
  refine few_seq (fun _ _ => trivial) fun hash s => few_seq idle_assertContext.none fun _ s => ?_
  refine few_seq trivial fun _ s => ?_
  refine AtMost.last one_receptionEffect fun reserved s => ?_
  -- What follows the reservation is fine without its slot.
  refine none_of_fine platform ?_
  refine Fine.seq ⟨keeps_setItem_of_view fun _ => rfl, trivial⟩ fun _ s => ?_
  refine Fine.seq fine_randomUUID fun id s => Fine.seq fine_retain fun _ s => ?_
  refine Fine.seq (fine_query never) fun _ s => Fine.seq (fine_query never) fun staged s => ?_
  refine Fine.seq (fine_receptionEffect never finalizes) fun final s => ?_
  exact Fine.seq ⟨keeps_adoptReceipt, trivial⟩ fun _ s => fine_refreshItem never

theorem one_receive : AtMost (fun m => isReserve key m) 1 (receive platform key epoch) s := by
  refine few_seq idle_get.none fun s' s => ?_
  split
  · split
    · refine few_seq idle_require.none fun _ s => few_seq idle_require.none fun _ s => ?_
      exact few_seq trivial fun _ s => one_submit
    · trivial
  · trivial

theorem none_ifLatest {number : Nat} {g : Controller → Controller} :
    AtMost (fun m => isReserve key m) 0 (ifLatest number g) s := by
  change AtMost _ 0 (ite _ _ _) s
  split
  · trivial
  · trivial

theorem one_activity {number : Nat} {work : Task Unit} {failed : Fault → Controller → Controller}
    (few : AtMost (fun m => isReserve key m) n work s) :
    AtMost (fun m => isReserve key m) n (activity number work failed) s := by
  have shown : ∀ fault s, AtMost (fun m => isReserve key m) 0 (ifLatest number (failed fault)) s :=
    fun _ _ => none_ifLatest
  have ends : ∀ (fault : Fault) s, AtMost (fun m => isReserve key m) 0
      ((finish number).bind fun _ => (.fail fault : Task Unit)) s :=
    fun _ _ => few_seq none_ifLatest fun _ _ => trivial
  exact AtMost.last ((few.tryCatch shown).tryCatch ends) fun _ s => none_ifLatest

theorem one_action : AtMost (fun m => isReserve key m) 1 (action platform key .receive) s := by
  refine few_seq idle_get.none fun s' s => ?_
  split
  · trivial
  · split
    · trivial
    · rw [if_neg (by decide)]
      refine few_seq trivial fun _ s => few_seq idle_get.none fun s' s => ?_
      exact few_seq trivial fun _ s => one_activity one_receive

end Few

/-! ### What receives an original takes its offer back -/

theorem not_offers_update {patch : ItemPatch} {actions : List ItemAction} {item : LocalItem}
    (found : s.item? key = some item) (given : patch.actions = some actions)
    (without : ItemAction.receive ∉ actions) : ¬(s.update key patch).Offers key := by
  rw [Controller.update, found, Option.isSome_some, if_pos rfl]
  rintro ⟨updated, member, named, offered⟩
  rcases Rows.mem_update.mp member with ⟨-, other⟩ | ⟨old, -, -, rfl⟩
  · exact of_decide_eq_false other named
  · rw [ItemPatch.apply, given] at offered
    exact without offered

theorem offers_idle {number : Nat} : (s.idle number).Offers key ↔ s.Offers key := by
  rw [Controller.idle]
  split
  · rfl
  · rfl

/-- The first turn of the reception fails at once, or waits with the offer taken back. -/
theorem turn_receive (platform : Platform) (epoch : Nat) {item : LocalItem}
    (found : s.item? key = some item) :
    (∃ message, (receive platform key epoch).turn s = ⟨s, [], .threw (.error message)⟩) ∨
    ∃ patch k, patch.actions = some [.reconcile] ∧
      (receive platform key epoch).turn s = ⟨s.update key patch, [], .waits .digest k⟩ := by
  rw [receive, turn_get, found]
  split
  · next item' context is _ =>
    cases is
    split
    · by_cases offered : s.current.intakeOffered = true
      · by_cases fresh : item.receipt.isNone = true
        · simp only [offered, fresh, require, if_true]
          exact .inr ⟨_, _, rfl, rfl⟩
        · simp only [offered, fresh, require, if_true]
          exact .inl ⟨_, rfl⟩
      · simp only [offered, require]
        exact .inl ⟨_, rfl⟩
    · exact .inl ⟨_, rfl⟩
  · exact .inl ⟨_, rfl⟩

/-- The activity of a reception, when it first waits or ends, has taken the offer back. -/
theorem not_offers_of_activity {number : Nat} {item : LocalItem} (found : s.item? key = some item)
    (latest : s.activityEpoch = number) :
    ¬((activity number (receive platform key epoch) fun fault s =>
      (s.actionFailed key .receive fault).failure fault).turn s).state.Offers key := by
  rw [activity, turn_ensuring, turn_tryCatch]
  rcases turn_receive platform epoch found with
    ⟨message, turn⟩ | ⟨patch, k, given, turn⟩
  · rw [turn]
    have failed : (Async.turn (ifLatest number fun s : Controller =>
        (s.actionFailed key .receive (.error message)).failure (.error message)) s : Ended) =
        ⟨(s.actionFailed key .receive (.error message)).failure (.error message), [], .returned ()⟩ := by
      change Async.turn (ite _ _ _ : Task Unit) s = _
      rw [if_pos latest]
      rfl
    simp only [failed, ensured]
    rw [offers_idle]
    -- A failure of its own shows the item with nothing but a reconciliation.
    have shown : s.actionFailed key .receive (.error message) = s.update key
        { phase := some .uncertain, actions := some [.reconcile]
          detail := some "The result is not confirmed. Reconcile before attempting another effect." } := by
      simp [Controller.actionFailed, found]
    rw [shown]
    exact not_offers_update found rfl (by decide)
  · rw [turn]
    exact not_offers_update found given (by decide)

/-- A reception that is begun takes its offer back. -/
theorem turn_action_receive (platform : Platform) (s : Controller) (key : ItemKey) :
    (action platform key .receive).turn s = ⟨s, [], .returned ()⟩ ∨
    (s.Offers key ∧ ¬((action platform key .receive).turn s).state.Offers key) := by
  rw [action, turn_get]
  cases found : s.item? key with
  | none => exact .inl rfl
  | some item =>
    by_cases free : (!item.view.actions.contains .receive || (s.current.busy && ItemAction.receive ≠ .stop)) = true
    · simp only [free, if_true]
      exact .inl rfl
    · refine .inr ⟨?_, ?_⟩
      · have member := List.mem_of_find?_eq_some found
        have named := List.find?_some found
        rw [Bool.or_eq_true, not_or] at free
        exact ⟨item, member, by simpa using named, by simpa using free.1⟩
      · simp only [free]
        have begun : s.beginActivity.item? key = some item := found
        exact not_offers_of_activity begun rfl

/-! ### Every run -/

/-- The reception of the item was begun, or its reservation was sent. -/
def Used (w : World) (key : ItemKey) : Prop :=
  (∃ t ∈ w.threads, t.gesture.receives = some key) ∨
    ∃ sent, Note.sent (key, .reserve_reception) sent ∈ w.log

/-- The name of an item that was drawn. -/
def NamedAt (platform : Platform) (s : Controller) (key : ItemKey) : Prop :=
  ∃ n, n < s.uuids ∧ key = platform.randomUUID n

/-- What was noted of the item and what its reception may still note is one reservation. -/
def Once (threads : List Thread) (log : List Note) (key : ItemKey) : Prop :=
  ∃ number left, log.countP (isReserve key) + left ≤ 1 ∧
    ∀ t ∈ threads, t.gesture.receives = some key →
      t.number = number ∧ ∀ o s, AtMost (fun m => isReserve key m) left (t.resume o) s

structure Sends (platform : Platform) (w : World) : Prop where
  named : ∀ key, w.state.Offers key → NamedAt platform w.state key
  used : ∀ key, Used w key → NamedAt platform w.state key ∧ ¬w.state.Offers key
  once : ∀ key, Once w.threads w.log key

theorem NamedAt.mono (named : NamedAt platform s key) (more : s.uuids ≤ s'.uuids) :
    NamedAt platform s' key := by
  obtain ⟨n, low, same⟩ := named
  exact ⟨n, lt_of_lt_of_le low more, same⟩

/-- A name that was drawn is not drawn again. -/
theorem NamedAt.not_drawn (named : NamedAt platform s key) : ¬Drawn platform s s' key := by
  rintro ⟨n, low, -, same⟩
  obtain ⟨m, high, same'⟩ := named
  have equal := platform.randomUUID_injective (same.symm.trans same')
  omega

variable {may : Slot → Prop} {w w' : World} {t : Thread} {i : Nat}

theorem named_of_grows (grows : Grows platform may s s')
    (named : ∀ key, s.Offers key → NamedAt platform s key) (key : ItemKey)
    (offered : s'.Offers key) : NamedAt platform s' key := by
  rcases grows.offers key offered with before | ⟨n, low, high, same⟩
  · exact (named key before).mono grows.uuids
  · exact ⟨n, high, same⟩

theorem not_offers_of_grows (grows : Grows platform may s s') (named : NamedAt platform s key)
    (taken : ¬s.Offers key) : ¬s'.Offers key := by
  intro offered
  rcases grows.offers key offered with before | drawn
  · exact taken before
  · exact named.not_drawn drawn

/-- Only what receives an original notes its reservation. -/
theorem receives_of_noted {gesture : Gesture} {m : Note} (noted : mayNote gesture.may gesture.reconciles m)
    (is : isReserve key m = true) : gesture.receives = some key := by
  cases m with
  | sent slot sent =>
    have slotIs : slot = (key, .reserve_reception) := by simpa [isReserve] using is
    subst slotIs
    exact noted.2 (.inl rfl)
  | refused slot pending => cases is
  | reconciled key left => cases is
  | downloaded name => cases is

theorem activity_of_receives {gesture : Gesture} (receives : gesture.receives = some key) :
    gesture.isActivity = true := by
  unfold Gesture.receives at receives
  split at receives
  · rfl
  · cases receives

theorem countP_of_not_receives {gesture : Gesture} {notes : List Note}
    (noted : ∀ m ∈ notes, mayNote gesture.may gesture.reconciles m) (other : gesture.receives ≠ some key) :
    notes.countP (isReserve key) = 0 :=
  List.countP_eq_zero.mpr fun m member is => other (receives_of_noted (noted m member) is)

/-- The threads that a turn leaves: those that were there, and the one that took it. -/
theorem mem_resumed {ended : Ended} {u : Thread} (found : w.threads[i]? = some t)
    (member : u ∈ (w.resumed i t ended).threads) :
    (∃ j, j ≠ i ∧ w.threads[j]? = some u) ∨
      ∃ r k, ended.rest = .waits r k ∧ u = { t with request := r, resume := k } := by
  have within := (List.getElem?_eq_some_iff.mp found).1
  obtain ⟨j, at_⟩ := List.getElem?_of_mem member
  rw [World.resumed] at at_
  split at at_
  · next request resume rest =>
    by_cases same : i = j
    · subst same
      rw [List.getElem?_set_self within] at at_
      cases at_
      exact .inr ⟨request, resume, rest, rfl⟩
    · rw [List.getElem?_set_ne same] at at_
      exact .inl ⟨j, Ne.symm same, at_⟩
  · obtain ⟨k, other, at_, -⟩ := getElem?_of_eraseIdx at_
    exact .inl ⟨k, other, at_⟩

/-- A task that is answered sends no reservation but its own, which is then the only one. -/
theorem Sends.answered {answer : Answer t.request} (sends : Sends platform w)
    (held : Held platform w.threads w.state) (found : w.threads[i]? = some t)
    (took : Took platform w i t ((t.resume answer).turn w.state)) :
    Sends platform (w.resumed i t ((t.resume answer).turn w.state)) := by
  have member := List.mem_of_getElem? found
  have grows : Grows platform t.gesture.may w.state
      (w.resumed i t ((t.resume answer).turn w.state)).state := took.grows
  -- A thread of now was one of before, of the same gesture.
  have before : ∀ u ∈ (w.resumed i t ((t.resume answer).turn w.state)).threads,
      ∃ v ∈ w.threads, v.gesture = u.gesture := by
    intro u now
    rcases mem_resumed found now with ⟨j, -, at_⟩ | ⟨r, k, -, rfl⟩
    · exact ⟨u, List.mem_of_getElem? at_, rfl⟩
    · exact ⟨t, member, rfl⟩
  have used : ∀ key, Used (w.resumed i t ((t.resume answer).turn w.state)) key → Used w key := by
    rintro key (⟨u, now, receives⟩ | ⟨sent, logged⟩)
    · obtain ⟨v, earlier, same⟩ := before u now
      exact .inl ⟨v, earlier, same ▸ receives⟩
    · rcases List.mem_append.mp logged with earlier | noted
      · exact .inr ⟨sent, earlier⟩
      · exact .inl ⟨t, member, receives_of_noted (took.noted _ noted) (by simp [isReserve])⟩
  refine ⟨named_of_grows grows sends.named, fun key now => ?_, fun key => ?_⟩
  · obtain ⟨named, taken⟩ := sends.used key (used key now)
    exact ⟨named.mono grows.uuids, not_offers_of_grows grows named taken⟩
  · obtain ⟨number, left, counted, own⟩ := sends.once key
    by_cases receives : t.gesture.receives = some key
    · obtain ⟨same, few⟩ := own t member receives
      obtain ⟨left', counted', later⟩ := (few answer w.state).turn
      refine ⟨number, left', ?_, fun u now again => ?_⟩
      · have noted : ((t.resume answer).turn w.state).notes.countP (isReserve key) + left' ≤ left := by
          simpa only [Bool.decide_eq_true] using counted'
        change (w.log ++ ((t.resume answer).turn w.state).notes).countP _ + _ ≤ _
        rw [List.countP_append]
        omega
      · rcases mem_resumed found now with ⟨j, other, at_⟩ | ⟨r, k, waits, rfl⟩
        · -- Another reception of the item would be an activity of the same number.
          have numbered := (own u (List.mem_of_getElem? at_) again).1
          exact absurd (held.apart j i u t at_ found (activity_of_receives again)
            (activity_of_receives receives) (numbered.trans same.symm)) other
        · exact ⟨same, later waits⟩
    · refine ⟨number, left, ?_, fun u now again => ?_⟩
      · change (w.log ++ ((t.resume answer).turn w.state).notes).countP _ + _ ≤ _
        rw [List.countP_append, countP_of_not_receives took.noted receives]
        omega
      · rcases mem_resumed found now with ⟨j, -, at_⟩ | ⟨r, k, -, rfl⟩
        · exact own u (List.mem_of_getElem? at_) again
        · exact absurd again receives

/-- The threads that a gesture leaves: those that were there, and one of its own. -/
theorem mem_call {gesture : Gesture} {u : Thread} (member : u ∈ (w.call platform gesture).threads) :
    u ∈ w.threads ∨ ∃ r k, ((gesture.task platform).turn w.state).rest = .waits r k ∧
      u = Thread.begun gesture w.state r k := by
  rw [World.call] at member
  generalize (gesture.task platform).turn w.state = ended at member ⊢
  obtain ⟨state, notes, rest⟩ := ended
  cases rest with
  | returned a => exact .inl member
  | threw fault => exact .inl member
  | waits request resume =>
    rcases List.mem_append.mp member with kept | new
    · exact .inl kept
    · exact .inr ⟨request, resume, rfl, List.mem_singleton.mp new⟩

/-- What a person does sends no reservation, and begins the reception of an item once. -/
theorem Sends.called (sends : Sends platform w) (gesture : Gesture)
    (called : Called platform w gesture) : Sends platform (w.call platform gesture) := by
  have grows : Grows platform gesture.may w.state (w.call platform gesture).state := called.grows
  have used : ∀ key, Used (w.call platform gesture) key →
      Used w key ∨ gesture.receives = some key := by
    rintro key (⟨u, now, receives⟩ | ⟨sent, logged⟩)
    · rcases mem_call now with earlier | ⟨r, k, -, rfl⟩
      · exact .inl (.inl ⟨u, earlier, receives⟩)
      · exact .inr receives
    · rcases List.mem_append.mp logged with earlier | noted
      · exact .inl (.inr ⟨sent, earlier⟩)
      · exact .inr (receives_of_noted (called.noted _ noted) (by simp [isReserve]))
  -- Where the gesture receives the item, its offer was there and is taken, or nothing was done.
  have receives : ∀ key, gesture.receives = some key → gesture = .action key .receive := by
    intro key is
    unfold Gesture.receives at is
    split at is
    · cases is
      rfl
    · cases is
  refine ⟨named_of_grows grows sends.named, fun key now => ?_, fun key => ?_⟩
  · have kept : Used w key → NamedAt platform (w.call platform gesture).state key ∧
        ¬(w.call platform gesture).state.Offers key := by
      intro before
      obtain ⟨named, taken⟩ := sends.used key before
      exact ⟨named.mono grows.uuids, not_offers_of_grows grows named taken⟩
    rcases used key now with before | is
    · exact kept before
    · obtain rfl := receives key is
      rcases turn_action_receive platform w.state key with
        nothing | ⟨offered, taken⟩
      · have same : w.call platform (.action key .receive) = w := by
          rw [World.call, Gesture.task, nothing, List.append_nil]
        rw [same] at now
        exact kept now
      · exact ⟨(sends.named key offered).mono grows.uuids, taken⟩
  · obtain ⟨number, left, counted, own⟩ := sends.once key
    by_cases is : gesture.receives = some key
    · obtain rfl := receives key is
      rcases turn_action_receive platform w.state key with
        nothing | ⟨offered, taken⟩
      · have same : w.call platform (.action key .receive) = w := by
          rw [World.call, Gesture.task, nothing, List.append_nil]
        rw [same]
        exact ⟨number, left, counted, own⟩
      · have unused : ¬Used w key := fun before => (sends.used key before).2 offered
        have unlogged : w.log.countP (isReserve key) = 0 := by
          refine List.countP_eq_zero.mpr fun m logged is => unused (.inr ?_)
          cases m with
          | sent slot sent =>
            have slotIs : slot = (key, .reserve_reception) := by simpa [isReserve] using is
            exact ⟨sent, slotIs ▸ logged⟩
          | refused slot pending => cases is
          | reconciled key left => cases is
          | downloaded name => cases is
        have few : AtMost (fun m => isReserve key m) 1 (action platform key .receive) w.state :=
          one_action
        obtain ⟨left', counted', later⟩ := few.turn
        have noted : ((action platform key .receive).turn w.state).notes.countP (isReserve key) +
            left' ≤ 1 := by
          simpa only [Bool.decide_eq_true] using counted'
        refine ⟨(Gesture.action key .receive).number w.state, left', ?_, fun u now again => ?_⟩
        · change (w.log ++ ((action platform key .receive).turn w.state).notes).countP _ + _ ≤ _
          rw [List.countP_append, unlogged]
          omega
        · rcases mem_call now with earlier | ⟨r, k, waits, rfl⟩
          · exact absurd (.inl ⟨u, earlier, again⟩) unused
          · exact ⟨rfl, later waits⟩
    · refine ⟨number, left, ?_, fun u now again => ?_⟩
      · change (w.log ++ ((gesture.task platform).turn w.state).notes).countP _ + _ ≤ _
        rw [List.countP_append, countP_of_not_receives called.noted is]
        omega
      · rcases mem_call now with earlier | ⟨r, k, -, rfl⟩
        · exact own u earlier again
        · exact absurd again is

/-! ### Between any two steps -/

/-- What holds between any two steps. -/
structure InOrder (platform : Platform) (w : World) : Prop where
  held : Held platform w.threads w.state
  sends : Sends platform w

theorem opened_inOrder (storage : Storage) : InOrder platform (World.opened storage) where
  held := by
    refine ⟨fun _ member => absurd member List.not_mem_nil,
      fun _ member => absurd member List.not_mem_nil,
      fun i j t u at_ => by simp [World.opened] at at_, fun busy => ?_, fun underway => ?_⟩
    · exact absurd busy Bool.false_ne_true
    · obtain ⟨t, member, -⟩ := underway
      exact absurd member List.not_mem_nil
  sends := by
    have none : ∀ key, ¬(World.opened storage).state.Offers key :=
      fun key ⟨_, member, _⟩ => absurd member List.not_mem_nil
    refine ⟨fun key offered => absurd offered (none key), fun key used => ?_, fun key => ?_⟩
    · rcases used with ⟨_, member, _⟩ | ⟨_, member⟩
      · exact absurd member List.not_mem_nil
      · exact absurd member List.not_mem_nil
    · exact ⟨0, 0, by simp [World.opened], fun _ member => absurd member List.not_mem_nil⟩

theorem inOrder_of_step {act : Act} (taken : step platform w act = some w')
    (before : InOrder platform w) : InOrder platform w' := by
  cases act with
  | gesture gesture =>
    cases taken
    have called := before.held.called gesture
    exact ⟨called.held, before.sends.called gesture called⟩
  | answer index request answer =>
    simp only [step] at taken
    split at taken
    · cases taken
    · next t found =>
      split at taken
      · next same =>
        subst same
        cases taken
        have took := before.held.took found (before.held.proper found answer)
        exact ⟨took.held, before.sends.answered before.held found took⟩
      · cases taken
  | storage denies =>
    cases taken
    have moves : EpochsMove w.state { w.state with storage := { w.state.storage with denies := denies } } :=
      .inl ⟨rfl, rfl, rfl, le_refl _⟩
    exact ⟨before.held.moves moves, before.sends.named, before.sends.used, before.sends.once⟩

/-- A task of an earlier context is answered. -/
def Stale (tr : Transition World Act) : Prop :=
  ∃ index r answer t, tr.act = .answer index r answer ∧ tr.source.threads[index]? = some t ∧
    t.epoch ≠ tr.source.state.localEpoch

theorem state_of_stale {tr : Transition World Act}
    (taken : step platform tr.source tr.act = some tr.target) (inTime : InTime tr)
    (before : InOrder platform tr.source) (stale : Stale tr) : tr.target.state = tr.source.state := by
  obtain ⟨w, act, w'⟩ := tr
  obtain ⟨index, r, answer, t, rfl, found, earlier⟩ := stale
  change step platform w _ = some w' at taken
  change w.threads[index]? = some t at found
  simp only [step, found] at taken
  split at taken
  · next same =>
    subst same
    cases taken
    exact (before.held.silent found earlier fun _ => inTime.timely found).1
  · cases taken

/-- The workspace is busy exactly while an activity of the present context is under way. -/
theorem InOrder.busy_iff (inOrder : InOrder platform w) : w.state.current.busy = true ↔
    ∃ t ∈ w.threads, t.gesture.isActivity = true ∧ t.epoch = w.state.localEpoch := by
  rw [inOrder.held.busy]
  constructor
  · rintro ⟨t, member, is, latest⟩
    rcases inOrder.held.placed t member with ⟨same, -⟩ | ⟨-, number, -⟩
    · exact ⟨t, member, is, same⟩
    · omega
  · rintro ⟨t, member, is, same⟩
    rcases inOrder.held.placed t member with ⟨-, -, -, latest⟩ | ⟨earlier, -⟩
    · exact ⟨t, member, is, latest is⟩
    · omega

/-- It is the latest activity that was begun. -/
theorem InOrder.latest (inOrder : InOrder platform w) {t u : Thread} (member : t ∈ w.threads)
    (is : t.gesture.isActivity = true) (present : t.epoch = w.state.localEpoch)
    (other : u ∈ w.threads) (also : u.gesture.isActivity = true) (same : u.epoch = w.state.localEpoch) :
    u = t := by
  have number : ∀ v ∈ w.threads, v.gesture.isActivity = true → v.epoch = w.state.localEpoch →
      v.number = w.state.activityEpoch := by
    intro v member is present
    rcases inOrder.held.placed v member with ⟨-, -, -, latest⟩ | ⟨earlier, -⟩
    · exact latest is
    · omega
  obtain ⟨i, ati⟩ := List.getElem?_of_mem member
  obtain ⟨j, atj⟩ := List.getElem?_of_mem other
  have place := inOrder.held.apart j i u t atj ati also is
    ((number u other also same).trans (number t member is present).symm)
  subst place
  rw [ati] at atj
  exact (Option.some.inj atj).symm

/-- All the reservations of an item were sent under one key. -/
theorem InOrder.one_key (inOrder : InOrder platform w) {sent sent' : String}
    (first : Note.sent (key, .reserve_reception) sent ∈ w.log)
    (second : Note.sent (key, .reserve_reception) sent' ∈ w.log) : sent = sent' := by
  obtain ⟨number, left, counted, -⟩ := inOrder.sends.once key
  have few : (w.log.filter (isReserve key)).length ≤ 1 := by
    rw [← List.countP_eq_length_filter]
    omega
  have firstIs := List.mem_filter.mpr ⟨first, show isReserve key _ = true by simp [isReserve]⟩
  have secondIs := List.mem_filter.mpr ⟨second, show isReserve key _ = true by simp [isReserve]⟩
  generalize w.log.filter (isReserve key) = notes at few firstIs secondIs
  rcases notes with _ | ⟨m, _ | ⟨m', rest⟩⟩
  · exact absurd firstIs List.not_mem_nil
  · have same := (List.mem_singleton.mp firstIs).trans (List.mem_singleton.mp secondIs).symm
    exact (Note.sent.inj same).2
  · simp at few

/-! ### A file that cannot be read -/

/-- A browser of which the texts do not matter. -/
def plainPlatform : Platform where
  uiOrigin := "ui"
  terminalOrigin := "terminal"
  randomUUID n := String.ofList (List.replicate n '0')
  randomUUID_injective m n same := by
    have lengths := congrArg (fun text : String => text.toList.length) same
    simpa using lengths
  sha256 _ := ""
  fingerprint _ := ""
  documentBytes _ := []
  encodeText _ := []
  fromBase64 _ := []

def noStorage : Storage := ⟨none, false⟩

/-- The service answers the only task that waits, and its body follows. -/
def serves (call : Call) (mediaType : String) (body : Wire) (maximum : Nat) : List Act :=
  [.answer 0 (.fetch call) (.ok ⟨200, some mediaType⟩), .answer 0 (.body maximum) (.ok body)]

def sessionServed : List Act := serves .session "application/json" (.session "csrf") 32768

/-- The workspace is started, with the reception of originals offered. -/
def startActs : List Act :=
  .gesture .start :: sessionServed ++ sessionServed ++
    serves .profiles workspaceAccept (.context "d" ⟨"s", "p", ⟨"t", 1, ""⟩⟩ true []) 65536 ++ sessionServed

def plainFile : File := ⟨"a.txt", 1, "txt", "text/plain"⟩

/-- A file is chosen, and the intake is opened anew before it is read. -/
def fileActs : List Act := startActs ++ [.gesture (.addFiles [plainFile]), .gesture .openIntake]

/-- The read that fails then shows its notice in the context that was opened since. -/
theorem unreadable_file_shows_notice :
    ∃ ts w, Run (step plainPlatform) (World.opened noStorage) ts w ∧ ∃ tr ∈ ts, Stale tr ∧
      tr.source.state.current.notices = [] ∧
      tr.target.state.current.notices = [⟨"The file cannot be read.", .error⟩] := by
  obtain ⟨s, u, t, performed, found, earlier, present, taken, before, after⟩ :
      ∃ s u t, Foundation.perform (step plainPlatform) (World.opened noStorage) fileActs = some s ∧
        s.threads[0]? = some t ∧ t.epoch = 1 ∧ s.state.localEpoch = 2 ∧
        step plainPlatform s (.answer 0 (.arrayBuffer plainFile)
          (.error (.unreadable "The file cannot be read."))) = some u ∧
        s.state.current.notices = [] ∧
        u.state.current.notices = [⟨"The file cannot be read.", .error⟩] :=
    ⟨_, _, _, rfl, rfl, rfl, rfl, rfl, rfl, rfl⟩
  have run := (run_of_perform _ _ _ _ performed).append (.single taken)
  refine ⟨_, u, run, ⟨s, _, u⟩, List.mem_append_right _ (List.mem_singleton_self _), ?_, before, after⟩
  refine ⟨0, _, _, t, rfl, found, ?_⟩
  change t.epoch ≠ s.state.localEpoch
  omega

/-! ### The workspace over whole runs -/

/-- In every run the workspace is busy exactly while an activity of the present context is under way,
which is then the only one, and all reservations of an item are sent under one key. What is answered
in a later context than it was asked in changes nothing of the state, when no file read of an earlier
context is answered with an error of its own. -/
theorem stale_answers_change_nothing {storage : Storage} {ts : List (Transition World Act)} {w : World}
    (run : Run (step platform) (World.opened storage) ts w) :
    (∀ tr ∈ ts, InTime tr → Stale tr → tr.target.state = tr.source.state) ∧
    (w.state.current.busy = true ↔
      ∃ t ∈ w.threads, t.gesture.isActivity = true ∧ t.epoch = w.state.localEpoch) ∧
    (∀ t ∈ w.threads, ∀ u ∈ w.threads, t.gesture.isActivity = true → u.gesture.isActivity = true →
      t.epoch = w.state.localEpoch → u.epoch = w.state.localEpoch → u = t) ∧
    (∀ key sent sent', Note.sent (key, .reserve_reception) sent ∈ w.log →
      Note.sent (key, .reserve_reception) sent' ∈ w.log → sent = sent') := by
  obtain ⟨final, all⟩ := run.invariant (P := InOrder platform)
    (fun _ _ _ taken before => inOrder_of_step taken before) (opened_inOrder storage)
  refine ⟨fun tr member inTime stale => ?_, final.busy_iff,
    fun t member u other is also present same => ?_,
    fun key sent sent' first second => final.one_key first second⟩
  · exact state_of_stale (run.steps tr member) inTime (all tr member).1 stale
  · exact final.latest member is present other also same

/-- The file is read with an error of its own. -/
def Act.unreadable : Act → Bool
  | .answer _ (.arrayBuffer _) (.error (.unreadable _)) => true
  | _ => false

theorem inTime_of_readable {tr : Transition World Act} (readable : tr.act.unreadable = false) :
    InTime tr := by
  unfold InTime
  split
  · next act =>
    rw [act] at readable
    cases readable
  · trivial

def readActs : List Act :=
  startActs ++ [.gesture (.addFiles [plainFile]), .answer 0 (.arrayBuffer plainFile) (.ok [])]

/-- The same file is read in time: it is added, and nothing is busy. -/
theorem readable_file_is_added :
    ∃ ts w, Run (step plainPlatform) (World.opened noStorage) ts w ∧ w.state.items.length = 1 ∧
      w.threads = [] ∧ w.state.current.busy = false ∧
      ∀ tr ∈ ts, Stale tr → tr.target.state = tr.source.state := by
  have readable : readActs.all (fun act => !act.unreadable) = true := rfl
  obtain ⟨w, performed, added, none⟩ :
      ∃ w, Foundation.perform (step plainPlatform) (World.opened noStorage) readActs = some w ∧
        w.state.items.length = 1 ∧ w.threads = [] := ⟨_, rfl, rfl, rfl⟩
  have run := run_of_perform _ _ _ _ performed
  obtain ⟨unchanged, busy, -⟩ := stale_answers_change_nothing run
  refine ⟨_, w, run, added, none, Bool.eq_false_iff.mpr fun is => ?_, fun tr member stale =>
    unchanged tr member (inTime_of_readable ?_) stale⟩
  · obtain ⟨t, member, -⟩ := busy.mp is
    rw [none] at member
    exact absurd member List.not_mem_nil
  · simpa using List.all_eq_true.mp readable _ (act_mem_of_transitions member)

end LedgerDesk.Workspace
