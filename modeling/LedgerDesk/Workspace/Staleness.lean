import LedgerDesk.Workspace.Opening

/-!
# Stale answers

Whatever a person does and whatever is answered, in any order: a task of an earlier context changes
nothing, and the workspace is busy exactly while an activity of the present context is under way.
-/
namespace LedgerDesk.Workspace

open Foundation LedgerDesk.Preparation Async

variable {platform : Platform} {s s' : Controller} {t u : Thread} {threads : List Thread} {i : Nat}

/-! ### Threads -/

/-- The states in which a task is too late. -/
def Thread.stale (t : Thread) : Controller → Prop := Past t.epoch t.number t.lifetime

/-- What is left of a task: when it is an activity, its end comes last. -/
def Thread.Sound (platform : Platform) (t : Thread) : Prop :=
  if t.gesture.isActivity = true then
    ∃ k : Answer t.request → Task Unit, Waiting (rules platform t.gesture.may t.gesture.reconciles t.stale) k ∧
      t.resume = fun o => ensuring (k o) (finish t.number)
  else Waiting (timely platform t.gesture.may t.gesture.reconciles t.stale) t.resume

/-- A task was begun in the present context, as its latest activity if it is one, or in an earlier
one. -/
def Thread.Placed (t : Thread) (s : Controller) : Prop :=
  (t.epoch = s.localEpoch ∧ t.number ≤ s.activityEpoch ∧ t.lifetime ≤ s.lifetime ∧
    (t.gesture.isActivity = true → t.number = s.activityEpoch)) ∨
  (t.epoch < s.localEpoch ∧ t.number < s.activityEpoch ∧ t.lifetime < s.lifetime)

theorem Thread.Placed.past (placed : t.Placed s) (earlier : t.epoch ≠ s.localEpoch) :
    Past t.epoch t.number t.lifetime s := by
  rcases placed with ⟨same, -⟩ | ⟨e, n, l⟩
  · exact absurd same earlier
  · exact ⟨by omega, by omega, by omega⟩

theorem Thread.Placed.moves (placed : t.Placed s) (moves : EpochsMove s s') : t.Placed s' := by
  rcases moves with ⟨e, a, -, l⟩ | ⟨e, a, -, l⟩
  · rcases placed with ⟨same, number, lifetime, latest⟩ | ⟨e', a', l'⟩
    · exact .inl ⟨same.trans e.symm, a ▸ number, lifetime.trans l, fun is => (latest is).trans a.symm⟩
    · exact .inr ⟨by omega, by omega, by omega⟩
  · rcases placed with ⟨same, number, lifetime, -⟩ | ⟨e', a', l'⟩
    · exact .inr ⟨by omega, by omega, by omega⟩
    · exact .inr ⟨by omega, by omega, by omega⟩

/-! ### What holds of the threads -/

/-- An activity that is the latest is under way. -/
def Underway (threads : List Thread) (s : Controller) : Prop :=
  ∃ t ∈ threads, t.gesture.isActivity = true ∧ t.number = s.activityEpoch

structure Held (platform : Platform) (threads : List Thread) (s : Controller) : Prop where
  sound : ∀ t ∈ threads, t.Sound platform
  placed : ∀ t ∈ threads, t.Placed s
  apart : ∀ (i j : Nat) (t u : Thread), threads[i]? = some t → threads[j]? = some u → t.gesture.isActivity = true →
    u.gesture.isActivity = true → t.number = u.number → i = j
  busy : s.current.busy = true ↔ Underway threads s

theorem Held.moves (held : Held platform threads s) (moves : EpochsMove s s') :
    Held platform threads s' where
  sound := held.sound
  placed t member := (held.placed t member).moves moves
  apart := held.apart
  busy := by
    rcases moves with ⟨-, a, b, -⟩ | ⟨-, a, b, -⟩
    · rw [b, held.busy, Underway, Underway, a]
    · -- The context has changed: no activity is as late as that.
      rw [b]
      refine ⟨nofun, fun ⟨t, member, _, latest⟩ => ?_⟩
      have placed := held.placed t member
      rcases placed with ⟨-, number, -⟩ | ⟨-, number, -⟩
      · omega
      · omega

/-- A task waits for something else. -/
theorem Held.set (held : Held platform threads s) (found : threads[i]? = some t)
    (sound : u.Sound platform) (gesture : u.gesture = t.gesture) (epoch : u.epoch = t.epoch)
    (number : u.number = t.number) (lifetime : u.lifetime = t.lifetime) :
    Held platform (threads.set i u) s := by
  have member := List.mem_of_getElem? found
  have within := (List.getElem?_eq_some_iff.mp found).1
  have old : ∀ (j : Nat) (v : Thread), (threads.set i u)[j]? = some v → ∃ v' : Thread, threads[j]? = some v' ∧
      v.gesture = v'.gesture ∧ v.number = v'.number := by
    intro j v at_
    by_cases same : i = j
    · subst same
      rw [List.getElem?_set_self within] at at_
      cases at_
      exact ⟨t, found, gesture, number⟩
    · rw [List.getElem?_set_ne same] at at_
      exact ⟨v, at_, rfl, rfl⟩
  refine ⟨fun v new => ?_, fun v new => ?_, fun j k v w atj atk vIs wIs same => ?_, ?_⟩
  · rcases List.mem_or_eq_of_mem_set new with kept | rfl
    · exact held.sound v kept
    · exact sound
  · rcases List.mem_or_eq_of_mem_set new with kept | rfl
    · exact held.placed v kept
    · have placed := held.placed t member
      rw [Thread.Placed] at placed ⊢
      rwa [gesture, epoch, number, lifetime]
  · obtain ⟨v', atj', gv, nv⟩ := old j v atj
    obtain ⟨w', atk', gw, nw⟩ := old k w atk
    exact held.apart j k v' w' atj' atk' (gv ▸ vIs) (gw ▸ wIs) (nv.symm.trans (same.trans nw))
  · rw [held.busy]
    constructor
    · rintro ⟨v, is, activity, latest⟩
      obtain ⟨j, atj⟩ := List.getElem?_of_mem is
      by_cases same : i = j
      · subst same
        rw [found] at atj
        cases atj
        exact ⟨u, List.mem_of_getElem? (List.getElem?_set_self within), gesture ▸ activity,
          number.trans latest⟩
      · exact ⟨v, List.mem_of_getElem? ((List.getElem?_set_ne same).trans atj), activity, latest⟩
    · rintro ⟨v, is, activity, latest⟩
      obtain ⟨j, atj⟩ := List.getElem?_of_mem is
      obtain ⟨v', atj', gv, nv⟩ := old j v atj
      exact ⟨v', List.mem_of_getElem? atj', gv ▸ activity, nv.symm.trans latest⟩

/-- A thread beside the one that is erased, with its place before. -/
theorem getElem?_of_eraseIdx {j : Nat} (at_ : (threads.eraseIdx i)[j]? = some u) :
    ∃ k, k ≠ i ∧ threads[k]? = some u ∧ j = if k < i then k else k - 1 := by
  rw [List.getElem?_eraseIdx] at at_
  split at at_
  · next before => exact ⟨j, by omega, at_, by rw [if_pos before]⟩
  · next after => exact ⟨j + 1, by omega, at_, by rw [if_neg (by omega)]; omega⟩

theorem mem_eraseIdx_of_ne {k : Nat} (other : k ≠ i) (found : threads[k]? = some u) :
    u ∈ threads.eraseIdx i := by
  rcases Nat.lt_or_gt_of_ne other with before | after
  · refine List.mem_of_getElem? (i := k) ?_
    rw [List.getElem?_eraseIdx, if_pos before, found]
  · refine List.mem_of_getElem? (i := k - 1) ?_
    rw [List.getElem?_eraseIdx, if_neg (by omega), Nat.sub_add_cancel (by omega), found]

/-- A task that is over is none of the threads, and leaves the flag to the others. -/
theorem Held.erase (held : Held platform threads s)
    (busy : s'.current.busy = true ↔ Underway (threads.eraseIdx i) s')
    (epoch : s'.localEpoch = s.localEpoch) (number : s'.activityEpoch = s.activityEpoch)
    (lifetime : s'.lifetime = s.lifetime) : Held platform (threads.eraseIdx i) s' where
  sound v member := held.sound v (List.mem_of_mem_eraseIdx member)
  placed v member := by
    have placed := held.placed v (List.mem_of_mem_eraseIdx member)
    rw [Thread.Placed] at placed ⊢
    rwa [epoch, number, lifetime]
  apart j k v w atj atk vIs wIs same := by
    obtain ⟨j', -, atj', rfl⟩ := getElem?_of_eraseIdx atj
    obtain ⟨k', -, atk', rfl⟩ := getElem?_of_eraseIdx atk
    rw [held.apart j' k' v w atj' atk' vIs wIs same]
  busy := busy

/-- A task that is no activity is over. -/
theorem Held.left (held : Held platform threads s) (found : threads[i]? = some t)
    (other : t.gesture.isActivity = false) : Held platform (threads.eraseIdx i) s := by
  refine held.erase ?_ rfl rfl rfl
  rw [held.busy]
  constructor
  · rintro ⟨v, is, activity, latest⟩
    obtain ⟨k, at_⟩ := List.getElem?_of_mem is
    refine ⟨v, mem_eraseIdx_of_ne ?_ at_, activity, latest⟩
    rintro rfl
    rw [found] at at_
    cases at_
    rw [other] at activity
    cases activity
  · rintro ⟨v, is, rest⟩
    exact ⟨v, List.mem_of_mem_eraseIdx is, rest⟩

/-- An activity is over; when it was the latest, the workspace is no longer busy. -/
theorem Held.finished (held : Held platform threads s) (found : threads[i]? = some t)
    (is : t.gesture.isActivity = true) : Held platform (threads.eraseIdx i) (s.idle t.number) := by
  have member := List.mem_of_getElem? found
  rw [Controller.idle]
  split
  · next latest =>
    refine held.erase ?_ rfl rfl rfl
    constructor
    · intro busy
      cases busy
    -- Another activity of that number would be the same one.
    rintro ⟨v, erased, activity, same⟩
    obtain ⟨j, at_⟩ := List.getElem?_of_mem erased
    obtain ⟨k, other, at_, -⟩ := getElem?_of_eraseIdx at_
    have number : v.number = t.number := same.trans latest
    exact absurd (held.apart k i v t at_ found activity is number) other
  · next older =>
    refine held.erase ?_ rfl rfl rfl
    rw [held.busy]
    constructor
    · rintro ⟨v, stands, activity, latest⟩
      obtain ⟨k, at_⟩ := List.getElem?_of_mem stands
      refine ⟨v, mem_eraseIdx_of_ne ?_ at_, activity, latest⟩
      rintro rfl
      rw [found] at at_
      cases at_
      exact older latest.symm
    · rintro ⟨v, stands, rest⟩
      exact ⟨v, List.mem_of_mem_eraseIdx stands, rest⟩

theorem getElem?_of_concat {j : Nat} {v : Thread} (at_ : (threads ++ [t])[j]? = some v) :
    threads[j]? = some v ∨ (j = threads.length ∧ v = t) := by
  rcases Nat.lt_or_ge j threads.length with within | past
  · rw [List.getElem?_append_left within] at at_
    exact .inl at_
  · rw [List.getElem?_append_right past, List.getElem?_singleton] at at_
    split at at_
    · cases at_
      exact .inr ⟨by omega, rfl⟩
    · cases at_

/-- A task that is no activity is begun. -/
theorem Held.joined (held : Held platform threads s) (sound : t.Sound platform) (placed : t.Placed s)
    (other : t.gesture.isActivity = false) : Held platform (threads ++ [t]) s := by
  refine ⟨fun v member => ?_, fun v member => ?_, fun j k v w atj atk vIs wIs same => ?_, ?_⟩
  · rcases List.mem_append.mp member with kept | new
    · exact held.sound v kept
    · exact List.mem_singleton.mp new ▸ sound
  · rcases List.mem_append.mp member with kept | new
    · exact held.placed v kept
    · exact List.mem_singleton.mp new ▸ placed
  · rcases getElem?_of_concat atj with keptj | ⟨-, rfl⟩
    · rcases getElem?_of_concat atk with keptk | ⟨-, rfl⟩
      · exact held.apart j k v w keptj keptk vIs wIs same
      · rw [other] at wIs
        cases wIs
    · rw [other] at vIs
      cases vIs
  · rw [held.busy]
    constructor
    · rintro ⟨v, member, rest⟩
      exact ⟨v, List.mem_append_left _ member, rest⟩
    · rintro ⟨v, member, activity, latest⟩
      rcases List.mem_append.mp member with kept | new
      · exact ⟨v, kept, activity, latest⟩
      · rw [List.mem_singleton.mp new, other] at activity
        cases activity

/-- An activity is begun where none is under way. -/
theorem Held.begun (held : Held platform threads s) (idle : s.current.busy = false)
    (sound : t.Sound platform) (is : t.gesture.isActivity = true) (epoch : t.epoch = s.localEpoch)
    (number : t.number = s.activityEpoch + 1) (lifetime : t.lifetime = s.lifetime) :
    Held platform (threads ++ [t]) s.beginActivity := by
  have ended : ¬Underway threads s := by
    rw [← held.busy, idle]
    nofun
  have earlier : ∀ v ∈ threads, v.number ≤ s.activityEpoch := by
    intro v member
    rcases held.placed v member with ⟨-, number, -⟩ | ⟨-, number, -⟩
    · exact number
    · exact number.le
  refine ⟨fun v member => ?_, fun v member => ?_, fun j k v w atj atk vIs wIs same => ?_, ?_⟩
  · rcases List.mem_append.mp member with kept | new
    · exact held.sound v kept
    · exact List.mem_singleton.mp new ▸ sound
  · rcases List.mem_append.mp member with kept | new
    · rcases held.placed v kept with ⟨same, numbered, lived, latest⟩ | ⟨e, a, l⟩
      · -- What was begun in this context before is no activity.
        refine .inl ⟨same, numbered.trans (Nat.le_succ _), lived, fun activity => ?_⟩
        exact absurd ⟨v, kept, activity, latest activity⟩ ended
      · exact .inr ⟨e, a.trans (Nat.lt_succ_self _), l⟩
    · rw [List.mem_singleton.mp new]
      exact .inl ⟨epoch, number.le, lifetime.le, fun _ => number⟩
  · rcases getElem?_of_concat atj with keptj | ⟨rfl, rfl⟩
    · rcases getElem?_of_concat atk with keptk | ⟨-, rfl⟩
      · exact held.apart j k v w keptj keptk vIs wIs same
      · have low := earlier v (List.mem_of_getElem? keptj)
        omega
    · rcases getElem?_of_concat atk with keptk | ⟨rfl, -⟩
      · have low := earlier w (List.mem_of_getElem? keptk)
        omega
      · rfl
  · exact ⟨fun _ => ⟨t, by simp, is, number⟩, fun _ => rfl⟩

/-! ### A turn -/

/-- What a task goes on with. -/
def Thread.Proper (platform : Platform) (t : Thread) (x : Task Unit) (s : Controller) : Prop :=
  if t.gesture.isActivity = true then
    ∃ y, x = ensuring y (finish t.number) ∧ Tame (rules platform t.gesture.may t.gesture.reconciles t.stale) y s
  else Tame (timely platform t.gesture.may t.gesture.reconciles t.stale) x s

/-- What a turn keeps, but for the flag. -/
structure Grows (platform : Platform) (may : Slot → Prop) (s s' : Controller) : Prop where
  uuids : s.uuids ≤ s'.uuids
  offers : ∀ key, s'.Offers key → s.Offers key ∨ Drawn platform s s' key
  pending : ∀ p ∈ s'.pending, p ∈ s.pending ∨ may p.1

theorem Keeps.grows {may : Slot → Prop} (keeps : Keeps platform may s s') :
    Grows platform may s s' :=
  ⟨keeps.uuids, keeps.offers, keeps.pending⟩

theorem Keeps.idle {may : Slot → Prop} (keeps : Keeps platform may s s') (number : Nat) :
    Grows platform may s (s'.idle number) := by
  unfold Controller.idle
  split
  · exact ⟨keeps.uuids, keeps.offers, keeps.pending⟩
  · exact keeps.grows

structure Took (platform : Platform) (w : World) (i : Nat) (t : Thread) (ended : Ended) : Prop where
  held : Held platform (w.resumed i t ended).threads ended.state
  noted : ∀ m ∈ ended.notes, mayNote t.gesture.may t.gesture.reconciles m
  grows : Grows platform t.gesture.may w.state ended.state

theorem turn_result {rules' : Rules Controller Note Answer} {x : Task Unit}
    (moves : rules'.moves = Keeps platform t.gesture.may) (tame : Tame rules' x s) :
    Tame.Result rules' s (x.turn s) :=
  tame.turn (fun s => moves ▸ Keeps.refl s) fun first second => by
    rw [moves] at first second ⊢
    exact first.trans second

variable {w : World}

/-- A task takes its turn as its rules say, and what is left of it does too. -/
theorem Held.took {x : Task Unit} (held : Held platform w.threads w.state)
    (found : w.threads[i]? = some t) (proper : t.Proper platform x w.state) :
    Took platform w i t (x.turn w.state) := by
  by_cases is : t.gesture.isActivity = true
  · rw [Thread.Proper, if_pos is] at proper
    obtain ⟨y, rfl, tame⟩ := proper
    have result := turn_result (t := t) rfl tame
    have keeps : Keeps platform t.gesture.may w.state (y.turn w.state).state := result.moves
    have moved := held.moves keeps.epochs
    rw [turn_ensuring, ensured]
    split
    · exact ⟨moved.finished found is, result.noted, keeps.idle _⟩
    · exact ⟨moved.finished found is, result.noted, keeps.idle _⟩
    · next request resume rest =>
      refine ⟨moved.set found ?_ rfl rfl rfl rfl, result.noted, keeps.grows⟩
      rw [Thread.Sound, if_pos is]
      exact ⟨resume, result.waits rest, rfl⟩
  · rw [Thread.Proper, if_neg is] at proper
    have other : t.gesture.isActivity = false := Bool.eq_false_iff.mpr is
    have result := turn_result (t := t) rfl proper
    have keeps : Keeps platform t.gesture.may w.state (x.turn w.state).state := result.moves
    have moved := held.moves keeps.epochs
    refine ⟨?_, result.noted, keeps.grows⟩
    rw [World.resumed]
    split
    · next request resume rest =>
      refine moved.set found ?_ rfl rfl rfl rfl
      rw [Thread.Sound, if_neg is]
      exact result.waits rest
    · exact moved.left found other

/-! ### Answers -/

/-- No file read that was begun in an earlier context is answered with an error of its own. -/
def InTime (tr : Transition World Act) : Prop :=
  match tr.act with
  | .answer index (.arrayBuffer _) (.error (.unreadable _)) =>
    ∀ t, tr.source.threads[index]? = some t → t.epoch = tr.source.state.localEpoch
  | _ => True

theorem InTime.timely {index : Nat} {answer : Answer t.request}
    (inTime : InTime ⟨w, .answer index t.request answer, w'⟩) (found : w.threads[index]? = some t) :
    Timely t.stale t.request answer w.state := by
  obtain ⟨gesture, epoch, number, lifetime, request, resume⟩ := t
  cases request with
  | fetch call => trivial
  | body maximum => trivial
  | digest => trivial
  | arrayBuffer file =>
    cases answer with
    | ok bytes => trivial
    | error e =>
      cases e with
      | aborted => trivial
      | unreadable message => exact fun past => past.1 (inTime _ found).symm

/-- A task that is answered goes on properly. -/
theorem Held.proper (held : Held platform w.threads w.state) (found : w.threads[i]? = some t)
    (answer : Answer t.request) : t.Proper platform (t.resume answer) w.state := by
  have sound := held.sound t (List.mem_of_getElem? found)
  rw [Thread.Sound] at sound
  rw [Thread.Proper]
  split at sound
  · next is =>
    obtain ⟨k, waiting, resume⟩ := sound
    rw [if_pos is, resume]
    exact ⟨k answer, rfl, (waiting answer w.state).2⟩
  · next is =>
    rw [if_neg is]
    exact (sound answer w.state).2

/-- Too late a task changes nothing: an activity whatever it is answered, and the reading of files
but for a file that cannot be read. -/
theorem Held.silent (held : Held platform w.threads w.state) (found : w.threads[i]? = some t)
    (earlier : t.epoch ≠ w.state.localEpoch) {answer : Answer t.request}
    (allowed : t.gesture.isActivity = false → Timely t.stale t.request answer w.state) :
    ((t.resume answer).turn w.state).state = w.state ∧
      ((t.resume answer).turn w.state).notes = [] := by
  have member := List.mem_of_getElem? found
  have sound := held.sound t member
  have passed : t.stale w.state := (held.placed t member).past earlier
  rw [Thread.Sound] at sound
  split at sound
  · next is =>
    obtain ⟨k, waiting, resume⟩ := sound
    have result := ((waiting answer w.state).1 passed trivial).turn
    have idle : w.state.idle t.number = w.state := by
      rw [Controller.idle, if_neg passed.2.1]
    rw [resume, turn_ensuring, ensured]
    split
    · rw [result.state, idle]
      exact ⟨rfl, result.notes⟩
    · rw [result.state, idle]
      exact ⟨rfl, result.notes⟩
    · exact ⟨result.state, result.notes⟩
  · next is =>
    have result := ((sound answer w.state).1 passed (allowed (Bool.eq_false_iff.mpr is))).turn
    exact ⟨result.state, result.notes⟩

/-! ### What a person does -/

/-- The thread of a task before its first turn. -/
def Thread.fresh (gesture : Gesture) (s : Controller) : Thread :=
  Thread.begun gesture s .digest fun _ =>
    if gesture.isActivity then ensuring (.done ()) (finish (gesture.number s)) else .done ()

theorem fresh_sound (gesture : Gesture) : (Thread.fresh gesture s).Sound platform := by
  change ite (gesture.isActivity = true) _ _
  split
  · next is =>
    refine ⟨fun _ => .done (), fun _ _ => ⟨fun _ _ => trivial, trivial⟩, ?_⟩
    change (fun _ => ite (gesture.isActivity = true) _ _) = _
    rw [if_pos is]
    rfl
  · next other =>
    intro _ s'
    change (_ → _ → Silent _ (ite (gesture.isActivity = true) _ _) s') ∧
      Tame _ (ite (gesture.isActivity = true) _ _) s'
    rw [if_neg other]
    exact ⟨fun _ _ => trivial, trivial⟩

/-- What a gesture leaves is what its thread leaves of its first turn. -/
theorem resumed_fresh {gesture : Gesture} {begun : Controller} {ended : Ended} :
    (World.resumed ⟨begun, w.threads ++ [Thread.fresh gesture s], w.log⟩ w.threads.length
      (Thread.fresh gesture s) ended).threads = match ended.rest with
        | .waits request resume => w.threads ++ [Thread.begun gesture s request resume]
        | _ => w.threads := by
  obtain ⟨state, notes, rest⟩ := ended
  cases rest with
  | returned a => simp [World.resumed, List.eraseIdx_append_of_length_le]
  | threw fault => simp [World.resumed, List.eraseIdx_append_of_length_le]
  | waits request resume => simp [World.resumed, Thread.fresh, Thread.begun]

theorem keeps_opens {may : Slot → Prop} (gesture : Gesture) (s : Controller) :
    Keeps platform may s (gesture.opens s) := by
  unfold Gesture.opens
  split
  · exact keeps_changeContext
  · exact keeps_changeContext
  · exact .refl s

theorem Grows.trans {may : Slot → Prop} {s'' : Controller} (first : Grows platform may s s')
    (second : Grows platform may s' s'') : Grows platform may s s'' where
  uuids := first.uuids.trans second.uuids
  offers key offered := by
    rcases second.offers key offered with offered | ⟨n, low, high, rfl⟩
    · rcases first.offers key offered with offered | ⟨n, low, high, rfl⟩
      · exact .inl offered
      · exact .inr ⟨n, low, lt_of_lt_of_le high second.uuids, rfl⟩
    · exact .inr ⟨n, first.uuids.trans low, high, rfl⟩
  pending f member := by
    rcases second.pending f member with member | allowed
    · exact first.pending f member
    · exact .inr allowed

theorem Grows.mono {may may' : Slot → Prop} (grows : Grows platform may s s')
    (more : ∀ slot, may slot → may' slot) : Grows platform may' s s' :=
  ⟨grows.uuids, grows.offers, fun p member => (grows.pending p member).imp_right (more p.1)⟩

theorem grows_beginActivity {may : Slot → Prop} : Grows platform may s s.beginActivity :=
  ⟨le_refl _, fun _ offered => .inl offered, fun _ member => .inl member⟩

/-- What a person has done leaves the threads in order. -/
structure Called (platform : Platform) (w : World) (gesture : Gesture) : Prop where
  held : Held platform (w.call platform gesture).threads (w.call platform gesture).state
  noted : ∀ m ∈ ((gesture.task platform).turn w.state).notes, mayNote gesture.may gesture.reconciles m
  grows : Grows platform gesture.may w.state (w.call platform gesture).state

/-- A task that has begun takes its first turn as its thread. -/
theorem Held.first {gesture : Gesture} {begun : Controller} {x : Task Unit}
    (held : Held platform (w.threads ++ [Thread.fresh gesture w.state]) begun)
    (proper : (Thread.fresh gesture w.state).Proper platform x begun)
    (grows : Grows platform gesture.may w.state begun)
    (turn : (gesture.task platform).turn w.state = x.turn begun) : Called platform w gesture := by
  have found : (w.threads ++ [Thread.fresh gesture w.state])[w.threads.length]? =
      some (Thread.fresh gesture w.state) := List.getElem?_concat_length
  have took := Held.took (w := ⟨begun, w.threads ++ [Thread.fresh gesture w.state], w.log⟩)
    held found proper
  have threads := took.held
  rw [resumed_fresh] at threads
  refine ⟨?_, ?_, ?_⟩
  · rw [World.call, turn]
    exact threads
  · rw [turn]
    exact took.noted
  · rw [World.call, turn]
    exact grows.trans took.grows

theorem Held.called (held : Held platform w.threads w.state) (gesture : Gesture) :
    Called platform w gesture := by
  have opens : Opening platform gesture w.state _ := opening gesture
  have moved : Keeps platform gesture.may w.state (gesture.opens w.state) := keeps_opens gesture w.state
  have opened := held.moves moved.epochs
  generalize given : (gesture.task platform).turn w.state = ended at opens
  cases opens with
  | quiet keeps =>
    refine ⟨?_, ?_, ?_⟩
    · rw [World.call, given]
      exact held.moves keeps.epochs
    · rw [given]
      exact fun _ none => absurd none List.not_mem_nil
    · rw [World.call, given]
      exact keeps.grows.mono fun _ none => none.elim
  | activity is idle work tame =>
    have number : (Thread.fresh gesture w.state).number = (gesture.opens w.state).activityEpoch + 1 := by
      change _ + ite _ _ _ = _
      rw [if_pos is]
    have begun : Held platform (w.threads ++ [Thread.fresh gesture w.state])
        (gesture.opens w.state).beginActivity :=
      opened.begun idle (fresh_sound gesture) is rfl number rfl
    have proper : (Thread.fresh gesture w.state).Proper platform
        (ensuring work (finish (gesture.number w.state))) (gesture.opens w.state).beginActivity := by
      change ite (gesture.isActivity = true) _ _
      rw [if_pos is]
      exact ⟨work, rfl, tame⟩
    exact begun.first proper (moved.grows.trans grows_beginActivity) given
  | task other work tame =>
    have idle : ¬gesture.isActivity = true := by simp [other]
    have placed : (Thread.fresh gesture w.state).Placed (gesture.opens w.state) := by
      refine .inl ⟨rfl, ?_, le_refl _, fun is => absurd is idle⟩
      change _ + ite _ _ _ ≤ _
      rw [if_neg idle]
      exact le_refl _
    have begun : Held platform (w.threads ++ [Thread.fresh gesture w.state]) (gesture.opens w.state) :=
      opened.joined (fresh_sound gesture) placed other
    have proper : (Thread.fresh gesture w.state).Proper platform work (gesture.opens w.state) := by
      change ite (gesture.isActivity = true) _ _
      rw [if_neg idle]
      exact tame
    exact begun.first proper moved.grows given

end LedgerDesk.Workspace
