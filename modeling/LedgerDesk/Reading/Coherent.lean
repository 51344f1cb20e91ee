import LedgerDesk.Reading.Reader

/-!
# What a reader shows

A request is answered in several turns, of which only the last one writes, and that one looks at the
counters first. So an answer either leaves the reader as it is, or it is wanted and what it was
asked for is still what the reader shows.
-/
namespace LedgerDesk.Reading

open Foundation Foundation.JsonUnits Foundation.Surrogates

variable {ν : Type} {N : Numbers ν}

/-! ### What the requests do -/

theorem json_idle (url : List Nat) : Async.Idle (json N url : ReaderTask ν (Value ν)) := by
  intro response
  cases response with
  | none => trivial
  | some response =>
    simp only [Async.bind]
    split
    · trivial
    · intro body
      cases body with
      | none => trivial
      | some body =>
        simp only [Async.bind]
        split
        · split
          · trivial
          · split <;> trivial
        · split <;> trivial

theorem awaited_idle {α : Type} {x : ReaderTask ν α} (idle : Async.Idle x) :
    Async.Idle (awaited x) :=
  Async.Idle.bind (Async.Idle.tryCatch idle fun _ _ => trivial) fun _ _ => trivial

theorem materialPath_idle (reference : Reference) :
    Async.Idle (materialPath reference : ReaderTask ν (List Nat)) := by
  rw [materialPath]
  split <;> trivial

/-! ### How an answer ends -/

namespace Reader.Wanted

/-- What is left to do of what was asked for under these counters. -/
def Left (epoch sequence : Nat) : Wanted → ReaderTask ν Unit → Prop
  | .list => Async.Hands (takeList epoch) (listFailed epoch)
  | .detail reference =>
    Async.Hands (takeDetail epoch sequence reference) (detailFailed epoch sequence)

def Current (epoch sequence : Nat) (s : Reader ν) : Wanted → Prop
  | .list => epoch = s.epoch
  | .detail _ => epoch = s.epoch ∧ sequence = s.detailSequence

theorem Current.same {wanted : Wanted} {epoch sequence : Nat} {s t : Reader ν}
    (current : wanted.Current epoch sequence t) (epochs : t.epoch = s.epoch)
    (sequences : t.detailSequence = s.detailSequence) : wanted.Current epoch sequence s := by
  cases wanted with
  | list => exact current.trans epochs
  | detail reference => exact ⟨current.1.trans epochs, current.2.trans sequences⟩

theorem Current.epoch_eq {wanted : Wanted} {epoch sequence : Nat} {s : Reader ν}
    (current : wanted.Current epoch sequence s) : epoch = s.epoch := by
  cases wanted with
  | list => exact current
  | detail reference => exact current.1

/-- What an answer makes of the reader when it is wanted. -/
inductive Ends (s : Reader ν) : Wanted → Reader ν → Prop
  | list {body : Value ν} {list : ListResponse ν} (valid : validateListWire body = .ok list)
      (apart : (list.items.map Shown.reference).Nodup) :
      Ends s .list (s.publish { ReaderState.initial with phase := .ready, list := some list })
  | detail {body : Value ν} {shown : Shown ν} (valid : validateDetailWire body = .ok shown) :
      Ends s (.detail shown.reference)
        (s.publish { s.state with detail := some shown, detailPhase := .ready })
  | failed {wanted : Wanted} (error : Fault) : Ends s wanted (s.fail error)

end Reader.Wanted

open Reader.Wanted (Ends)

theorem askList_left (serviceOrigin : List Nat) (epoch sequence : Nat) :
    Reader.Wanted.Left epoch sequence .list (askList N serviceOrigin epoch) :=
  ⟨_, awaited_idle (json_idle _), rfl⟩

theorem askDetail_left (serviceOrigin : List Nat) (epoch sequence : Nat) (reference : Reference) :
    Reader.Wanted.Left epoch sequence (.detail reference)
      (askDetail N serviceOrigin epoch sequence reference) :=
  ⟨_, Async.Idle.bind (materialPath_idle reference) fun _ => awaited_idle (json_idle _), rfl⟩

theorem sameReference_eq {a b : Reference} (same : sameReference a b = true) : a = b := by
  obtain ⟨unit_id, version_id⟩ := a
  simp only [sameReference, Bool.and_eq_true, decide_eq_true_eq] at same
  exact Reference.mk.injEq .. ▸ same

theorem listFailed_turn (epoch : Nat) (error : Fault) (s : Reader ν) :
    (listFailed epoch error).turn s =
      ⟨if epoch = s.epoch then s.fail error else s, [], .returned ()⟩ := by
  rw [listFailed, Async.turn_get]
  split <;> rfl

theorem detailFailed_turn (epoch sequence : Nat) (error : Fault) (s : Reader ν) :
    (detailFailed epoch sequence error).turn s =
      ⟨if epoch = s.epoch ∧ sequence = s.detailSequence then s.fail error else s, [],
        .returned ()⟩ := by
  rw [detailFailed, Async.turn_get]
  split <;> rfl

theorem takeList_turn (epoch : Nat) (body : Value ν) (s : Reader ν) :
    (takeList epoch body).turn s = ⟨s, [], .returned ()⟩ ∨ epoch = s.epoch ∧
      ((takeList epoch body).turn s = ⟨s, [], .threw (.read .invalid)⟩ ∨
        ∃ t, (takeList epoch body).turn s = ⟨t, [], .returned ()⟩ ∧ Ends s .list t) := by
  rw [takeList, Async.turn_get]
  by_cases late : epoch ≠ s.epoch
  · rw [if_pos late]
    exact .inl rfl
  · refine .inr ⟨not_not.mp late, ?_⟩
    rw [if_neg late]
    cases valid : validateListWire body with
    | error issue => exact .inl rfl
    | ok list =>
      dsimp only
      split
      · exact .inl rfl
      next apart =>
        refine .inr ⟨_, rfl, .list valid ?_⟩
        have keys := not_not.mp apart
        refine List.Nodup.of_map itemKey ?_
        rw [List.map_map]
        exact keys

theorem takeDetail_turn (epoch sequence : Nat) (reference : Reference) (body : Value ν)
    (s : Reader ν) :
    (takeDetail epoch sequence reference body).turn s = ⟨s, [], .returned ()⟩ ∨
      (epoch = s.epoch ∧ sequence = s.detailSequence) ∧
      ((takeDetail epoch sequence reference body).turn s =
          ⟨s, [], .threw (.read .invalid)⟩ ∨
        ∃ t, (takeDetail epoch sequence reference body).turn s = ⟨t, [], .returned ()⟩ ∧
          Ends s (.detail reference) t) := by
  rw [takeDetail, Async.turn_get]
  by_cases late : epoch ≠ s.epoch ∨ sequence ≠ s.detailSequence
  · rw [if_pos late]
    exact .inl rfl
  · have current : epoch = s.epoch ∧ sequence = s.detailSequence := by
      rwa [not_or, not_not, not_not] at late
    refine .inr ⟨current, ?_⟩
    rw [if_neg late]
    cases valid : validateDetailWire body with
    | error issue => exact .inl rfl
    | ok shown =>
      dsimp only
      split
      next same =>
        cases sameReference_eq same
        exact .inr ⟨_, rfl, .detail valid⟩
      · exact .inl rfl

/-- What is handed on changes the reader only as long as it is wanted. -/
theorem ends_of_hands {α : Type} {f : α → ReaderTask ν Unit} {h : Fault → ReaderTask ν Unit}
    {y : ReaderTask ν Unit} {s : Reader ν} {wanted : Reader.Wanted} {current : Prop}
    (hands : Async.Hands f h y)
    (next : ∀ a, (f a).turn s = ⟨s, [], .returned ()⟩ ∨ current ∧
      ((f a).turn s = ⟨s, [], .threw (.read .invalid)⟩ ∨
        ∃ t, (f a).turn s = ⟨t, [], .returned ()⟩ ∧ Ends s wanted t))
    (caught : ∀ e, (h e).turn s = ⟨s, [], .returned ()⟩ ∨
      current ∧ (h e).turn s = ⟨s.fail e, [], .returned ()⟩) :
    (∃ (r : Request) (k : Answer ν r → ReaderTask ν Unit),
      (∀ o, Async.Hands f h (k o)) ∧ y.turn s = ⟨s, [], .waits r k⟩) ∨
    ∃ t, y.turn s = ⟨t, [], .returned ()⟩ ∧ (t = s ∨ current ∧ Ends s wanted t) := by
  have failing : ∀ e, ∃ t, (h e).turn s = ⟨t, [], .returned ()⟩ ∧
      (t = s ∨ current ∧ Ends s wanted t) := by
    intro e
    rcases caught e with late | ⟨wants, failed⟩
    · exact ⟨s, late, .inl rfl⟩
    · exact ⟨s.fail e, failed, .inr ⟨wants, .failed e⟩⟩
  rcases hands.turn s with waits | ⟨a, goes⟩ | ⟨e, goes⟩
  · exact .inl waits
  · right
    rw [goes]
    rcases next a with late | ⟨wants, threw | ⟨t, returned, ends⟩⟩
    · exact ⟨s, Async.turn_of_returned late, .inl rfl⟩
    · rw [Async.turn_of_threw threw]
      exact failing _
    · exact ⟨t, Async.turn_of_returned returned, .inr ⟨wants, ends⟩⟩
  · right
    rw [goes]
    exact failing e

/-- An answer leads to another wait, or it is the last one. -/
theorem Reader.Wanted.Left.turn {wanted : Reader.Wanted} {epoch sequence : Nat}
    {y : ReaderTask ν Unit} (left : wanted.Left epoch sequence y) (s : Reader ν) :
    (∃ (r : Request) (k : Answer ν r → ReaderTask ν Unit),
      (∀ o, wanted.Left epoch sequence (k o)) ∧ y.turn s = ⟨s, [], .waits r k⟩) ∨
    ∃ t, y.turn s = ⟨t, [], .returned ()⟩ ∧
      (t = s ∨ wanted.Current epoch sequence s ∧ Ends s wanted t) := by
  cases wanted with
  | list =>
    refine ends_of_hands left (fun body => takeList_turn epoch body s) fun e => ?_
    rw [listFailed_turn]
    split
    next current => exact .inr ⟨current, rfl⟩
    · exact .inl rfl
  | detail reference =>
    refine ends_of_hands left (fun body => takeDetail_turn epoch sequence reference body s)
      fun e => ?_
    rw [detailFailed_turn]
    split
    next current => exact .inr ⟨current, rfl⟩
    · exact .inl rfl

/-! ### What is coherent -/

/-- What a viewer sees: a material beside the list it was taken from, and nothing where there is no
list. -/
structure ReaderState.Coherent (s : ReaderState ν) : Prop where
  /-- A list has been taken for a response, and it names no material twice. -/
  list : ∀ list, s.list = some list → s.phase = .ready ∧
    (list.items.map Shown.reference).Nodup ∧ ∃ body, validateListWire body = .ok list
  ready : s.phase = .ready → s.list ≠ none
  selected : ∀ reference, s.selected = some reference →
    listed s reference = true ∧ s.detailPhase ≠ .idle
  /-- The material is the one that is selected, and has been taken for a response. -/
  detail : ∀ shown, s.detail = some shown → s.detailPhase = .ready ∧
    s.selected = some shown.reference ∧ ∃ body, validateDetailWire body = .ok shown
  loaded : s.detailPhase = .ready → s.detail ≠ none
  idle : s.selected = none → s.detailPhase = .idle
  failed : s.failure ≠ none ↔ s.phase = .error

theorem coherent_alone {phase : Phase} {failure : Option Failure} (other : phase ≠ .ready)
    (failed : failure ≠ none ↔ phase = .error) :
    ({ ReaderState.initial with phase := phase, failure := failure } :
      ReaderState ν).Coherent where
  list _ found := by cases found
  ready is := absurd is other
  selected _ found := by cases found
  detail _ found := by cases found
  loaded is := by cases is
  idle _ := rfl
  failed := failed

namespace ReaderState.Coherent

variable {s : ReaderState ν} (coherent : s.Coherent)

include coherent

/-- Where there is no list there is nothing. -/
theorem alone (other : s.phase ≠ .ready) :
    s.list = none ∧ s.selected = none ∧ s.detail = none ∧ s.detailPhase = .idle := by
  have unlisted : s.list = none := by
    cases found : s.list with
    | none => rfl
    | some list => exact absurd (coherent.list list found).1 other
  have unselected : s.selected = none := by
    cases found : s.selected with
    | none => rfl
    | some reference =>
      have among := (coherent.selected reference found).1
      rw [listed, unlisted] at among
      cases among
  refine ⟨unlisted, unselected, ?_, coherent.idle unselected⟩
  cases found : s.detail with
  | none => rfl
  | some shown =>
    have selected := (coherent.detail shown found).2.1
    rw [unselected] at selected
    cases selected

end ReaderState.Coherent

/-! ### What every state keeps -/

/-- What the reader shows while something is wanted. -/
def Reader.Wanted.Shows (s : ReaderState ν) : Wanted → Prop
  | .list => s.phase = .loading
  | .detail reference => s.phase = .ready ∧ s.selected = some reference

structure ReaderThread.Sound (t : ReaderThread ν) (s : Reader ν) : Prop where
  left : ∀ o, t.wanted.Left t.epoch t.sequence (t.resume o)
  counted : t.epoch ≤ s.epoch ∧ t.sequence ≤ s.detailSequence
  shows : t.wanted.Current t.epoch t.sequence s → t.wanted.Shows s.state

theorem ReaderThread.Sound.outdated {t : ReaderThread ν} {s later : Reader ν} (sound : t.Sound s)
    (epoch : s.epoch < later.epoch) (sequence : s.detailSequence ≤ later.detailSequence) :
    t.Sound later := by
  obtain ⟨left, ⟨before, counted⟩, -⟩ := sound
  refine ⟨left, ⟨by omega, by omega⟩, fun current => ?_⟩
  have now := current.epoch_eq
  omega

namespace ReaderState.Coherent

variable {s : ReaderState ν} (coherent : s.Coherent)

include coherent

theorem back : ({ s with selected := none, detail := none, detailPhase := .idle } :
    ReaderState ν).Coherent where
  list := coherent.list
  ready := coherent.ready
  selected _ found := by cases found
  detail _ found := by cases found
  loaded is := by cases is
  idle _ := rfl
  failed := coherent.failed

theorem select {reference : Reference} (among : listed s reference = true) :
    ({ s with selected := some reference, detail := none, detailPhase := .loading } :
      ReaderState ν).Coherent where
  list := coherent.list
  ready := coherent.ready
  selected r found := by
    cases found
    exact ⟨among, by simp⟩
  detail _ found := by cases found
  loaded is := by cases is
  idle none := by cases none
  failed := coherent.failed

theorem phase_of_listed {reference : Reference} (among : listed s reference = true) :
    s.phase = .ready := by
  cases found : s.list with
  | none =>
    rw [listed, found] at among
    cases among
  | some list => exact (coherent.list list found).1

end ReaderState.Coherent

/-- The state of the reader, which is the last one it has published, and all those before. -/
structure Reader.Coherent (s : Reader ν) : Prop where
  state : s.state.Coherent
  published : ∀ old ∈ s.published, old.Coherent
  latest : s.state = s.published.getLastD .initial

namespace Reader.Coherent

variable {s : Reader ν} (coherent : s.Coherent)

include coherent

theorem publish {state : ReaderState ν} (new : state.Coherent) :
    (s.publish state).Coherent where
  state := new
  published old member := by
    rcases List.mem_append.mp member with before | now
    · exact coherent.published old before
    · cases List.mem_singleton.mp now
      exact new
  latest := List.getLastD_concat.symm

theorem count (epoch detailSequence : Nat) :
    { s with epoch := epoch, detailSequence := detailSequence }.Coherent :=
  ⟨coherent.state, coherent.published, coherent.latest⟩

theorem pause : s.pause.Coherent :=
  (coherent.count _ _).publish (coherent_alone (by simp) (by simp))

theorem fail (error : Fault) : (s.fail error).Coherent :=
  coherent.pause.publish (coherent_alone (by simp) (by simp))

theorem back : s.back.Coherent := (coherent.count _ _).publish coherent.state.back

theorem ends {wanted : Reader.Wanted} {t : Reader ν} (shows : wanted.Shows s.state)
    (ends : Ends s wanted t) : t.Coherent := by
  cases ends with
  | @list body list valid apart =>
    refine coherent.publish
      { list := ?_, ready := ?_, selected := ?_, detail := ?_, loaded := ?_, idle := ?_
        failed := ?_ }
    · intro other found
      cases found
      exact ⟨rfl, apart, body, valid⟩
    · simp
    · intro r found
      cases found
    · intro shown found
      cases found
    · intro is
      cases is
    · intro _
      rfl
    · simp [ReaderState.initial]
  | @detail body shown valid =>
    obtain ⟨ready, selected⟩ := shows
    refine coherent.publish
      { list := coherent.state.list, ready := coherent.state.ready, selected := ?_, detail := ?_
        loaded := ?_, idle := ?_, failed := coherent.state.failed }
    · intro r found
      exact ⟨(coherent.state.selected r found).1, by simp⟩
    · intro other found
      cases found
      exact ⟨rfl, selected, body, valid⟩
    · simp
    · intro none
      rw [selected] at none
      cases none
  | failed error => exact coherent.fail error

end Reader.Coherent

theorem Reader.Wanted.Ends.spares {wanted : Reader.Wanted} {s t : Reader ν}
    (ends : Ends s wanted t) (shows : wanted.Shows s.state) {u : ReaderThread ν}
    (sound : u.Sound s) (other : wanted = .list → u.wanted = .list → u.epoch ≠ s.epoch) :
    u.Sound t := by
  obtain ⟨left, counted, shown⟩ := sound
  cases ends with
  | list valid apart =>
    refine ⟨left, counted, fun current => ?_⟩
    have before : u.wanted.Shows s.state := shown (current.same rfl rfl)
    cases is : u.wanted with
    | list =>
      rw [is] at current
      exact absurd current (other rfl is)
    | detail reference =>
      rw [is] at before
      cases shows.symm.trans before.1
  | detail valid =>
    refine ⟨left, counted, fun current => ?_⟩
    have before : u.wanted.Shows s.state := shown (current.same rfl rfl)
    cases is : u.wanted with
    | list =>
      rw [is] at before
      cases shows.1.symm.trans before
    | detail reference =>
      rw [is] at before
      exact before
  | failed error =>
    exact ReaderThread.Sound.outdated ⟨left, counted, shown⟩ (Nat.lt_succ_self _) (Nat.le_succ _)

/-! ### Every step keeps it -/

namespace ReaderWorld

structure Invariant (w : ReaderWorld ν) : Prop where
  reader : w.reader.Coherent
  threads : ∀ (i : Nat) (t : ReaderThread ν), w.threads[i]? = some (some t) → t.Sound w.reader
  apart : ∀ (i j : Nat) (t u : ReaderThread ν), w.threads[i]? = some (some t) →
    w.threads[j]? = some (some u) → t.wanted = .list → u.wanted = .list → t.epoch = u.epoch → i = j

theorem opened_invariant : (opened : ReaderWorld ν).Invariant where
  reader := ⟨coherent_alone (by simp) (by simp), fun _ member => (by cases member), rfl⟩
  threads i t found := by simp [opened] at found
  apart i j t u found := by simp [opened] at found

variable {w w' : ReaderWorld ν} {serviceOrigin : List Nat}

/-- A call that is over at once, or goes on as something that was asked for. -/
theorem Invariant.call {wanted : Reader.Wanted} {ended : Ended ν} (inv : w.Invariant)
    (coherent : ended.state.Coherent)
    (spares : ∀ t : ReaderThread ν, t.Sound w.reader → t.Sound ended.state)
    (started : ∀ {r k}, ended.rest = .waits r k →
      (∀ o, wanted.Left ended.state.epoch ended.state.detailSequence (k o)) ∧
        wanted.Shows ended.state.state ∧
        (wanted = .list → w.reader.epoch < ended.state.epoch)) :
    ({ reader := ended.state
       threads := w.threads ++
        [waiting wanted ended.state.epoch ended.state.detailSequence ended] } :
      ReaderWorld ν).Invariant := by
  have new : ∀ {t : ReaderThread ν},
      waiting wanted ended.state.epoch ended.state.detailSequence ended = some t →
      t.wanted = wanted ∧ t.epoch = ended.state.epoch ∧ t.Sound ended.state ∧
        (wanted = .list → w.reader.epoch < ended.state.epoch) := by
    intro t is
    rw [waiting] at is
    split at is
    next r k waits =>
      cases is
      obtain ⟨left, shows, later⟩ := started waits
      exact ⟨rfl, rfl, ⟨left, ⟨Nat.le_refl _, Nat.le_refl _⟩, fun _ => shows⟩, later⟩
    · cases is
  have cases_of : ∀ {i : Nat} {t : ReaderThread ν}, (w.threads ++
      [waiting wanted ended.state.epoch ended.state.detailSequence ended])[i]? = some (some t) →
      w.threads[i]? = some (some t) ∨ i = w.threads.length ∧
        waiting wanted ended.state.epoch ended.state.detailSequence ended = some t := by
    intro i t found
    by_cases old : i < w.threads.length
    · rw [List.getElem?_append_left old] at found
      exact .inl found
    · have bound := (List.getElem?_eq_some_iff.mp found).1
      rw [List.length_append, List.length_singleton] at bound
      have last : i = w.threads.length := by omega
      rw [last, List.getElem?_concat_length] at found
      exact .inr ⟨last, Option.some.inj found⟩
  refine ⟨coherent, fun i t found => ?_, fun i j t u first second tlist ulist same => ?_⟩
  · rcases cases_of found with old | ⟨-, is⟩
    · exact spares t (inv.threads i t old)
    · exact (new is).2.2.1
  · rcases cases_of first with old | ⟨rfl, is⟩ <;> rcases cases_of second with old' | ⟨rfl, is'⟩
    · exact inv.apart i j t u old old' tlist ulist same
    · obtain ⟨own, epoch, -, later⟩ := new is'
      have counted := (inv.threads i t old).counted.1
      have later := later (own.symm.trans ulist)
      omega
    · obtain ⟨own, epoch, -, later⟩ := new is
      have counted := (inv.threads j u old').counted.1
      have later := later (own.symm.trans tlist)
      omega
    · rfl

theorem Invariant.moved {s : Reader ν} (inv : w.Invariant) (coherent : s.Coherent)
    (spares : ∀ t : ReaderThread ν, t.Sound w.reader → t.Sound s) :
    { w with reader := s }.Invariant :=
  ⟨coherent, fun i t found => spares t (inv.threads i t found), inv.apart⟩

/-- Something is asked for, and what is asked for is what the reader shows. -/
theorem Invariant.asked {wanted : Reader.Wanted} {s : Reader ν} {y : ReaderTask ν Unit}
    (inv : w.Invariant) (coherent : s.Coherent) (shows : wanted.Shows s.state)
    (spares : ∀ t : ReaderThread ν, t.Sound w.reader → t.Sound s)
    (later : wanted = .list → w.reader.epoch < s.epoch)
    (left : wanted.Left s.epoch s.detailSequence y) {ended : Ended ν} (turned : y.turn s = ended) :
    ({ reader := ended.state
       threads := w.threads ++
        [waiting wanted ended.state.epoch ended.state.detailSequence ended] } :
      ReaderWorld ν).Invariant := by
  rcases left.turn s with ⟨r, k, lefts, waits⟩ | ⟨t, returned, same | ⟨current, ends⟩⟩
  · rw [waits] at turned
    subst turned
    refine inv.call coherent spares fun {r' k'} is => ?_
    cases is
    exact ⟨lefts, shows, later⟩
  · rw [returned, same] at turned
    subst turned
    refine inv.call coherent spares fun {r' k'} is => ?_
    cases is
  · rw [returned] at turned
    subst turned
    refine inv.call (coherent.ends shows ends) (fun u sound => ?_) fun {r' k'} is => ?_
    · refine ends.spares shows (spares u sound) fun own _ => ?_
      have counted := sound.counted.1
      have after := later own
      omega
    · cases is

theorem Invariant.reload (inv : w.Invariant) :
    (w.call .list (Reading.reload N serviceOrigin)).Invariant := by
  have shows : Reader.Wanted.Shows
      (w.reader.pause.publish { ReaderState.initial with phase := .loading }).state .list := rfl
  refine inv.asked
    (inv.reader.pause.publish (coherent_alone (by simp) (by simp [ReaderState.initial]))) shows
    (fun t sound => sound.outdated (Nat.lt_succ_self _) (Nat.le_succ _))
    (fun _ => Nat.lt_succ_self _) (askList_left serviceOrigin _ _) rfl

theorem Invariant.select (inv : w.Invariant) (reference : Reference) :
    (w.call (.detail reference) (Reading.select N serviceOrigin reference)).Invariant := by
  rw [ReaderWorld.call, Reading.select, Async.turn_get]
  by_cases among : listed w.reader.state reference = true
  · rw [if_pos among]
    have ready := inv.reader.state.phase_of_listed among
    have shows : Reader.Wanted.Shows ({ w.reader with
        detailSequence := w.reader.detailSequence + 1 }.publish { w.reader.state with
          selected := some reference, detail := none, detailPhase := .loading }).state
        (.detail reference) := ⟨ready, rfl⟩
    refine inv.asked ((inv.reader.count _ _).publish (inv.reader.state.select among)) shows
      (fun t sound => ?_) (fun is => by cases is) (askDetail_left serviceOrigin _ _ reference) rfl
    · obtain ⟨left, counted, shows⟩ := sound
      refine ⟨left, ⟨counted.1, Nat.le_succ_of_le counted.2⟩, fun current => ?_⟩
      cases is : t.wanted with
      | list =>
        rw [is] at current shows
        cases ready.symm.trans (shows current)
      | detail other =>
        rw [is] at current
        have late : t.sequence = w.reader.detailSequence + 1 := current.2
        omega
  · rw [if_neg among]
    refine inv.call inv.reader (fun _ sound => sound) fun {r k} is => ?_
    cases is

theorem Invariant.answer (inv : w.Invariant) {index : Nat} {t : ReaderThread ν}
    (found : w.threads[index]? = some (some t)) (o : Answer ν t.request) {ended : Ended ν}
    (turned : (t.resume o).turn w.reader = ended) :
    ({ reader := ended.state
       threads := w.threads.set index (waiting t.wanted t.epoch t.sequence ended) } :
      ReaderWorld ν).Invariant := by
  have sound := inv.threads index t found
  have elsewhere : ∀ {thread : Option (ReaderThread ν)} {i : Nat} {u : ReaderThread ν},
      (w.threads.set index thread)[i]? = some (some u) →
      i = index ∧ thread = some u ∨ i ≠ index ∧ w.threads[i]? = some (some u) := by
    intro thread i u at_
    by_cases same : i = index
    · subst same
      rw [List.getElem?_set_self (List.getElem?_eq_some_iff.mp found).1] at at_
      exact .inl ⟨rfl, Option.some.inj at_⟩
    · rw [List.getElem?_set_ne (Ne.symm same)] at at_
      exact .inr ⟨same, at_⟩
  -- Whatever stays in the place of the thread, the lists that are waited for stay apart.
  have apart : ∀ {thread : Option (ReaderThread ν)},
      (∀ u, thread = some u → u.wanted = t.wanted ∧ u.epoch = t.epoch) →
      ∀ (i j : Nat) (u v : ReaderThread ν), (w.threads.set index thread)[i]? = some (some u) →
        (w.threads.set index thread)[j]? = some (some v) → u.wanted = .list → v.wanted = .list →
        u.epoch = v.epoch → i = j := by
    intro thread own i j u v first second ulist vlist same
    rcases elsewhere first with ⟨rfl, is⟩ | ⟨-, there⟩ <;>
      rcases elsewhere second with ⟨rfl, is'⟩ | ⟨-, there'⟩
    · rfl
    · obtain ⟨wants, epoch⟩ := own u is
      exact inv.apart i j t v found there' (wants ▸ ulist) vlist (epoch ▸ same)
    · obtain ⟨wants, epoch⟩ := own v is'
      exact inv.apart i j u t there found ulist (wants ▸ vlist) (epoch ▸ same)
    · exact inv.apart i j u v there there' ulist vlist same
  rcases (sound.left o).turn w.reader with ⟨r, k, lefts, waits⟩ | ⟨s, returned, kept⟩
  · rw [waits] at turned
    subst turned
    refine ⟨inv.reader, fun i u at_ => ?_, apart fun u is => ?_⟩
    · rcases elsewhere at_ with ⟨-, is⟩ | ⟨-, there⟩
      · cases is
        exact ⟨lefts, sound.counted, sound.shows⟩
      · exact inv.threads i u there
    · cases is
      exact ⟨rfl, rfl⟩
  · rw [returned] at turned
    subst turned
    rcases kept with same | ⟨current, ends⟩
    · rw [same]
      refine ⟨inv.reader, fun i u at_ => ?_, apart fun u is => ?_⟩
      · rcases elsewhere at_ with ⟨-, is⟩ | ⟨-, there⟩
        · cases is
        · exact inv.threads i u there
      · cases is
    · refine ⟨inv.reader.ends (sound.shows current) ends, fun i u at_ => ?_, apart fun u is => ?_⟩
      · rcases elsewhere at_ with ⟨-, is⟩ | ⟨other, there⟩
        · cases is
        · refine ends.spares (sound.shows current) (inv.threads i u there) fun own ulist same => ?_
          exact other (inv.apart i index u t there found ulist own
            (same.trans current.epoch_eq.symm))
      · cases is

theorem step_invariant (inv : w.Invariant) {act : ReaderAct ν}
    (stepped : step N serviceOrigin w act = some w') : w'.Invariant := by
  cases act with
  | reload =>
    cases stepped
    exact inv.reload
  | pause =>
    cases stepped
    exact inv.moved inv.reader.pause fun t sound =>
      sound.outdated (Nat.lt_succ_self _) (Nat.le_succ _)
  | back =>
    cases stepped
    refine inv.moved inv.reader.back fun t sound => ?_
    obtain ⟨left, counted, shows⟩ := sound
    refine ⟨left, ⟨counted.1, Nat.le_succ_of_le counted.2⟩, fun current => ?_⟩
    cases is : t.wanted with
    | list =>
      rw [is] at current shows
      exact shows current
    | detail other =>
      rw [is] at current
      have late : t.sequence = w.reader.detailSequence + 1 := current.2
      omega
  | select reference =>
    cases stepped
    exact inv.select reference
  | answer index request o =>
    rw [step] at stepped
    split at stepped
    next t found =>
      split at stepped
      next same =>
        subst same
        cases stepped
        exact inv.answer found o rfl
      · cases stepped
    · cases stepped

/-! ### What comes too late -/

/-- The counters only grow, and a call keeps its place and what it was made for. -/
structure Grows (w w' : ReaderWorld ν) : Prop where
  epoch : w.reader.epoch ≤ w'.reader.epoch
  sequence : w.reader.detailSequence ≤ w'.reader.detailSequence
  places : w.threads.length ≤ w'.threads.length
  threads : ∀ (i : Nat) (t : ReaderThread ν), i < w.threads.length →
    w'.threads[i]? = some (some t) → ∃ u : ReaderThread ν, w.threads[i]? = some (some u) ∧
      u.wanted = t.wanted ∧ u.epoch = t.epoch ∧ u.sequence = t.sequence

theorem Grows.refl (w : ReaderWorld ν) : w.Grows w :=
  ⟨Nat.le_refl _, Nat.le_refl _, Nat.le_refl _, fun _ t _ found => ⟨t, found, rfl, rfl, rfl⟩⟩

theorem Grows.trans {a b c : ReaderWorld ν} (first : a.Grows b) (second : b.Grows c) :
    a.Grows c := by
  refine ⟨first.epoch.trans second.epoch, first.sequence.trans second.sequence,
    first.places.trans second.places, fun i t old found => ?_⟩
  obtain ⟨u, there, wanted, epoch, sequence⟩ :=
    second.threads i t (Nat.lt_of_lt_of_le old first.places) found
  obtain ⟨v, here, wanted', epoch', sequence'⟩ := first.threads i u old there
  exact ⟨v, here, wanted'.trans wanted, epoch'.trans epoch, sequence'.trans sequence⟩

theorem Grows.of_reader {s : Reader ν} (epoch : w.reader.epoch ≤ s.epoch)
    (sequence : w.reader.detailSequence ≤ s.detailSequence) : w.Grows { w with reader := s } :=
  ⟨epoch, sequence, Nat.le_refl _, fun _ t _ found => ⟨t, found, rfl, rfl, rfl⟩⟩

theorem Grows.of_call {wanted : Reader.Wanted} {task : ReaderTask ν Unit}
    (epoch : w.reader.epoch ≤ (task.turn w.reader).state.epoch)
    (sequence : w.reader.detailSequence ≤ (task.turn w.reader).state.detailSequence) :
    w.Grows (w.call wanted task) := by
  refine ⟨epoch, sequence, ?_, fun i t old found => ?_⟩
  · simp [ReaderWorld.call]
  · rw [ReaderWorld.call, List.getElem?_append_left old] at found
    exact ⟨t, found, rfl, rfl, rfl⟩

end ReaderWorld

/-- The counters grow, and where an error is published the epoch does. -/
structure Reader.Advances (s t : Reader ν) : Prop where
  epoch : s.epoch ≤ t.epoch
  sequence : s.detailSequence ≤ t.detailSequence
  published : ∃ new, t.published = s.published ++ new ∧
    (s.epoch < t.epoch ∨ ∀ shown ∈ new, shown.phase ≠ .error)

namespace Reader.Advances

variable {a b c : Reader ν}

theorem refl (a : Reader ν) : a.Advances a :=
  ⟨Nat.le_refl _, Nat.le_refl _, [], (List.append_nil _).symm, .inr (by simp)⟩

theorem trans (first : a.Advances b) (second : b.Advances c) : a.Advances c := by
  obtain ⟨epoch, sequence, new, published, plain⟩ := first
  obtain ⟨epoch', sequence', new', published', plain'⟩ := second
  refine ⟨epoch.trans epoch', sequence.trans sequence', new ++ new', ?_, ?_⟩
  · rw [published', published, List.append_assoc]
  · rcases plain with later | plain
    · exact .inl (Nat.lt_of_lt_of_le later epoch')
    · rcases plain' with later | plain'
      · exact .inl (Nat.lt_of_le_of_lt epoch later)
      · refine .inr fun shown member => ?_
        rcases List.mem_append.mp member with old | now
        · exact plain shown old
        · exact plain' shown now

theorem publish (epoch : a.epoch ≤ b.epoch) (sequence : a.detailSequence ≤ b.detailSequence)
    (same : b.published = a.published) {state : ReaderState ν} (plain : state.phase ≠ .error) :
    a.Advances (b.publish state) := by
  refine ⟨epoch, sequence, [state], congrArg (· ++ [state]) same, .inr fun shown member => ?_⟩
  cases List.mem_singleton.mp member
  exact plain

theorem fail (error : Fault) : a.Advances (a.fail error) := by
  refine ⟨Nat.le_succ _, Nat.le_succ _, _, List.append_assoc _ _ _, .inl (Nat.lt_succ_self _)⟩

theorem ends {wanted : Reader.Wanted} (shows : wanted.Shows a.state) (ends : Ends a wanted b) :
    a.Advances b := by
  cases ends with
  | list valid apart => exact publish (Nat.le_refl _) (Nat.le_refl _) rfl (by simp)
  | detail valid =>
    refine publish (Nat.le_refl _) (Nat.le_refl _) rfl ?_
    rw [shows.1]
    simp
  | failed error => exact fail error

theorem left {wanted : Reader.Wanted} {epoch sequence : Nat} {y : ReaderTask ν Unit}
    (left : wanted.Left epoch sequence y)
    (shows : wanted.Current epoch sequence a → wanted.Shows a.state) :
    a.Advances (y.turn a).state := by
  rcases left.turn a with ⟨r, k, -, waits⟩ | ⟨t, returned, same | ⟨current, ends⟩⟩
  · rw [waits]
    exact refl a
  · rw [returned, same]
    exact refl a
  · rw [returned]
    exact Advances.ends (shows current) ends

theorem pause : a.Advances a.pause :=
  ⟨Nat.le_succ _, Nat.le_succ _, [.initial], rfl, .inl (Nat.lt_succ_self _)⟩

variable (N)

theorem askedList (serviceOrigin : List Nat) :
    a.pause.Advances ((Reading.reload N serviceOrigin).turn a).state := by
  have asks : a.pause.Advances
      (a.pause.publish { ReaderState.initial with phase := .loading }) :=
    publish (Nat.le_refl _) (Nat.le_refl _) rfl (by simp)
  exact asks.trans (left (askList_left serviceOrigin a.pause.epoch 0) fun _ => rfl)

theorem askedDetail (coherent : a.Coherent) (serviceOrigin : List Nat) {reference : Reference}
    (among : listed a.state reference = true) :
    { a with detailSequence := a.detailSequence + 1 }.Advances
      ((Reading.select N serviceOrigin reference).turn a).state := by
  rw [Reading.select, Async.turn_get, if_pos among]
  have ready := coherent.state.phase_of_listed among
  have plain : a.state.phase ≠ .error := by
    rw [ready]
    simp
  have asks : { a with detailSequence := a.detailSequence + 1 }.Advances
      ({ a with detailSequence := a.detailSequence + 1 }.publish { a.state with
        selected := some reference, detail := none, detailPhase := .loading }) :=
    publish (Nat.le_refl _) (Nat.le_refl _) rfl plain
  exact asks.trans
    (left (askDetail_left serviceOrigin a.epoch (a.detailSequence + 1) reference)
      fun _ => ⟨ready, rfl⟩)

theorem reload (serviceOrigin : List Nat) :
    a.Advances ((Reading.reload N serviceOrigin).turn a).state :=
  pause.trans (askedList N serviceOrigin)

theorem select (coherent : a.Coherent) (serviceOrigin : List Nat) (reference : Reference) :
    a.Advances ((Reading.select N serviceOrigin reference).turn a).state := by
  by_cases among : listed a.state reference = true
  · obtain ⟨epoch, sequence, published⟩ := askedDetail N coherent serviceOrigin among
    exact ⟨epoch, (Nat.le_succ _).trans sequence, published⟩
  · rw [Reading.select, Async.turn_get, if_neg among]
    exact refl a

end Reader.Advances

namespace ReaderWorld

variable {w w' : ReaderWorld ν} {serviceOrigin : List Nat}

theorem step_advances (inv : w.Invariant) {act : ReaderAct ν} (other : act ≠ .back)
    (stepped : step N serviceOrigin w act = some w') : w.reader.Advances w'.reader := by
  cases act with
  | reload =>
    cases stepped
    exact Reader.Advances.reload N serviceOrigin
  | pause =>
    cases stepped
    exact Reader.Advances.pause
  | back => exact absurd rfl other
  | select reference =>
    cases stepped
    exact Reader.Advances.select N inv.reader serviceOrigin reference
  | answer index request o =>
    rw [step] at stepped
    split at stepped
    next t found =>
      split at stepped
      next same =>
        subst same
        cases stepped
        have sound := inv.threads index t found
        exact Reader.Advances.left (sound.left o) sound.shows
      · cases stepped
    · cases stepped

theorem step_grows (inv : w.Invariant) {act : ReaderAct ν}
    (stepped : step N serviceOrigin w act = some w') : w.Grows w' := by
  cases act with
  | reload =>
    cases stepped
    have advances : w.reader.Advances _ := Reader.Advances.reload N serviceOrigin
    exact .of_call advances.epoch advances.sequence
  | pause =>
    cases stepped
    exact .of_reader (Nat.le_succ _) (Nat.le_succ _)
  | back =>
    cases stepped
    exact .of_reader (Nat.le_refl _) (Nat.le_succ _)
  | select reference =>
    cases stepped
    have advances := Reader.Advances.select N inv.reader serviceOrigin reference
    exact .of_call advances.epoch advances.sequence
  | answer index request o =>
    have advances := step_advances inv (by simp) stepped
    rw [step] at stepped
    split at stepped
    next t found =>
      split at stepped
      next same =>
        subst same
        cases stepped
        refine ⟨advances.epoch, advances.sequence, ?_, fun i u old at_ => ?_⟩
        · simp
        · by_cases own : i = index
          · subst own
            rw [List.getElem?_set_self old] at at_
            have is := Option.some.inj at_
            rw [waiting] at is
            split at is
            · cases is
              exact ⟨t, found, rfl, rfl, rfl⟩
            · cases is
          · rw [List.getElem?_set_ne (Ne.symm own)] at at_
            exact ⟨u, at_, rfl, rfl, rfl⟩
      · cases stepped
    · cases stepped

theorem run_invariant {ts : List (Transition (ReaderWorld ν) (ReaderAct ν))}
    (run : Run (step N serviceOrigin) w ts w') (inv : w.Invariant) :
    w'.Invariant ∧ w.Grows w' := by
  refine (run.invariant (P := fun v => v.Invariant ∧ w.Grows v) ?_ ⟨inv, .refl w⟩).1
  rintro u act v stepped ⟨kept, grown⟩
  exact ⟨step_invariant kept stepped, grown.trans (step_grows kept stepped)⟩

/-- What is on view at any time: whatever is asked for and whenever it is answered, every state that
is published is coherent, and where the list is not ready it shows nothing. -/
theorem published_coherent {ts : List (Transition (ReaderWorld ν) (ReaderAct ν))}
    (run : Run (step N serviceOrigin) opened ts w) :
    w.reader.state = w.reader.published.getLastD .initial ∧
      ∀ shown ∈ w.reader.published, shown.Coherent ∧ (shown.phase ≠ .ready →
        shown.list = none ∧ shown.selected = none ∧ shown.detail = none ∧
          shown.detailPhase = .idle) := by
  have coherent := (run_invariant run opened_invariant).1.reader
  refine ⟨coherent.latest, fun shown member => ?_⟩
  have known := coherent.published shown member
  exact ⟨known, known.alone⟩

/-- The call something is asked for by. -/
inductive Asks : ReaderAct ν → Reader.Wanted → Prop
  | reload : Asks .reload .list
  | select (reference : Reference) : Asks (.select reference) (.detail reference)

/-- What makes the answers to earlier requests too late. -/
inductive Supersedes (w : ReaderWorld ν) (w' : ReaderWorld ν) :
    Reader.Wanted → ReaderAct ν → Prop
  | pause (wanted : Reader.Wanted) : Supersedes w w' wanted .pause
  | reload (wanted : Reader.Wanted) : Supersedes w w' wanted .reload
  /-- An error is published. -/
  | failed {wanted : Reader.Wanted} {act : ReaderAct ν} {new : List (ReaderState ν)}
      {shown : ReaderState ν} (other : act ≠ .back)
      (published : w'.reader.published = w.reader.published ++ new) (member : shown ∈ new)
      (error : shown.phase = .error) : Supersedes w w' wanted act
  | back (reference : Reference) : Supersedes w w' (.detail reference) .back
  | select (reference : Reference) {other : Reference}
      (among : listed w.reader.state other = true) :
      Supersedes w w' (.detail reference) (.select other)

theorem Supersedes.late {wanted : Reader.Wanted} {act : ReaderAct ν} (inv : w.Invariant)
    (stepped : step N serviceOrigin w act = some w') (supersedes : Supersedes w w' wanted act)
    {epoch sequence : Nat} (before : epoch ≤ w.reader.epoch)
    (counted : sequence ≤ w.reader.detailSequence) {later : Reader ν}
    (epochs : w'.reader.epoch ≤ later.epoch)
    (sequences : w'.reader.detailSequence ≤ later.detailSequence) :
    ¬wanted.Current epoch sequence later := by
  have of_epoch : w.reader.epoch < w'.reader.epoch → ¬wanted.Current epoch sequence later := by
    intro after current
    have now := current.epoch_eq
    omega
  have of_sequence : ∀ reference, wanted = .detail reference →
      w.reader.detailSequence < w'.reader.detailSequence →
      ¬wanted.Current epoch sequence later := by
    rintro reference rfl after ⟨-, now⟩
    omega
  cases supersedes with
  | pause =>
    cases stepped
    exact of_epoch (Nat.lt_succ_self _)
  | reload =>
    cases stepped
    have asked : w.reader.pause.Advances _ := Reader.Advances.askedList N serviceOrigin
    exact of_epoch (Nat.lt_of_lt_of_le (Nat.lt_succ_self _) asked.epoch)
  | failed other published member error =>
    obtain ⟨-, -, new, told, later | plain⟩ := step_advances inv other stepped
    · exact of_epoch later
    · cases List.append_cancel_left (published.symm.trans told)
      exact absurd error (plain _ member)
  | back reference =>
    cases stepped
    exact of_sequence reference rfl (Nat.lt_succ_self _)
  | select reference among =>
    cases stepped
    have asked := Reader.Advances.askedDetail N inv.reader serviceOrigin among
    exact of_sequence reference rfl (Nat.lt_of_lt_of_le (Nat.lt_succ_self _) asked.sequence)

/-- A call that waits keeps the counters it was made under. -/
theorem asked_thread {act : ReaderAct ν} {wanted : Reader.Wanted} (asks : Asks act wanted)
    (stepped : step N serviceOrigin w act = some w') {t : ReaderThread ν}
    (found : w'.threads[w.threads.length]? = some (some t)) :
    t.wanted = wanted ∧ t.epoch = w'.reader.epoch ∧ t.sequence = w'.reader.detailSequence := by
  have called : ∀ {task : ReaderTask ν Unit}, w' = w.call wanted task →
      t.wanted = wanted ∧ t.epoch = w'.reader.epoch ∧ t.sequence = w'.reader.detailSequence := by
    rintro task rfl
    rw [ReaderWorld.call, List.getElem?_concat_length] at found
    have is := Option.some.inj found
    rw [waiting] at is
    split at is
    · cases is
      exact ⟨rfl, rfl, rfl⟩
    · cases is
  cases asks with
  | reload => exact called (Option.some.inj stepped).symm
  | select reference => exact called (Option.some.inj stepped).symm

/-- An answer that comes too late changes nothing. A request is superseded by a pause, a reload or
the publishing of an error, and one for a material also by `back` and by another selection. -/
theorem superseded_answer
    {before between after : List (Transition (ReaderWorld ν) (ReaderAct ν))}
    {w₀ w₁ w₂ w₃ w₄ w₅ : ReaderWorld ν} {asking superseding : ReaderAct ν}
    {wanted : Reader.Wanted} {request : Request} {answer : Answer ν request}
    (start : Run (step N serviceOrigin) opened before w₀) (asks : Asks asking wanted)
    (asked : step N serviceOrigin w₀ asking = some w₁)
    (others : Run (step N serviceOrigin) w₁ between w₂)
    (superseded : step N serviceOrigin w₂ superseding = some w₃)
    (supersedes : Supersedes w₂ w₃ wanted superseding)
    (further : Run (step N serviceOrigin) w₃ after w₄)
    (answered : step N serviceOrigin w₄ (.answer w₀.threads.length request answer) = some w₅) :
    w₅.reader = w₄.reader := by
  obtain ⟨inv₀, -⟩ := run_invariant start opened_invariant
  obtain ⟨inv₁, places⟩ : w₁.Invariant ∧ w₀.threads.length < w₁.threads.length := by
    refine ⟨step_invariant inv₀ asked, ?_⟩
    cases asks <;> cases asked <;> simp [ReaderWorld.call]
  obtain ⟨inv₂, grown₂⟩ := run_invariant others inv₁
  have grown₃ := step_grows inv₂ superseded
  obtain ⟨inv₄, grown₄⟩ := run_invariant further (step_invariant inv₂ superseded)
  have grown := grown₂.trans (grown₃.trans grown₄)
  rw [step] at answered
  split at answered
  next t found =>
    split at answered
    next same =>
      subst same
      cases answered
      obtain ⟨u, there, wants, epoch, sequence⟩ := grown.threads _ t places found
      obtain ⟨wanted', epoch', sequence'⟩ := asked_thread asks asked there
      have made : t.epoch ≤ w₂.reader.epoch ∧ t.sequence ≤ w₂.reader.detailSequence :=
        ⟨epoch ▸ epoch' ▸ grown₂.epoch, sequence ▸ sequence' ▸ grown₂.sequence⟩
      have late := supersedes.late inv₂ superseded made.1 made.2 grown₄.epoch grown₄.sequence
      have sound := inv₄.threads _ t found
      rcases (sound.left answer).turn w₄.reader with ⟨r, k, -, waits⟩ | ⟨s, returned, same | kept⟩
      · exact congrArg Async.Turn.state waits
      · exact (congrArg Async.Turn.state returned).trans same
      · rw [← wants, wanted'] at kept
        exact absurd kept.1 late
    · cases answered
  · cases answered

/-! ### A list that is asked for twice -/

def servedHeaders : HttpResponse :=
  ⟨some (units "application/json; charset=utf-8"), some (units "private, No-Store"), 200⟩

def servedReference : Reference := ⟨units "u", units "v"⟩

/-- A material without a title. -/
def servedView : Value (Option (Fin (maxSafe + 1))) :=
  .object [(units "kind", .text (units "REFERENCE")),
    (units "reference", .object [(units "unit_id", .text servedReference.unit_id),
      (units "version_id", .text servedReference.version_id)]),
    (units "metadata", .object [])]

def servedList : Value (Option (Fin (maxSafe + 1))) :=
  .object [(units "contract", .text (units "reading/1")), (units "items", .array [servedView]),
    (units "existence_signal", .boolean false)]

def servedDetail : Value (Option (Fin (maxSafe + 1))) :=
  .object [(units "contract", .text (units "reading/1")), (units "projection", servedView)]

def readerStep : ReaderWorld (Option (Fin (maxSafe + 1))) →
    ReaderAct (Option (Fin (maxSafe + 1))) → Option (ReaderWorld (Option (Fin (maxSafe + 1)))) :=
  step Numbers.safe []

/-- All but the last turn of a request. -/
def servedActs (index : Nat) (url : String) (body : Value (Option (Fin (maxSafe + 1)))) :
    List (ReaderAct (Option (Fin (maxSafe + 1)))) :=
  [.answer index (.fetch (units url)) (some servedHeaders), .answer index .body (some body)]

def shownActs : List (ReaderAct (Option (Fin (maxSafe + 1)))) :=
  .reload :: servedActs 0 "/api/v1/material" servedList ++
    .answer 0 .resumed () :: .select servedReference ::
      servedActs 1 "/api/v1/material/u/versions/v" servedDetail ++ [.answer 1 .resumed ()]

theorem published_coherent_shown : ∃ w, perform readerStep opened shownActs = some w ∧
    w.reader.published.length = 5 ∧ w.reader.state.detail.isSome = true ∧
    ∀ shown ∈ w.reader.published, shown.Coherent := by
  have shows : (perform readerStep opened shownActs).map (fun w =>
      (w.reader.published.length, w.reader.state.detail.isSome)) = some (5, true) := by
    decide +kernel
  obtain ⟨w, performed, is⟩ := Option.map_eq_some_iff.mp shows
  have run := run_of_perform _ _ _ _ performed
  exact ⟨w, performed, congrArg Prod.fst is, congrArg Prod.snd is,
    fun shown member => ((published_coherent run).2 shown member).1⟩

def pausedActs : List (ReaderAct (Option (Fin (maxSafe + 1)))) :=
  .reload :: .pause :: servedActs 0 "/api/v1/material" servedList

/-- The list comes whole, but the reader has been paused. -/
theorem superseded_answer_paused : ∃ w w', perform readerStep opened pausedActs = some w ∧
    readerStep w (.answer 0 .resumed ()) = some w' ∧ w'.reader = w.reader := by
  have answers : ((perform readerStep opened pausedActs).bind fun w =>
      readerStep w (.answer 0 .resumed ())).isSome = true := by decide +kernel
  obtain ⟨w', answered⟩ := Option.isSome_iff_exists.mp answers
  obtain ⟨w, performed, answered⟩ := Option.bind_eq_some_iff.mp answered
  refine ⟨w, w', performed, answered, ?_⟩
  let asked := (opened.call .list (Reading.reload Numbers.safe []) :
    ReaderWorld (Option (Fin (maxSafe + 1))))
  have later : perform readerStep { asked with reader := asked.reader.pause }
      (servedActs 0 "/api/v1/material" servedList) = some w := performed
  exact superseded_answer (.done _) .reload rfl (.done _) rfl (.pause .list)
    (run_of_perform _ _ _ _ later) answered

end ReaderWorld

end LedgerDesk.Reading
