import LedgerDesk.Foundation.Heap
import LedgerDesk.Foundation.Runs
import LedgerDesk.Queue.Order

/-!
# The lazy heap

An entry keeps the key its ticket had when it was pushed or when the heap was last rebuilt.
Waiting moves every ticket forward, each at its own pace, so a stored key is never ahead of
the key of the moment; the order among the stored keys may be an old one.
-/
namespace LedgerDesk.Queue

open Foundation

structure HeapEntry where
  ticket : SimTicket
  key : QueueKey
  deriving DecidableEq, Repr

abbrev QueueHeap := Array HeapEntry

def servedBefore (a b : HeapEntry) : Bool := compareQueueKeys a.key b.key < 0

def QueueHeap.contents (heap : QueueHeap) : List SimTicket := heap.toList.map HeapEntry.ticket

inductive HeapFault where
  | notSettled
  deriving DecidableEq, Repr

def HeapFault.message : HeapFault → String
  | .notSettled =>
    "lazy revalidation did not settle: the order key is not stable at a fixed instant"

section

variable (weights : Weights)

/-- The entry of a ticket with its key of the moment. -/
def entryAt (ticket : SimTicket) (now : ℚ) : HeapEntry :=
  ⟨ticket, queueKey ticket.toQueueFeatures now weights⟩

def push (heap : QueueHeap) (ticket : SimTicket) (now : ℚ) : QueueHeap :=
  Heap.push servedBefore heap (entryAt weights ticket now)

/-- The body of the loop of `popNext`, for as many rounds as the bound leaves. -/
def popNextWithin (now : ℚ) : Nat → QueueHeap → Except HeapFault (Option SimTicket × QueueHeap)
  | 0, _ => .error .notSettled
  | bound + 1, heap =>
    match Heap.popRoot servedBefore heap with
    | none => .ok (none, heap)
    | some (candidate, rest) =>
      let revalidated := queueKey candidate.ticket.toQueueFeatures now weights
      match rest[0]? with
      | none => .ok (some candidate.ticket, rest)
      | some next =>
        if compareQueueKeys revalidated next.key ≤ 0 then .ok (some candidate.ticket, rest)
        else popNextWithin now bound (Heap.push servedBefore rest ⟨candidate.ticket, revalidated⟩)

def popNext (heap : QueueHeap) (now : ℚ) : Except HeapFault (Option SimTicket × QueueHeap) :=
  popNextWithin weights now (heap.size * 2 + 2) heap

def rebuild (heap : QueueHeap) (now : ℚ) : QueueHeap :=
  Heap.heapify servedBefore (heap.map fun entry => entryAt weights entry.ticket now) (heap.size / 2)

theorem popNextWithin_size {now : ℚ} {bound : Nat} {heap rest : QueueHeap} {ticket : SimTicket}
    (popped : popNextWithin weights now bound heap = .ok (some ticket, rest)) :
    rest.size < heap.size := by
  induction bound generalizing heap with
  | zero => cases popped
  | succ bound ih =>
    simp only [popNextWithin] at popped
    split at popped
    · cases popped
    · next candidate others root =>
      have sizes := ((Heap.popRoot_perm servedBefore root).2).length_eq
      rw [List.length_cons, Array.length_toList, Array.length_toList] at sizes
      split at popped
      · cases popped
        omega
      · split at popped
        · cases popped
          omega
        · have smaller := ih popped
          have pushed := (Heap.push_perm servedBefore others
            ⟨candidate.ticket, queueKey candidate.ticket.toQueueFeatures now weights⟩).length_eq
          rw [List.length_cons, Array.length_toList, Array.length_toList] at pushed
          omega

/-- Serve until nothing is left, at one instant. -/
def drain (heap : QueueHeap) (now : ℚ) : Except HeapFault (List String) :=
  match _ : popNext weights heap now with
  | .error fault => .error fault
  | .ok (none, _) => .ok []
  | .ok (some ticket, rest) => (drain rest now).map (ticket.id :: ·)
termination_by heap.size
decreasing_by exact popNextWithin_size weights (by assumption)

def heapOrder (tickets : List SimTicket) (now : ℚ) : Except HeapFault (List String) :=
  drain weights (tickets.foldl (fun heap ticket => push weights heap ticket now) #[]) now

/-! ### What a heap holds -/

theorem servedBefore_weak : WeakOrder servedBefore where
  asymm := by
    intro a b before
    simp only [servedBefore, decide_eq_true_eq, decide_eq_false_iff_not,
      compareQueueKeys_neg] at before ⊢
    exact not_lt.mpr before.le
  trans := by
    intro a b c first second
    simp only [servedBefore, decide_eq_false_iff_not, compareQueueKeys_neg, not_lt] at *
    exact le_trans first second

theorem servedBefore_eq_false {a b : HeapEntry} :
    servedBefore a b = false ↔ b.key.rank ≤ a.key.rank := by
  rw [servedBefore, decide_eq_false_iff_not, compareQueueKeys_neg, not_lt]

/-- A heap in order, every key of which was the key of its ticket at an instant up to `now`. -/
structure Kept (heap : QueueHeap) (now : ℚ) : Prop where
  ordered : Heap.Ordered servedBefore heap
  dated : ∀ entry ∈ heap, ∃ instant ≤ now, entry = entryAt weights entry.ticket instant

/-- Every key is the key of the moment. -/
def Fresh (heap : QueueHeap) (now : ℚ) : Prop :=
  ∀ entry ∈ heap, entry = entryAt weights entry.ticket now

variable {weights} {heap : QueueHeap} {now later : ℚ}

theorem kept_empty : Kept weights #[] now where
  ordered := by
    intro k below above x y at_k
    cases at_k
  dated entry member := absurd member (Array.not_mem_empty entry)

theorem Kept.mono (kept : Kept weights heap now) (le : now ≤ later) : Kept weights heap later where
  ordered := kept.ordered
  dated entry member := by
    obtain ⟨instant, before, entered⟩ := kept.dated entry member
    exact ⟨instant, le_trans before le, entered⟩

theorem mem_push {ticket : SimTicket} {entry : HeapEntry} :
    entry ∈ push weights heap ticket now ↔ entry = entryAt weights ticket now ∨ entry ∈ heap := by
  have perm := Heap.push_perm servedBefore heap (entryAt weights ticket now)
  rw [← Array.mem_toList_iff, push, perm.mem_iff, List.mem_cons, Array.mem_toList_iff]

theorem Kept.push (kept : Kept weights heap now) (ticket : SimTicket) :
    Kept weights (push weights heap ticket now) now where
  ordered := Heap.push_ordered servedBefore_weak kept.ordered _
  dated entry member := by
    rcases mem_push.mp member with rfl | old
    · exact ⟨now, le_refl now, rfl⟩
    · exact kept.dated entry old

theorem Fresh.push (fresh : Fresh weights heap now) (ticket : SimTicket) :
    Fresh weights (push weights heap ticket now) now := by
  intro entry member
  rcases mem_push.mp member with rfl | old
  · rfl
  · exact fresh entry old

theorem push_contents (ticket : SimTicket) :
    (push weights heap ticket now).contents.Perm (ticket :: heap.contents) :=
  (Heap.push_perm servedBefore heap (entryAt weights ticket now)).map HeapEntry.ticket

theorem mem_rebuild {entry : HeapEntry} :
    entry ∈ rebuild weights heap now ↔
      ∃ old ∈ heap, entry = entryAt weights old.ticket now := by
  have perm := Heap.heapify_perm servedBefore
    (heap.map fun entry => entryAt weights entry.ticket now) (heap.size / 2)
  rw [← Array.mem_toList_iff, rebuild, perm.mem_iff, Array.mem_toList_iff, Array.mem_map]
  simp only [eq_comm]

theorem rebuild_fresh : Fresh weights (rebuild weights heap now) now := by
  intro entry member
  obtain ⟨old, -, rfl⟩ := mem_rebuild.mp member
  rfl

theorem rebuild_contents : (rebuild weights heap now).contents.Perm heap.contents := by
  have perm := (Heap.heapify_perm servedBefore
    (heap.map fun entry => entryAt weights entry.ticket now) (heap.size / 2)).map HeapEntry.ticket
  rw [Array.toList_map, List.map_map] at perm
  exact perm

/-- Half of the nodes have no children, so they are in order whatever their keys are. -/
theorem rebuild_kept : Kept weights (rebuild weights heap now) now where
  ordered := by
    refine Heap.heapify_ordered servedBefore_weak _ _ ?_
    intro k below above x y at_k
    have inside := (Array.getElem?_eq_some_iff.mp at_k).1
    rw [Array.size_map] at inside
    rw [Heap.parent] at above
    omega
  dated entry member := by
    obtain ⟨old, -, rfl⟩ := mem_rebuild.mp member
    exact ⟨now, le_refl now, rfl⟩

/-! ### Serving -/

/-- The stored key of an entry is not ahead of its key of the moment. -/
theorem Kept.stale (kept : Kept weights heap now) {entry : HeapEntry} (member : entry ∈ heap) :
    (queueKey entry.ticket.toQueueFeatures now weights).rank ≤ entry.key.rank := by
  obtain ⟨instant, before, entered⟩ := kept.dated entry member
  have moved := queueKey_rank_antitone entry.ticket.toQueueFeatures weights before
  rw [entered]
  exact moved

theorem Kept.popRoot (kept : Kept weights heap now) {root : HeapEntry} {rest : QueueHeap}
    (popped : Heap.popRoot servedBefore heap = some (root, rest)) : Kept weights rest now where
  ordered := Heap.popRoot_ordered servedBefore_weak kept.ordered popped
  dated entry member := by
    have perm := (Heap.popRoot_perm servedBefore popped).2
    refine kept.dated entry ?_
    rw [← Array.mem_toList_iff, ← perm.mem_iff]
    exact List.mem_cons_of_mem root (Array.mem_toList_iff.mpr member)

/-- The first candidate is served: its key has only moved forward, and the next one is stored
behind the key it had. -/
theorem popNext_root (kept : Kept weights heap now) :
    popNext weights heap now =
      match Heap.popRoot servedBefore heap with
      | none => .ok (none, heap)
      | some (root, rest) => .ok (some root.ticket, rest) := by
  rw [popNext, popNextWithin]
  split
  · rfl
  · next root rest popped =>
    split
    · rfl
    · next next_entry at_next =>
      obtain ⟨at_root, perm⟩ := Heap.popRoot_perm servedBefore popped
      have known : next_entry ∈ heap := by
        rw [← Array.mem_toList_iff, ← perm.mem_iff]
        exact List.mem_cons_of_mem root
          (Array.mem_toList_iff.mpr (Array.mem_of_getElem? at_next))
      have behind : root.key.rank ≤ next_entry.key.rank :=
        servedBefore_eq_false.mp (Heap.root_first servedBefore_weak kept.ordered at_root _ known)
      have settles : compareQueueKeys (queueKey root.ticket.toQueueFeatures now weights)
          next_entry.key ≤ 0 :=
        compareQueueKeys_nonpos.mpr
          (le_trans (kept.stale (Array.mem_of_getElem? at_root)) behind)
      rw [if_pos settles]

variable (weights) in
/-- The ticket is not behind the other one at `now`. -/
def NotBehind (ticket other : SimTicket) (now : ℚ) : Prop :=
  compareQueueKeys (queueKey ticket.toQueueFeatures now weights)
    (queueKey other.toQueueFeatures now weights) ≤ 0

instance (ticket other : SimTicket) (now : ℚ) : Decidable (NotBehind weights ticket other now) :=
  inferInstanceAs (Decidable (_ ≤ _))

variable (weights) in
/-- No waiting ticket has overtaken the one whose stored key is first. -/
def RootFirst (heap : QueueHeap) (now : ℚ) : Prop :=
  ∀ root ∈ heap[0]?, ∀ entry ∈ heap, NotBehind weights root.ticket entry.ticket now

instance (heap : QueueHeap) (now : ℚ) : Decidable (RootFirst weights heap now) :=
  decidable_of_iff (∀ root ∈ heap[0]?.toList, ∀ entry ∈ heap.toList,
    NotBehind weights root.ticket entry.ticket now) (by simp [RootFirst])

theorem rootFirst_of_fresh (kept : Kept weights heap now) (fresh : Fresh weights heap now) :
    RootFirst weights heap now := by
  intro root at_root entry member
  have ahead := Heap.root_first servedBefore_weak kept.ordered at_root entry member
  rw [servedBefore_eq_false, fresh entry member,
    fresh root (Array.mem_of_getElem? at_root)] at ahead
  exact compareQueueKeys_nonpos.mpr ahead

variable (weights) in
/-- What is served at `now` is what the sorted queue of that moment puts first. -/
def ServesFirst (heap : QueueHeap) (now : ℚ) : Prop :=
  ∃ rest, popNext weights heap now =
    .ok ((orderQueue SimTicket.toQueueFeatures heap.contents now weights).head?, rest)

theorem contents_of_root {root : HeapEntry} (at_root : heap[0]? = some root) :
    ∃ others : List HeapEntry, heap.toList = root :: others := by
  rw [← Array.getElem?_toList] at at_root
  cases entries : heap.toList with
  | nil =>
    rw [entries] at at_root
    cases at_root
  | cons first others =>
    rw [entries] at at_root
    cases at_root
    exact ⟨others, rfl⟩

theorem servesFirst_iff (kept : Kept weights heap now) :
    ServesFirst weights heap now ↔ RootFirst weights heap now := by
  rw [ServesFirst, popNext_root kept]
  cases popped : Heap.popRoot servedBefore heap with
  | none =>
    have empty := (Heap.popRoot_eq_none servedBefore).mp popped
    subst empty
    constructor
    · intro _ root at_root
      cases at_root
    · intro _
      exact ⟨#[], by simp [QueueHeap.contents, orderQueue]⟩
  | some pair =>
    obtain ⟨root, rest⟩ := pair
    have at_root := (Heap.popRoot_perm servedBefore popped).1
    obtain ⟨others, entries⟩ := contents_of_root at_root
    have contents : heap.contents = root.ticket :: others.map HeapEntry.ticket := by
      rw [QueueHeap.contents, entries, List.map_cons]
    constructor
    · rintro ⟨rest', served⟩
      have head : (orderQueue SimTicket.toQueueFeatures heap.contents now weights).head? =
          some root.ticket := by
        simp only [Except.ok.injEq, Prod.mk.injEq] at served
        exact served.1.symm
      intro first at_first entry member
      rw [Option.mem_def, at_root, Option.some.injEq] at at_first
      subst at_first
      refine compareQueueKeys_nonpos.mpr (orderQueue_head _ head entry.ticket ?_)
      exact List.mem_map_of_mem (Array.mem_toList_iff.mpr member)
    · intro first
      have ahead : ∀ other ∈ others.map HeapEntry.ticket,
          (queueKey root.ticket.toQueueFeatures now weights).rank ≤
            (queueKey other.toQueueFeatures now weights).rank := by
        intro other member
        obtain ⟨entry, known, rfl⟩ := List.mem_map.mp member
        refine compareQueueKeys_nonpos.mp (first root at_root entry ?_)
        rw [← Array.mem_toList_iff, entries]
        exact List.mem_cons_of_mem root known
      refine ⟨rest, ?_⟩
      rw [contents, orderQueue_cons SimTicket.toQueueFeatures ahead]
      rfl

theorem popRoot_contents {root : HeapEntry} {rest : QueueHeap}
    (popped : Heap.popRoot servedBefore heap = some (root, rest)) :
    (root.ticket :: rest.contents).Perm heap.contents :=
  (Heap.popRoot_perm servedBefore popped).2.map HeapEntry.ticket

theorem Fresh.popRoot (fresh : Fresh weights heap now) {root : HeapEntry} {rest : QueueHeap}
    (popped : Heap.popRoot servedBefore heap = some (root, rest)) : Fresh weights rest now := by
  intro entry member
  have perm := (Heap.popRoot_perm servedBefore popped).2
  refine fresh entry ?_
  rw [← Array.mem_toList_iff, ← perm.mem_iff]
  exact List.mem_cons_of_mem root (Array.mem_toList_iff.mpr member)

/-! ### Draining -/

/-- A heap whose keys are those of the moment is drained in the order of the keys. -/
theorem drain_fresh (kept : Kept weights heap now) (fresh : Fresh weights heap now) :
    ∃ served : List SimTicket, drain weights heap now = .ok (served.map fun ticket => ticket.id) ∧
      served.Perm heap.contents ∧
      (served.map fun ticket =>
        (queueKey ticket.toQueueFeatures now weights).rank).Pairwise (· ≤ ·) := by
  induction size : heap.size using Nat.strong_induction_on generalizing heap with
  | _ n ih =>
    have answer := popNext_root kept
    cases popped : Heap.popRoot servedBefore heap with
    | none =>
      have empty := (Heap.popRoot_eq_none servedBefore).mp popped
      subst empty
      simp only [popped] at answer
      refine ⟨[], ?_, List.Perm.refl _, List.Pairwise.nil⟩
      rw [drain]
      split
      · next failed => rw [answer] at failed; cases failed
      · rfl
      · next served => rw [answer] at served; cases served
    | some pair =>
      obtain ⟨root, rest⟩ := pair
      simp only [popped] at answer
      have perm := popRoot_contents popped
      have smaller : rest.size < n := by
        have lengths := perm.length_eq
        simp only [QueueHeap.contents, List.length_cons, List.length_map,
          Array.length_toList] at lengths
        omega
      obtain ⟨served, drained, same, sorted⟩ :=
        ih rest.size smaller (kept.popRoot popped) (fresh.popRoot popped) rfl
      refine ⟨root.ticket :: served, ?_, (same.cons root.ticket).trans perm, ?_⟩
      · rw [drain]
        split
        · next failed => rw [answer] at failed; cases failed
        · next idle => rw [answer] at idle; cases idle
        · next ticket others next_answer =>
          rw [answer] at next_answer
          cases next_answer
          rw [drained]
          rfl
      · rw [List.map_cons, List.pairwise_cons]
        refine ⟨?_, sorted⟩
        intro place member
        obtain ⟨ticket, known, rfl⟩ := List.mem_map.mp member
        obtain ⟨entry, inside, rfl⟩ := List.mem_map.mp (same.mem_iff.mp known)
        have held : entry ∈ heap := by
          rw [← Array.mem_toList_iff, ← (Heap.popRoot_perm servedBefore popped).2.mem_iff]
          exact List.mem_cons_of_mem root inside
        have at_root := (Heap.popRoot_perm servedBefore popped).1
        exact compareQueueKeys_nonpos.mp (rootFirst_of_fresh kept fresh root at_root entry held)

theorem foldl_push_kept (tickets : List SimTicket) (kept : Kept weights heap now) :
    Kept weights (tickets.foldl (fun heap ticket => push weights heap ticket now) heap) now := by
  induction tickets generalizing heap with
  | nil => exact kept
  | cons ticket tickets ih => exact ih (kept.push ticket)

theorem foldl_push_fresh (tickets : List SimTicket) (fresh : Fresh weights heap now) :
    Fresh weights (tickets.foldl (fun heap ticket => push weights heap ticket now) heap) now := by
  induction tickets generalizing heap with
  | nil => exact fresh
  | cons ticket tickets ih => exact ih (fresh.push ticket)

variable (weights heap now) in
theorem foldl_push_contents (tickets : List SimTicket) :
    (tickets.foldl (fun heap ticket => push weights heap ticket now) heap).contents.Perm
      (tickets ++ heap.contents) := by
  induction tickets generalizing heap with
  | nil => exact List.Perm.refl _
  | cons ticket tickets ih =>
    exact (ih _).trans (((push_contents ticket).append_left tickets).trans List.perm_middle)

theorem heapOrder_eq (tickets : List SimTicket) :
    heapOrder weights tickets now =
      .ok ((orderQueue SimTicket.toQueueFeatures tickets now weights).map
        fun ticket => ticket.id) := by
  have nothing_stale : Fresh weights #[] now := fun entry member =>
    absurd member (Array.not_mem_empty entry)
  have perm := foldl_push_contents weights #[] now tickets
  obtain ⟨served, drained, same, sorted⟩ :=
    drain_fresh (foldl_push_kept tickets kept_empty) (foldl_push_fresh tickets nothing_stale)
  let key : SimTicket → QueueKey := fun ticket => queueKey ticket.toQueueFeatures now weights
  have keys : served.map key =
      (orderQueue SimTicket.toQueueFeatures tickets now weights).map key := by
    refine keys_unique ?_ ?_ ?_
    · refine List.Perm.map key (same.trans (perm.trans ?_))
      rw [QueueHeap.contents, List.map_nil, List.append_nil]
      exact (orderQueue_perm _ tickets now weights).symm
    · rw [List.map_map]
      exact sorted
    · rw [List.map_map]
      exact orderQueue_sorted _ tickets now weights
  have ids := congrArg (List.map QueueKey.id) keys
  rw [List.map_map, List.map_map] at ids
  rw [heapOrder, drained]
  exact congrArg Except.ok ids

/-- Heap and comparator read one order. The stored text reads the same one where every creation
instant fits its column; where one is before the epoch or too wide, the stored reading is
refused as soon as there are two tickets to compare. -/
theorem three_readings (otherText : ℚ → String) (weights : Weights) (tickets : List SimTicket)
    (now : ℚ) :
    heapOrder weights tickets now = .ok ((orderQueue SimTicket.toQueueFeatures tickets now weights).map
        fun ticket => ticket.id) ∧
      ((tickets.length < 2 ∨ ∀ ticket ∈ tickets, FitsColumn ticket.toQueueFeatures) →
        storedOrder otherText tickets now weights =
          .ok ((orderQueue SimTicket.toQueueFeatures tickets now weights).map
            fun ticket => ticket.id)) ∧
      (2 ≤ tickets.length →
        ∀ ticket ∈ tickets, (ticket.createdAt < 0 ∨
            ∃ n : Nat, ticket.createdAt = n ∧ 10 ^ 15 ≤ n ∧ n < 10 ^ 21) →
          ∃ refused ∈ tickets, storedOrder otherText tickets now weights =
            .error (.storedCreatedAt refused.createdAt)) := by
  refine ⟨heapOrder_eq tickets, fun fit => storedOrder_ok otherText now weights fit, ?_⟩
  intro long ticket member outside
  exact storedOrder_refused otherText now weights long member outside

end

/-- A plain ticket of a severity, with its window. -/
def plainTicket (id : String) (severity : Severity) (createdAt slaWindowMs : ℚ) : SimTicket where
  id
  severity
  sentiment := .absent
  tier := .standard
  valueBand := .one
  createdAt
  slaDueAt := createdAt + slaWindowMs
  slaWindowMs

/-- The ticket from before the epoch has a place in the queue and none in the store. -/
theorem no_stored_place_before_epoch :
    heapOrder .published [plainTicket "b" .one 0 100, plainTicket "a" .one (-1) 100] 0 =
        .ok ["a", "b"] ∧
      storedOrder (fun _ => "") [plainTicket "b" .one 0 100, plainTicket "a" .one (-1) 100] 0
        .published = .error (.storedCreatedAt (-1)) := by
  decide +kernel

/-! ### Runs of a heap -/

inductive HeapOp where
  | push (ticket : SimTicket) (now : ℚ)
  | popNext (now : ℚ)
  | rebuild (now : ℚ)
  deriving DecidableEq, Repr

def HeapOp.now : HeapOp → ℚ
  | .push _ now | .popNext now | .rebuild now => now

/-- A heap with the instant of its last call, and what was pushed to it and served from it. -/
structure HeapState where
  heap : QueueHeap
  clock : ℚ
  pushed : List SimTicket
  served : List SimTicket
  tripped : Bool
  deriving DecidableEq, Repr

/-- `makeQueueHeap`, at any instant. -/
def HeapState.made (clock : ℚ) : HeapState := ⟨#[], clock, [], [], false⟩

section

variable (weights : Weights)

/-- One call, at an instant no earlier than that of the call before. -/
def heapStep (s : HeapState) (op : HeapOp) : Option HeapState :=
  if op.now < s.clock then none
  else
    match op with
    | .push ticket now =>
      some { s with heap := push weights s.heap ticket now, clock := now, pushed := ticket :: s.pushed }
    | .rebuild now => some { s with heap := rebuild weights s.heap now, clock := now }
    | .popNext now =>
      match popNext weights s.heap now with
      | .error _ => some { s with clock := now, tripped := true }
      | .ok (answer, rest) =>
        some { s with heap := rest, clock := now, served := answer.toList ++ s.served }

/-- Nothing was lost or doubled, and no call failed. -/
structure HeapSound (s : HeapState) : Prop where
  kept : Kept weights s.heap s.clock
  conserved : (s.served ++ s.heap.contents).Perm s.pushed
  settled : s.tripped = false

variable {weights}

theorem heapSound_made (clock : ℚ) : HeapSound weights (.made clock) where
  kept := kept_empty
  conserved := List.Perm.refl _
  settled := rfl

theorem heapSound_step (s : HeapState) (op : HeapOp) (t : HeapState)
    (step : heapStep weights s op = some t) (sound : HeapSound weights s) :
    HeapSound weights t := by
  unfold heapStep at step
  split at step
  · cases step
  · next later =>
    have kept : Kept weights s.heap op.now := sound.kept.mono (not_lt.mp later)
    cases op with
    | push ticket now =>
      cases step
      refine ⟨kept.push ticket, ?_, sound.settled⟩
      have added : (push weights s.heap ticket now).contents.Perm (ticket :: s.heap.contents) :=
        push_contents ticket
      exact (added.append_left s.served).trans
        (List.perm_middle.trans (sound.conserved.cons ticket))
    | rebuild now =>
      cases step
      exact ⟨rebuild_kept, (rebuild_contents.append_left s.served).trans sound.conserved,
        sound.settled⟩
    | popNext now =>
      have answer := popNext_root kept
      cases popped : Heap.popRoot servedBefore s.heap with
      | none =>
        simp only [HeapOp.now, popped] at answer
        simp only [answer] at step
        cases step
        exact ⟨kept, sound.conserved, sound.settled⟩
      | some pair =>
        obtain ⟨root, rest⟩ := pair
        simp only [HeapOp.now, popped] at answer
        simp only [answer] at step
        cases step
        refine ⟨kept.popRoot popped, ?_, sound.settled⟩
        have moved := (popRoot_contents popped).append_left s.served
        exact List.perm_middle.symm.trans (moved.trans sound.conserved)

/-- Over any calls at instants that do not go back: none fails, no ticket is lost or doubled, and
a call serves the first ticket of the queue of its moment just when no ticket has overtaken the
one whose stored key is first. -/
theorem lazy_heap_serves {clock : ℚ} {s : HeapState} {ts : List (Transition HeapState HeapOp)}
    (run : Run (heapStep weights) (.made clock) ts s) :
    (∀ tr ∈ ts, tr.target.tripped = false ∧
        (tr.target.served ++ tr.target.heap.contents).Perm tr.target.pushed) ∧
      ∀ tr ∈ ts, ∀ now, tr.act = .popNext now →
        (ServesFirst weights tr.source.heap now ↔ RootFirst weights tr.source.heap now) := by
  have sound := (run.invariant heapSound_step (heapSound_made clock)).2
  constructor
  · intro tr member
    exact ⟨(sound tr member).2.settled, (sound tr member).2.conserved⟩
  · intro tr member now act
    have taken := run.steps tr member
    rw [act] at taken
    unfold heapStep at taken
    have later : ¬ now < tr.source.clock := by
      intro early
      rw [HeapOp.now, if_pos early] at taken
      cases taken
    exact servesFirst_iff ((sound tr member).1.kept.mono (not_lt.mp later))

end

/-- Two tickets pushed at `0`: the mild one with a window of 100 overtakes the other by 90. -/
def overtaking : HeapState where
  heap := push .published (push .published #[] (plainTicket "mild" .one 0 100) 0)
    (plainTicket "severe" .two 0 10000) 0
  clock := 0
  pushed := [plainTicket "severe" .two 0 10000, plainTicket "mild" .one 0 100]
  served := []
  tripped := false

theorem overtaking_run : ∃ ts, Run (heapStep .published) (.made 0) ts overtaking :=
  ⟨_, run_of_perform (heapStep .published)
    [.push (plainTicket "mild" .one 0 100) 0, .push (plainTicket "severe" .two 0 10000) 0] _ _
    (by decide +kernel)⟩

theorem overtaken_ticket_not_served :
    ∃ ts s, Run (heapStep .published) (.made 0) ts s ∧
      ∃ tr ∈ ts, ∃ now, tr.act = .popNext now ∧ ¬ ServesFirst .published tr.source.heap now := by
  obtain ⟨ts, pushes⟩ := overtaking_run
  have sound := (pushes.invariant heapSound_step (heapSound_made 0)).1
  have taken : heapStep .published overtaking (.popNext 90) = some
      { overtaking with
        heap := #[entryAt .published (plainTicket "mild" .one 0 100) 0]
        clock := 90
        served := [plainTicket "severe" .two 0 10000] } := by decide +kernel
  refine ⟨_, _, pushes.append (.single taken), _, List.mem_append_right _ List.mem_cons_self, 90,
    rfl, ?_⟩
  rw [servesFirst_iff (sound.kept.mono (by decide +kernel))]
  decide +kernel

/-- Asked at the instant of the pushes, the heap serves the first ticket. -/
theorem prompt_call_serves_first : ServesFirst .published overtaking.heap 0 := by
  obtain ⟨ts, pushes⟩ := overtaking_run
  have taken : heapStep .published overtaking (.popNext 0) = some
      { overtaking with
        heap := #[entryAt .published (plainTicket "mild" .one 0 100) 0]
        served := [plainTicket "severe" .two 0 10000] } := by decide +kernel
  exact ((lazy_heap_serves (pushes.append (.single taken))).2 _
    (List.mem_append_right _ List.mem_cons_self) 0 rfl).mpr (by decide +kernel)

end LedgerDesk.Queue
