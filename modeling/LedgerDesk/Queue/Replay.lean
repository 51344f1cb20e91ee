import LedgerDesk.Queue.LazyHeap

/-!
# The replay

At each tick the arrivals so far are pushed, the heap is rebuilt, and every agent who is free
takes the next ticket. The loop ends when nothing is left, or at a horizon computed beforehand.
-/
namespace LedgerDesk.Queue

open Foundation

structure SnapshotPlan where
  everyMs : ℚ
  offsetMs : ℚ
  deriving DecidableEq, Repr

/-- What is replayed; time moves from tick to tick. -/
structure ReplayOptions where
  arrivals : List SimTicket
  weights : Weights
  agents : Nat
  handleMs : ℚ
  tickMs : ℚ
  snapshot : Option SnapshotPlan
  ticking : 0 < tickMs

structure QueueSnapshot where
  at_ : ℚ
  waiting : List SimTicket
  deriving DecidableEq, Repr

structure ServiceRecord where
  id : String
  severity : Severity
  tier : AccountTier
  createdAt : ℚ
  slaDueAt : ℚ
  slaWindowMs : ℚ
  startedAt : ℚ
  waitMs : ℚ
  breachedAtService : Bool
  deriving DecidableEq, Repr

/-- One ticket taken by one agent. -/
structure Service where
  agent : Nat
  ticket : SimTicket
  startedAt : ℚ
  deriving DecidableEq, Repr

/-- What is kept of a service; who took the ticket is not. -/
def Service.record (service : Service) : ServiceRecord where
  id := service.ticket.id
  severity := service.ticket.severity
  tier := service.ticket.tier
  createdAt := service.ticket.createdAt
  slaDueAt := service.ticket.slaDueAt
  slaWindowMs := service.ticket.slaWindowMs
  startedAt := service.startedAt
  waitMs := service.startedAt - service.ticket.createdAt
  breachedAtService := service.ticket.slaDueAt < service.startedAt

structure ReplayResult where
  served : List ServiceRecord
  unserved : List String
  order : List String
  snapshots : List QueueSnapshot
  breachRate : ℚ
  maxWaitMs : ℚ
  p95WaitMs : ℚ
  peakQueueLength : Nat
  ticks : Nat
  deriving DecidableEq, Repr

/-- An entry of `busyUntil` with its index; `none` is minus infinity. -/
structure Agent where
  number : Nat
  busyUntil : Option ℚ
  deriving DecidableEq, Repr

def Agent.isBusy (agent : Agent) (now : ℚ) : Bool :=
  match agent.busyUntil with
  | none => false
  | some busyUntil => now < busyUntil

structure ReplayState where
  arriving : List SimTicket
  heap : QueueHeap
  agents : List Agent
  services : List Service
  snapshots : List QueueSnapshot
  peakQueueLength : Nat
  ticks : Nat
  now : ℚ
  deriving DecidableEq, Repr

/-- `mod(value, modulus) === 0`. -/
def isMultiple (value modulus : ℚ) : Bool := modulus ≠ 0 && (value / modulus).den = 1

/-- Nearest-rank percentile of a sorted list. -/
def percentile (sorted : List ℚ) (fraction : ℚ) : ℚ :=
  let rank := ⌈fraction * sorted.length⌉
  let index := min ((sorted.length : Int) - 1) (max 0 (rank - 1))
  sorted.getD index.toNat 0

namespace ReplayOptions

variable (options : ReplayOptions)

/-- The tick the replay begins at: the last one that is not after the first arrival. -/
def startAt : ℚ :=
  match options.arrivals.head? with
  | some first => ⌊first.createdAt / options.tickMs⌋ * options.tickMs
  | none => 0

def horizon : ℚ :=
  match options.arrivals.getLast? with
  | some last => last.createdAt + options.handleMs * options.arrivals.length + options.tickMs
  | none => 0

def start : ReplayState where
  arriving := options.arrivals
  heap := #[]
  agents := (List.range options.agents).map fun number => ⟨number, none⟩
  services := []
  snapshots := []
  peakQueueLength := 0
  ticks := 0
  now := options.startAt

/-- The agents in turn, as long as a ticket waits. -/
def serve (now : ℚ) : List Agent → QueueHeap → Except HeapFault (List Agent × QueueHeap × List Service)
  | [], heap => .ok ([], heap, [])
  | agent :: agents, heap =>
    if heap.size = 0 then .ok (agent :: agents, heap, [])
    else if agent.isBusy now then
      match serve now agents heap with
      | .error fault => .error fault
      | .ok (agents, heap, services) => .ok (agent :: agents, heap, services)
    else
      match popNext options.weights heap now with
      | .error fault => .error fault
      | .ok (none, heap) => .ok (agent :: agents, heap, [])
      | .ok (some ticket, heap) =>
        match serve now agents heap with
        | .error fault => .error fault
        | .ok (agents, heap, services) =>
          .ok ({ agent with busyUntil := some (now + options.handleMs) } :: agents, heap,
            ⟨agent.number, ticket, now⟩ :: services)

/-- Those of the stream that have arrived by now, pushed. -/
def arrive (s : ReplayState) : QueueHeap :=
  (s.arriving.takeWhile fun ticket => ticket.createdAt ≤ s.now).foldl
    (fun heap ticket => push options.weights heap ticket s.now) s.heap

def takesSnapshot (now : ℚ) : Bool :=
  match options.snapshot with
  | none => false
  | some plan => isMultiple (now - plan.offsetMs) plan.everyMs

/-- One pass of the loop. -/
def tick (s : ReplayState) : Except HeapFault ReplayState :=
  let heap := options.arrive s
  let answer :=
    if heap.size = 0 then .ok (s.agents, heap, [])
    else options.serve s.now s.agents (rebuild options.weights heap s.now)
  match answer with
  | .error fault => .error fault
  | .ok (agents, served, services) =>
    .ok {
      arriving := s.arriving.dropWhile fun ticket => ticket.createdAt ≤ s.now
      heap := served
      agents
      services := s.services ++ services
      snapshots :=
        if options.takesSnapshot s.now then s.snapshots ++ [⟨s.now, heap.contents⟩] else s.snapshots
      peakQueueLength := max s.peakQueueLength heap.size
      ticks := s.ticks + 1
      now := s.now + options.tickMs }

/-- Something is left to arrive or to serve, and the horizon is not passed. -/
def continues (s : ReplayState) : Bool :=
  (!s.arriving.isEmpty || s.heap.size != 0) && s.now ≤ options.horizon

theorem tick_now {s t : ReplayState} (ticked : options.tick s = .ok t) :
    t.now = s.now + options.tickMs := by
  simp only [tick] at ticked
  split at ticked
  · cases ticked
  · cases ticked
    rfl

/-- How many ticks are left until the horizon. -/
def ticksLeft (s : ReplayState) : Nat := (⌊(options.horizon - s.now) / options.tickMs⌋ + 1).toNat

theorem ticksLeft_decreases {s t : ReplayState} (going : options.continues s = true)
    (ticked : options.tick s = .ok t) : options.ticksLeft t < options.ticksLeft s := by
  simp only [continues, Bool.and_eq_true, decide_eq_true_eq] at going
  have nonneg : 0 ≤ ⌊(options.horizon - s.now) / options.tickMs⌋ :=
    Int.floor_nonneg.mpr (div_nonneg (sub_nonneg.mpr going.2) options.ticking.le)
  have step : (options.horizon - t.now) / options.tickMs =
      (options.horizon - s.now) / options.tickMs - 1 := by
    rw [options.tick_now ticked]
    have positive := ne_of_gt options.ticking
    field_simp
    ring
  rw [ticksLeft, ticksLeft, step, Int.floor_sub_one]
  omega

def loop (s : ReplayState) : Except HeapFault ReplayState :=
  if _ : options.continues s = true then
    match _ : options.tick s with
    | .error fault => .error fault
    | .ok t => loop t
  else .ok s
termination_by options.ticksLeft s
decreasing_by exact options.ticksLeft_decreases (by assumption) (by assumption)

end ReplayOptions

def ReplayState.result (s : ReplayState) : ReplayResult :=
  let served := s.services.map Service.record
  let waits := (served.map ServiceRecord.waitMs).mergeSort
  let breaches := (served.filter ServiceRecord.breachedAtService).length
  { served
    unserved := s.heap.contents.map fun ticket => ticket.id
    order := served.map ServiceRecord.id
    snapshots := s.snapshots
    breachRate := if served.length = 0 then 0 else breaches / served.length
    maxWaitMs := waits.getLastD 0
    p95WaitMs := percentile waits (95 / 100)
    peakQueueLength := s.peakQueueLength
    ticks := s.ticks }

def ReplayResult.nothing : ReplayResult := ⟨[], [], [], [], 0, 0, 0, 0, 0⟩

inductive ReplayFault where
  | range (error : RangeError)
  | heap (fault : HeapFault)
  deriving DecidableEq, Repr

def replay (options : ReplayOptions) : Except ReplayFault ReplayResult :=
  if options.agents < 1 then .error (.range (.noAgent options.agents))
  else if options.arrivals.isEmpty then .ok .nothing
  else
    match options.loop options.start with
    | .error fault => .error (.heap fault)
    | .ok s => .ok s.result

/-! ### One round of the agents -/

variable {options : ReplayOptions} {now : ℚ}

/-- The place of a ticket at `now`. -/
def SimTicket.place (ticket : SimTicket) (now : ℚ) (weights : Weights) :
    Bool ×ₗ ℚᵒᵈ ×ₗ ℚ ×ₗ List Nat :=
  (queueKey ticket.toQueueFeatures now weights).rank

/-- What a round leaves of the agents and the heap, and the services it starts. -/
structure Round (options : ReplayOptions) (now : ℚ) (agents : List Agent) (heap : QueueHeap)
    (agents' : List Agent) (heap' : QueueHeap) (services : List Service) : Prop where
  kept : Kept options.weights heap' now
  conserved : (services.map Service.ticket ++ heap'.contents).Perm heap.contents
  best : (services.map fun service => service.ticket.place now options.weights).Pairwise (· ≤ ·)
  ahead : ∀ service ∈ services, ∀ ticket ∈ heap'.contents,
    service.ticket.place now options.weights ≤ ticket.place now options.weights
  count : services.length = min (agents.countP fun agent => !agent.isBusy now) heap.size
  started : ∀ service ∈ services, service.startedAt = now
  numbers : agents'.map Agent.number = agents.map Agent.number
  takers : (services.map Service.agent).Sublist (agents.map Agent.number)
  taken : ∀ service ∈ services, ∃ agent ∈ agents,
    agent.number = service.agent ∧ agent.isBusy now = false
  after : ∀ agent' ∈ agents',
    (agent' ∈ agents ∧ ∀ service ∈ services, service.agent ≠ agent'.number) ∨
      (∃ agent ∈ agents, agent.number = agent'.number ∧ agent.isBusy now = false) ∧
        agent'.busyUntil = some (now + options.handleMs)
  busy : ∀ later, now ≤ later → agents'.countP (·.isBusy later) =
    agents.countP (·.isBusy later) + if later < now + options.handleMs then services.length else 0

theorem round_idle {agents : List Agent} {heap : QueueHeap} (kept : Kept options.weights heap now)
    (none_left : agents = [] ∨ heap.size = 0) : Round options now agents heap agents heap [] where
  kept := kept
  conserved := List.Perm.refl _
  best := List.Pairwise.nil
  ahead := by simp
  count := by
    rcases none_left with rfl | empty
    · simp
    · simp [empty]
  started := by simp
  numbers := rfl
  takers := List.nil_sublist _
  taken := by simp
  after agent' member := .inl ⟨member, by simp⟩
  busy later _ := by simp

/-- A busy agent is passed over. -/
theorem Round.skip {agent : Agent} {agents agents' : List Agent} {heap heap' : QueueHeap}
    {services : List Service} (round : Round options now agents heap agents' heap' services)
    (distinct : ((agent :: agents).map Agent.number).Nodup) (busy : agent.isBusy now = true) :
    Round options now (agent :: agents) heap (agent :: agents') heap' services where
  kept := round.kept
  conserved := round.conserved
  best := round.best
  ahead := round.ahead
  count := by rw [round.count, List.countP_cons_of_neg (by simp [busy])]
  started := round.started
  numbers := by rw [List.map_cons, List.map_cons, round.numbers]
  takers := round.takers.cons _
  taken service member := by
    obtain ⟨taker, known, same, free⟩ := round.taken service member
    exact ⟨taker, List.mem_cons_of_mem agent known, same, free⟩
  after := by
    intro agent' member
    rcases List.mem_cons.mp member with rfl | member
    · refine .inl ⟨List.mem_cons_self, fun service taken same => ?_⟩
      have number : service.agent ∈ agents.map Agent.number :=
        round.takers.subset (List.mem_map_of_mem taken)
      rw [same] at number
      exact (List.nodup_cons.mp distinct).1 number
    · rcases round.after agent' member with ⟨old, others⟩ | ⟨⟨taker, known, same, free⟩, until_⟩
      · exact .inl ⟨List.mem_cons_of_mem agent old, others⟩
      · exact .inr ⟨⟨taker, List.mem_cons_of_mem agent known, same, free⟩, until_⟩
  busy := by
    intro later le
    rw [List.countP_cons, List.countP_cons, round.busy later le]
    omega

theorem Agent.isBusy_mono {agent : Agent} {later : ℚ} (le : now ≤ later)
    (free : agent.isBusy now = false) : agent.isBusy later = false := by
  unfold Agent.isBusy at *
  split
  · rfl
  · next busyUntil known =>
    rw [known] at free
    simp only [decide_eq_false_iff_not, not_lt] at free ⊢
    exact le_trans free le

theorem root_ahead {weights : Weights} {heap rest : QueueHeap} {root : HeapEntry}
    (popped : Heap.popRoot servedBefore heap = some (root, rest))
    (first : RootFirst weights heap now) :
    ∀ ticket ∈ rest.contents, root.ticket.place now weights ≤ ticket.place now weights := by
  intro ticket member
  obtain ⟨entry, known, rfl⟩ := List.mem_map.mp member
  obtain ⟨at_root, perm⟩ := Heap.popRoot_perm servedBefore popped
  refine compareQueueKeys_nonpos.mp (first root at_root entry ?_)
  rw [← Array.mem_toList_iff, ← perm.mem_iff]
  exact List.mem_cons_of_mem root known

/-- A free agent takes the root. -/
theorem Round.take {agent : Agent} {agents agents' : List Agent} {heap rest heap' : QueueHeap}
    {services : List Service} {root : HeapEntry}
    (round : Round options now agents rest agents' heap' services)
    (distinct : ((agent :: agents).map Agent.number).Nodup) (free : agent.isBusy now = false)
    (popped : Heap.popRoot servedBefore heap = some (root, rest))
    (first : RootFirst options.weights heap now) :
    Round options now (agent :: agents) heap
      ({ agent with busyUntil := some (now + options.handleMs) } :: agents') heap'
      (⟨agent.number, root.ticket, now⟩ :: services) where
  kept := round.kept
  conserved := (round.conserved.cons root.ticket).trans (popRoot_contents popped)
  best := by
    rw [List.map_cons, List.pairwise_cons]
    refine ⟨?_, round.best⟩
    intro place member
    obtain ⟨service, known, rfl⟩ := List.mem_map.mp member
    exact root_ahead popped first _
      (round.conserved.mem_iff.mp (List.mem_append_left _ (List.mem_map_of_mem known)))
  ahead := by
    intro service member ticket waits
    rcases List.mem_cons.mp member with rfl | member
    · exact root_ahead popped first _
        (round.conserved.mem_iff.mp (List.mem_append_right _ waits))
    · exact round.ahead service member ticket waits
  count := by
    have sizes := (popRoot_contents popped).length_eq
    simp only [QueueHeap.contents, List.length_cons, List.length_map,
      Array.length_toList] at sizes
    rw [List.length_cons, round.count, List.countP_cons_of_pos (by simp [free])]
    omega
  started := by
    intro service member
    rcases List.mem_cons.mp member with rfl | member
    · rfl
    · exact round.started service member
  numbers := by rw [List.map_cons, List.map_cons, round.numbers]
  takers := by
    rw [List.map_cons, List.map_cons]
    exact round.takers.cons_cons agent.number
  taken := by
    intro service member
    rcases List.mem_cons.mp member with rfl | member
    · exact ⟨agent, List.mem_cons_self, rfl, free⟩
    · obtain ⟨taker, known, same, free⟩ := round.taken service member
      exact ⟨taker, List.mem_cons_of_mem agent known, same, free⟩
  after := by
    intro agent' member
    rcases List.mem_cons.mp member with rfl | member
    · exact .inr ⟨⟨agent, List.mem_cons_self, rfl, free⟩, rfl⟩
    · rcases round.after agent' member with ⟨old, others⟩ | ⟨⟨taker, known, same, free⟩, until_⟩
      · refine .inl ⟨List.mem_cons_of_mem agent old, fun service taken => ?_⟩
        rcases List.mem_cons.mp taken with rfl | taken
        · intro same
          have number : agent'.number ∈ agents.map Agent.number := List.mem_map_of_mem old
          rw [← same] at number
          exact (List.nodup_cons.mp distinct).1 number
        · exact others service taken
      · exact .inr ⟨⟨taker, List.mem_cons_of_mem agent known, same, free⟩, until_⟩
  busy := by
    intro later le
    have before := Agent.isBusy_mono le free
    have own : ({ agent with busyUntil := some (now + options.handleMs) } : Agent).isBusy later =
        decide (later < now + options.handleMs) := rfl
    rw [List.countP_cons, List.countP_cons_of_neg (by simp [before]), round.busy later le, own,
      List.length_cons]
    by_cases held : later < now + options.handleMs
    · simp only [held, decide_true, if_true]
      omega
    · simp only [held, decide_false, if_false]
      simp

theorem serve_round {agents : List Agent} {heap : QueueHeap} (kept : Kept options.weights heap now)
    (fresh : Fresh options.weights heap now) (distinct : (agents.map Agent.number).Nodup) :
    ∃ agents' heap' services, options.serve now agents heap = .ok (agents', heap', services) ∧
      Round options now agents heap agents' heap' services := by
  induction agents generalizing heap with
  | nil => exact ⟨[], heap, [], rfl, round_idle kept (.inl rfl)⟩
  | cons agent agents ih =>
    have others : (agents.map Agent.number).Nodup := (List.nodup_cons.mp distinct).2
    rw [ReplayOptions.serve]
    by_cases empty : heap.size = 0
    · exact ⟨agent :: agents, heap, [], if_pos empty, round_idle kept (.inr empty)⟩
    · rw [if_neg empty]
      cases busy : agent.isBusy now with
      | true =>
        obtain ⟨agents', heap', services, served, round⟩ := ih kept fresh others
        refine ⟨agent :: agents', heap', services, ?_, round.skip distinct busy⟩
        rw [if_pos rfl, served]
      | false =>
        have answer := popNext_root kept
        cases popped : Heap.popRoot servedBefore heap with
        | none =>
          rw [Heap.popRoot_eq_none] at popped
          exact absurd (congrArg Array.size popped) empty
        | some pair =>
          obtain ⟨root, rest⟩ := pair
          obtain ⟨agents', heap', services, served, round⟩ :=
            ih (kept.popRoot popped) (fresh.popRoot popped) others
          refine ⟨_, heap', _, ?_, round.take distinct busy popped (rootFirst_of_fresh kept fresh)⟩
          simp only [popped] at answer
          rw [if_neg (by simp), answer]
          simp only [served]

end LedgerDesk.Queue
