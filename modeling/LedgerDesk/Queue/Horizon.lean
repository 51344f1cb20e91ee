import LedgerDesk.Foundation.Capacity
import LedgerDesk.Queue.Replay

/-!
# What a replay keeps, and when it reaches the end

How many tickets have started by a tick depends on the arrivals and on the holds, counted in
whole ticks. The horizon counts the handling time as it stands, so it may come too early.
-/
namespace LedgerDesk.Queue

open Foundation

namespace ReplayOptions

variable (options : ReplayOptions)

/-- The instant of a tick. -/
def instant (tick : Nat) : ℚ := options.startAt + tick * options.tickMs

def arrivedBy (instant : ℚ) : Nat :=
  options.arrivals.countP fun ticket => ticket.createdAt ≤ instant

/-- The handling time in ticks: an agent is free again at a tick, not between two. -/
def holdTicks : Nat := ⌈options.handleMs / options.tickMs⌉.toNat

/-- How many tickets have started by a tick. -/
def startedBy (tick : Nat) : Nat :=
  Capacity.started (fun k => options.arrivedBy (options.instant k)) options.agents options.holdTicks
    tick

/-- One pass of the loop, where the loop goes on. -/
def next (s : ReplayState) (_ : Unit) : Option ReplayState :=
  if options.continues s then (options.tick s).toOption else none

variable {options}

theorem instant_lt {k m : Nat} : options.instant k < options.instant m ↔ k < m := by
  rw [instant, instant, add_lt_add_iff_left, mul_lt_mul_iff_of_pos_right options.ticking, Nat.cast_lt]

theorem instant_le {k m : Nat} : options.instant k ≤ options.instant m ↔ k ≤ m := by
  rw [← not_lt, instant_lt, not_lt]

theorem instant_succ (k : Nat) : options.instant (k + 1) = options.instant k + options.tickMs := by
  simp only [instant, Nat.cast_add, Nat.cast_one]
  ring

theorem holdTicks_pos (handling : 0 < options.handleMs) : 0 < options.holdTicks := by
  have positive : 0 < ⌈options.handleMs / options.tickMs⌉ :=
    Int.ceil_pos.mpr (div_pos handling options.ticking)
  rw [holdTicks]
  omega

/-- Who takes a ticket at tick `k` is free at tick `m`. -/
theorem held_until (handling : 0 < options.handleMs) {k m : Nat} :
    options.instant k + options.handleMs ≤ options.instant m ↔ k + options.holdTicks ≤ m := by
  have positive := holdTicks_pos handling
  have ceiling : ((options.holdTicks : Nat) : Int) = ⌈options.handleMs / options.tickMs⌉ := by
    rw [holdTicks] at positive ⊢
    omega
  have whole : options.instant k + options.handleMs ≤ options.instant m ↔
      options.handleMs / options.tickMs ≤ ((m : Int) - (k : Int) : Int) := by
    rw [div_le_iff₀ options.ticking, instant, instant]
    push_cast
    constructor <;> intro le <;> linarith
  rw [whole, ← Int.ceil_le, ← ceiling]
  omega

end ReplayOptions

open ReplayOptions

/-- What holds between two passes of the loop. -/
structure ReplaySound (options : ReplayOptions) (s : ReplayState) : Prop where
  clock : s.now = options.instant s.ticks
  conserved : (s.services.map Service.ticket ++ (s.heap.contents ++ s.arriving)).Perm options.arrivals
  ahead : s.arriving.Pairwise fun a b => a.createdAt ≤ b.createdAt
  upcoming : ∀ ticket ∈ s.arriving, ∀ k < s.ticks, options.instant k < ticket.createdAt
  arrived : ∀ ticket ∈ s.services.map Service.ticket ++ s.heap.contents,
    ∃ k < s.ticks, ticket.createdAt ≤ options.instant k
  kept : Kept options.weights s.heap s.now
  numbers : s.agents.map Agent.number = List.range options.agents
  known : ∀ service ∈ s.services, service.agent < options.agents
  covered : ∀ service ∈ s.services, ∀ agent ∈ s.agents, agent.number = service.agent →
    ∃ busyUntil, agent.busyUntil = some busyUntil ∧
      service.startedAt + options.handleMs ≤ busyUntil
  apart : s.services.Pairwise fun a b =>
    a.agent = b.agent → a.startedAt + options.handleMs ≤ b.startedAt
  timely : ∀ service ∈ s.services, service.ticket.createdAt ≤ service.startedAt
  grid : ∀ service ∈ s.services, ∃ k < s.ticks, service.startedAt = options.instant k
  busy : ∀ later, s.now ≤ later → s.agents.countP (·.isBusy later) =
    s.services.countP fun service => later < service.startedAt + options.handleMs
  pace : ∀ k < s.ticks, s.services.countP (fun service => service.startedAt ≤ options.instant k) =
    options.startedBy k
  inTime : ∀ k < s.ticks, options.instant k ≤ options.horizon

theorem replaySound_start {options : ReplayOptions}
    (sorted : options.arrivals.Pairwise fun a b => a.createdAt ≤ b.createdAt) :
    ReplaySound options options.start where
  clock := by simp [start, instant]
  conserved := List.Perm.refl _
  ahead := sorted
  upcoming := by simp [start]
  arrived := by simp [start, QueueHeap.contents]
  kept := kept_empty
  numbers := by simp [start, Function.comp_def]
  known := by simp [start]
  covered := by simp [start]
  apart := List.Pairwise.nil
  timely := by simp [start]
  grid := by simp [start]
  busy := by
    intro later _
    have idle : ∀ agent ∈ options.start.agents, ¬ agent.isBusy later = true := by
      intro agent member
      obtain ⟨number, -, rfl⟩ := List.mem_map.mp member
      simp [Agent.isBusy]
    rw [List.countP_eq_zero.mpr idle]
    rfl
  pace := by simp [start]
  inTime := by simp [start]

/-! ### One pass -/

theorem arrive_kept {options : ReplayOptions} {s : ReplayState}
    (kept : Kept options.weights s.heap s.now) :
    Kept options.weights (options.arrive s) s.now :=
  foldl_push_kept _ kept

theorem arrive_contents (options : ReplayOptions) (s : ReplayState) :
    (options.arrive s).contents.Perm
      (s.arriving.takeWhile (fun ticket => ticket.createdAt ≤ s.now) ++ s.heap.contents) :=
  foldl_push_contents options.weights s.heap s.now _

/-- The heap the round is served from holds what has arrived. -/
theorem tick_round {options : ReplayOptions} {s : ReplayState} (sound : ReplaySound options s) :
    ∃ queue agents services t, options.tick s = .ok t ∧
      queue.contents.Perm (options.arrive s).contents ∧
      Round options s.now s.agents queue agents t.heap services ∧
      t.arriving = s.arriving.dropWhile (fun ticket => ticket.createdAt ≤ s.now) ∧
      t.agents = agents ∧ t.services = s.services ++ services ∧ t.ticks = s.ticks + 1 ∧
      t.now = s.now + options.tickMs := by
  have kept := arrive_kept sound.kept
  have distinct : (s.agents.map Agent.number).Nodup := by
    rw [sound.numbers]
    exact List.nodup_range
  rw [tick]
  by_cases empty : (options.arrive s).size = 0
  · simp only [if_pos empty]
    exact ⟨options.arrive s, s.agents, [], _, rfl, List.Perm.refl _, round_idle kept (.inr empty),
      rfl, rfl, rfl, rfl, rfl⟩
  · have rebuilt : Kept options.weights (rebuild options.weights (options.arrive s) s.now) s.now :=
      rebuild_kept
    obtain ⟨agents, heap, services, served, round⟩ := serve_round rebuilt rebuild_fresh distinct
    simp only [if_neg empty, served]
    exact ⟨rebuild options.weights (options.arrive s) s.now, agents, services, _, rfl,
      rebuild_contents, round, rfl, rfl, rfl, rfl, rfl⟩

theorem dropWhile_upcoming {now : ℚ} {tickets : List SimTicket}
    (ahead : tickets.Pairwise fun a b => a.createdAt ≤ b.createdAt) :
    ∀ ticket ∈ tickets.dropWhile (fun ticket => ticket.createdAt ≤ now),
      now < ticket.createdAt := by
  induction tickets with
  | nil => simp
  | cons first tickets ih =>
    rw [List.pairwise_cons] at ahead
    intro ticket member
    by_cases arrived : first.createdAt ≤ now
    · rw [List.dropWhile_cons_of_pos (by simpa using arrived)] at member
      exact ih ahead.2 ticket member
    · rw [List.dropWhile_cons_of_neg (by simpa using arrived)] at member
      rcases List.mem_cons.mp member with rfl | later
      · exact not_le.mp arrived
      · exact lt_of_lt_of_le (not_le.mp arrived) (ahead.1 ticket later)

section Tick

variable {options : ReplayOptions} {s t : ReplayState} {queue : QueueHeap} {services : List Service}

/-- What waits at a tick, with what has started and what is still to come, is all there is. -/
theorem waiting_conserved (sound : ReplaySound options s)
    (waiting : queue.contents.Perm (options.arrive s).contents) :
    (s.services.map Service.ticket ++ (queue.contents ++
      s.arriving.dropWhile fun ticket => ticket.createdAt ≤ s.now)).Perm options.arrivals := by
  have split := List.takeWhile_append_dropWhile (p := fun ticket : SimTicket =>
    decide (ticket.createdAt ≤ s.now)) (l := s.arriving)
  refine List.Perm.trans (List.Perm.append_left _ ?_) sound.conserved
  refine ((waiting.trans (arrive_contents options s)).append_right _).trans ?_
  conv_rhs => rw [← split]
  rw [← List.append_assoc]
  exact (List.perm_append_comm.append_right _)

/-- By now everything that has started or waits was created, and nothing else. -/
theorem waiting_arrived (sound : ReplaySound options s)
    (waiting : queue.contents.Perm (options.arrive s).contents) :
    ∀ ticket ∈ s.services.map Service.ticket ++ queue.contents, ticket.createdAt ≤ s.now := by
  intro ticket member
  have earlier : ticket ∈ s.services.map Service.ticket ++ s.heap.contents →
      ticket.createdAt ≤ s.now := by
    intro old
    obtain ⟨k, before, le⟩ := sound.arrived ticket old
    rw [sound.clock]
    exact le_trans le (instant_le.mpr before.le)
  rcases List.mem_append.mp member with started | waits
  · exact earlier (List.mem_append_left _ started)
  · have known := (waiting.trans (arrive_contents options s)).mem_iff.mp waits
    rcases List.mem_append.mp known with new | old
    · have passed := List.mem_takeWhile_imp new
      simpa using passed
    · exact earlier (List.mem_append_right _ old)

theorem arrivedBy_now (sound : ReplaySound options s)
    (waiting : queue.contents.Perm (options.arrive s).contents) :
    options.arrivedBy s.now = s.services.length + queue.size := by
  have whole := (waiting_conserved sound waiting).countP_eq fun ticket => decide (ticket.createdAt ≤ s.now)
  have arrived := waiting_arrived sound waiting
  have started : (s.services.map Service.ticket).countP (fun ticket => ticket.createdAt ≤ s.now) =
      s.services.length := by
    rw [List.countP_eq_length.mpr, List.length_map]
    intro ticket member
    simpa using arrived ticket (List.mem_append_left _ member)
  have waits : queue.contents.countP (fun ticket => ticket.createdAt ≤ s.now) = queue.size := by
    rw [List.countP_eq_length.mpr, QueueHeap.contents, List.length_map, Array.length_toList]
    intro ticket member
    simpa using arrived ticket (List.mem_append_right _ member)
  have upcoming : (s.arriving.dropWhile fun ticket => ticket.createdAt ≤ s.now).countP
      (fun ticket => ticket.createdAt ≤ s.now) = 0 := by
    rw [List.countP_eq_zero]
    intro ticket member
    simpa using dropWhile_upcoming sound.ahead ticket member
  rw [arrivedBy, ← whole, List.countP_append, List.countP_append, started, waits, upcoming,
    Nat.add_zero]

/-- Those started so far, up to an earlier tick or up to this one. -/
theorem started_before (sound : ReplaySound options s) :
    s.services.length = if s.ticks = 0 then 0 else options.startedBy (s.ticks - 1) := by
  by_cases first : s.ticks = 0
  · rw [if_pos first, List.length_eq_zero_iff, List.eq_nil_iff_forall_not_mem]
    intro service member
    obtain ⟨k, before, -⟩ := sound.grid service member
    omega
  · rw [if_neg first, ← sound.pace (s.ticks - 1) (by omega), Eq.comm, List.countP_eq_length]
    intro service member
    obtain ⟨k, before, started⟩ := sound.grid service member
    rw [started, decide_eq_true_eq, instant_le]
    omega

/-- Whoever is busy now started less than a hold ago. -/
theorem busy_now (sound : ReplaySound options s) (handling : 0 < options.handleMs) :
    s.agents.countP (·.isBusy s.now) + (if _ : options.holdTicks ≤ s.ticks then
      options.startedBy (s.ticks - options.holdTicks) else 0) = s.services.length := by
  have positive := holdTicks_pos handling
  have released : s.services.countP
      (fun service => service.startedAt + options.handleMs ≤ s.now) =
      if _ : options.holdTicks ≤ s.ticks then
        options.startedBy (s.ticks - options.holdTicks) else 0 := by
    split
    · next back =>
      rw [← sound.pace _ (show s.ticks - options.holdTicks < s.ticks by omega)]
      refine List.countP_congr fun service member => ?_
      obtain ⟨k, before, started⟩ := sound.grid service member
      rw [started, sound.clock, decide_eq_true_eq, decide_eq_true_eq, held_until handling,
        instant_le]
      omega
    · next early =>
      rw [List.countP_eq_zero]
      intro service member
      obtain ⟨k, before, started⟩ := sound.grid service member
      rw [started, sound.clock, decide_eq_true_eq, held_until handling]
      omega
  rw [← released, sound.busy s.now (le_refl _),
    List.length_eq_countP_add_countP (p := fun service : Service =>
      decide (s.now < service.startedAt + options.handleMs))]
  simp

/-- The round starts as many as the recurrence says. -/
theorem round_pace {agents : List Agent} {heap : QueueHeap} (sound : ReplaySound options s)
    (handling : 0 < options.handleMs)
    (waiting : queue.contents.Perm (options.arrive s).contents)
    (round : Round options s.now s.agents queue agents heap services) :
    s.services.length + services.length = options.startedBy s.ticks := by
  have positive := holdTicks_pos handling
  have busy := busy_now sound handling
  have arrived := arrivedBy_now sound waiting
  have free := List.length_eq_countP_add_countP (p := fun agent : Agent => agent.isBusy s.now)
    (l := s.agents)
  have agents_count : s.agents.length = options.agents := by
    rw [← List.length_map (f := Agent.number), sound.numbers, List.length_range]
  have step := Capacity.started.eq_1 (fun k => options.arrivedBy (options.instant k))
    options.agents options.holdTicks s.ticks
  rw [sound.clock] at arrived
  rw [round.count, startedBy, step, arrived]
  simp only [Bool.not_eq_true, Bool.decide_eq_false] at free
  by_cases back : options.holdTicks ≤ s.ticks
  · rw [dif_pos back, startedBy] at busy
    rw [dif_pos ⟨positive, back⟩]
    omega
  · rw [dif_neg back] at busy
    rw [dif_neg (by omega)]
    omega

/-- The first of the queue of the moment are started, as many as there are free agents for. -/
def StartsBest (options : ReplayOptions) (s t : ReplayState) : Prop :=
  ∃ started, t.services = s.services ++ started ∧ (∀ service ∈ started, service.startedAt = s.now) ∧
    started.length = min (s.agents.countP fun agent => !agent.isBusy s.now)
      (options.arrive s).contents.length ∧
    started.map (fun service => queueKey service.ticket.toQueueFeatures s.now options.weights) =
      ((orderQueue SimTicket.toQueueFeatures (options.arrive s).contents s.now options.weights).map
        fun ticket => queueKey ticket.toQueueFeatures s.now options.weights).take started.length

theorem round_best {agents : List Agent} {heap : QueueHeap}
    (waiting : queue.contents.Perm (options.arrive s).contents)
    (round : Round options s.now s.agents queue agents heap services)
    (added : t.services = s.services ++ services) : StartsBest options s t := by
  let key : SimTicket → QueueKey := fun ticket => queueKey ticket.toQueueFeatures s.now options.weights
  have sizes : queue.size = (options.arrive s).contents.length := by
    rw [← waiting.length_eq, QueueHeap.contents, List.length_map, Array.length_toList]
  refine ⟨services, added, round.started, by rw [round.count, sizes], ?_⟩
  -- what is started, and behind it what still waits, in order
  have whole : (services.map Service.ticket).map key ++
      (orderQueue SimTicket.toQueueFeatures heap.contents s.now options.weights).map key =
      (orderQueue SimTicket.toQueueFeatures (options.arrive s).contents s.now
        options.weights).map key := by
    refine keys_unique ?_ ?_ ?_
    · rw [← List.map_append]
      refine List.Perm.map key (List.Perm.trans ?_ (orderQueue_perm _ _ _ _).symm)
      refine List.Perm.trans (List.Perm.append_left _ (orderQueue_perm _ _ _ _)) ?_
      exact round.conserved.trans waiting
    · rw [List.map_append, List.pairwise_append]
      refine ⟨?_, ?_, ?_⟩
      · rw [List.map_map, List.map_map]
        exact round.best
      · rw [List.map_map]
        exact orderQueue_sorted _ _ _ _
      · intro a member b member'
        simp only [List.map_map, List.mem_map, Function.comp_apply] at member member'
        obtain ⟨service, started, rfl⟩ := member
        obtain ⟨ticket, waits, rfl⟩ := member'
        exact round.ahead service started ticket ((orderQueue_perm _ _ _ _).mem_iff.mp waits)
    · rw [List.map_map]
      exact orderQueue_sorted _ _ _ _
  rw [← whole, List.map_map, List.take_left' (by simp)]
  rfl

/-- One pass keeps everything, and starts the best of those who wait. -/
theorem tick_sound (sound : ReplaySound options s) (handling : 0 < options.handleMs)
    (in_time : s.now ≤ options.horizon) :
    ∃ t, options.tick s = .ok t ∧ ReplaySound options t ∧ StartsBest options s t := by
  obtain ⟨queue, agents, services, t, ticked, waiting, round, arriving, agents_eq, added, ticks,
    clock⟩ := tick_round sound
  subst agents_eq
  have later : s.now ≤ t.now := by
    rw [clock]
    exact (lt_add_of_pos_right _ options.ticking).le
  have whole := waiting_conserved sound waiting
  have arrived := waiting_arrived sound waiting
  have moved : (t.services.map Service.ticket ++ t.heap.contents).Perm
      (s.services.map Service.ticket ++ queue.contents) := by
    rw [added, List.map_append, List.append_assoc]
    exact round.conserved.append_left _
  refine ⟨t, ticked, ?_, round_best waiting round added⟩
  constructor
  case clock => rw [clock, ticks, instant_succ, sound.clock]
  case conserved =>
    rw [arriving, ← List.append_assoc]
    rw [← List.append_assoc] at whole
    exact (moved.append_right _).trans whole
  case ahead =>
    rw [arriving]
    exact sound.ahead.sublist (List.dropWhile_sublist _)
  case upcoming =>
    intro ticket member k before
    rw [arriving] at member
    have passed := dropWhile_upcoming sound.ahead ticket member
    rw [sound.clock] at passed
    refine lt_of_le_of_lt (instant_le.mpr ?_) passed
    omega
  case arrived =>
    intro ticket member
    refine ⟨s.ticks, by omega, ?_⟩
    rw [← sound.clock]
    exact arrived ticket (moved.mem_iff.mp member)
  case kept => exact round.kept.mono later
  case numbers => rw [round.numbers, sound.numbers]
  case known =>
    intro service member
    rw [added] at member
    rcases List.mem_append.mp member with old | new
    · exact sound.known service old
    · have number : service.agent ∈ s.agents.map Agent.number :=
        round.takers.subset (List.mem_map_of_mem new)
      rw [sound.numbers] at number
      exact List.mem_range.mp number
  case covered =>
    intro service member agent known same
    rw [added] at member
    rcases List.mem_append.mp member with old | new
    · rcases round.after agent known with ⟨kept, -⟩ | ⟨⟨taker, before, number, free⟩, until_⟩
      · exact sound.covered service old agent kept same
      · -- the agent was free again, so the older ticket is done with
        obtain ⟨k, earlier, started⟩ := sound.grid service old
        obtain ⟨busyUntil, known_until, held⟩ := sound.covered service old taker before
          (number.trans same)
        refine ⟨_, until_, ?_⟩
        have done : busyUntil ≤ s.now := by
          simpa [Agent.isBusy, known_until] using free
        linarith
    · rcases round.after agent known with ⟨-, others⟩ | ⟨-, until_⟩
      · exact absurd same.symm (others service new)
      · exact ⟨_, until_, by rw [round.started service new]⟩
  case apart =>
    rw [added, List.pairwise_append]
    refine ⟨sound.apart, ?_, ?_⟩
    · have distinct : (services.map Service.agent).Nodup := by
        refine round.takers.nodup ?_
        rw [sound.numbers]
        exact List.nodup_range
      exact (List.pairwise_map.mp distinct).imp fun apart same => absurd same apart
    · intro old before new after same
      obtain ⟨taker, known, number, free⟩ := round.taken new after
      obtain ⟨busyUntil, known_until, held⟩ :=
        sound.covered old before taker known (number.trans same.symm)
      have done : busyUntil ≤ s.now := by
        simpa [Agent.isBusy, known_until] using free
      rw [round.started new after]
      exact le_trans held done
  case timely =>
    intro service member
    rw [added] at member
    rcases List.mem_append.mp member with old | new
    · exact sound.timely service old
    · rw [round.started service new]
      refine arrived _ (List.mem_append_right _ (round.conserved.mem_iff.mp ?_))
      exact List.mem_append_left _ (List.mem_map_of_mem new)
  case grid =>
    intro service member
    rw [added] at member
    rcases List.mem_append.mp member with old | new
    · obtain ⟨k, before, started⟩ := sound.grid service old
      exact ⟨k, by omega, started⟩
    · exact ⟨s.ticks, by omega, by rw [round.started service new, sound.clock]⟩
  case busy =>
    intro instant after
    have since := le_trans later after
    rw [round.busy instant since, sound.busy instant since, added, List.countP_append]
    congr 1
    split
    · next held =>
      rw [Eq.comm, List.countP_eq_length]
      intro service new
      rw [round.started service new, decide_eq_true_eq]
      exact held
    · next free =>
      rw [Eq.comm, List.countP_eq_zero]
      intro service new
      rw [round.started service new, decide_eq_true_eq]
      exact free
  case pace =>
    intro k before
    rw [added, List.countP_append]
    rcases Nat.lt_or_ge k s.ticks with earlier | now
    · rw [sound.pace k earlier, List.countP_eq_zero.mpr, Nat.add_zero]
      intro service new
      rw [round.started service new, sound.clock, decide_eq_true_eq, instant_le]
      omega
    · have this_tick : k = s.ticks := by omega
      subst this_tick
      rw [← round_pace sound handling waiting round, List.countP_eq_length.mpr,
        List.countP_eq_length.mpr]
      · intro service new
        rw [round.started service new, sound.clock, decide_eq_true_eq]
      · intro service old
        obtain ⟨k, earlier, started⟩ := sound.grid service old
        rw [started, decide_eq_true_eq, instant_le]
        exact earlier.le
  case inTime =>
    intro k before
    rcases Nat.lt_or_ge k s.ticks with earlier | now
    · exact sound.inTime k earlier
    · have this_tick : k = s.ticks := by omega
      rw [this_tick, ← sound.clock]
      exact in_time

end Tick

/-! ### The whole replay -/

section Replay

variable {options : ReplayOptions}

theorem next_sound (handling : 0 < options.handleMs) {s t : ReplayState} {u : Unit}
    (step : options.next s u = some t) (sound : ReplaySound options s) :
    ReplaySound options t ∧ StartsBest options s t := by
  rw [ReplayOptions.next] at step
  split at step
  · next going =>
    simp only [continues, Bool.and_eq_true, decide_eq_true_eq] at going
    obtain ⟨t', ticked, sound', best⟩ := tick_sound sound handling going.2
    rw [ticked] at step
    cases step
    exact ⟨sound', best⟩
  · cases step

/-- The loop ends, and what it passed through is a run. -/
theorem loop_run (handling : 0 < options.handleMs) (s : ReplayState)
    (sound : ReplaySound options s) :
    ∃ t ts, options.loop s = .ok t ∧ Run options.next s ts t ∧ options.continues t = false ∧
      ReplaySound options t := by
  induction left : options.ticksLeft s using Nat.strong_induction_on generalizing s with
  | _ n ih =>
    by_cases going : options.continues s = true
    · have in_time : s.now ≤ options.horizon := by
        simp only [continues, Bool.and_eq_true, decide_eq_true_eq] at going
        exact going.2
      obtain ⟨t, ticked, sound', -⟩ := tick_sound sound handling in_time
      have fewer := options.ticksLeft_decreases going ticked
      obtain ⟨u, ts, looped, run, ended, sound_u⟩ := ih _ (by omega) t sound' rfl
      have step : options.next s () = some t := by
        rw [ReplayOptions.next, if_pos going, ticked]
        rfl
      refine ⟨u, _, ?_, .step step run, ended, sound_u⟩
      rw [loop, dif_pos going]
      split
      · next fault failed =>
        rw [ticked] at failed
        cases failed
      · next t' ticked' =>
        rw [ticked] at ticked'
        cases ticked'
        exact looped
    · refine ⟨s, [], ?_, .done s, eq_false_of_ne_true going, sound⟩
      rw [loop, dif_neg going]

/-- The index of the last tick up to the horizon. -/
def lastIndex (options : ReplayOptions) : Nat :=
  ⌊(options.horizon - options.startAt) / options.tickMs⌋.toNat

/-- However far one looks back from the last tick, in steps of the handling time rounded up to
whole ticks: what had not arrived by then is no more than the agents take in those steps. -/
def HorizonSuffices (options : ReplayOptions) : Prop :=
  ∀ j : Nat, options.arrivals.length ≤
    options.arrivedBy (options.instant (lastIndex options) -
      j * (options.holdTicks * options.tickMs)) + j * options.agents

theorem createdAt_le_last {tickets : List SimTicket}
    (sorted : tickets.Pairwise fun a b => a.createdAt ≤ b.createdAt) (some_ticket : tickets ≠ [])
    {ticket : SimTicket} (member : ticket ∈ tickets) :
    ticket.createdAt ≤ (tickets.getLast some_ticket).createdAt := by
  have split := List.dropLast_append_getLast some_ticket
  rw [← split] at member sorted
  rcases List.mem_append.mp member with before | own
  · exact (List.pairwise_append.mp sorted).2.2 ticket before _ List.mem_cons_self
  · rw [List.mem_singleton.mp own]

section Ends

variable (handling : 0 < options.handleMs)
  (sorted : options.arrivals.Pairwise fun a b => a.createdAt ≤ b.createdAt)
  (some_arrival : options.arrivals ≠ [])
include handling sorted some_arrival

/-- The first arrival is not before the first tick, and every one is a tick before the horizon. -/
theorem arrivals_between : ∀ ticket ∈ options.arrivals,
    options.startAt ≤ ticket.createdAt ∧ ticket.createdAt + options.tickMs ≤ options.horizon := by
  intro ticket member
  constructor
  · cases arrivals : options.arrivals with
    | nil => exact absurd arrivals some_arrival
    | cons first others =>
      have begun : options.startAt ≤ first.createdAt := by
        have floor := Int.floor_le (first.createdAt / options.tickMs)
        simp only [startAt, arrivals, List.head?_cons]
        exact (le_div_iff₀ options.ticking).mp floor
      rw [arrivals] at member sorted
      rcases List.mem_cons.mp member with rfl | later
      · exact begun
      · exact le_trans begun ((List.pairwise_cons.mp sorted).1 ticket later)
  · have last := createdAt_le_last sorted some_arrival member
    have held : 0 ≤ options.handleMs * options.arrivals.length :=
      mul_nonneg handling.le (Nat.cast_nonneg _)
    simp only [horizon, List.getLast?_eq_getLast_of_ne_nil some_arrival]
    linarith

theorem le_lastIndex {k : Nat} : options.instant k ≤ options.horizon ↔ k ≤ lastIndex options := by
  obtain ⟨first, member⟩ := List.exists_mem_of_ne_nil _ some_arrival
  have between := arrivals_between handling sorted some_arrival first member
  have positive := options.ticking
  have nonneg : 0 ≤ ⌊(options.horizon - options.startAt) / options.tickMs⌋ :=
    Int.floor_nonneg.mpr (div_nonneg (by linarith) positive.le)
  have reached : options.instant k ≤ options.horizon ↔
      ((k : Int) : ℚ) ≤ (options.horizon - options.startAt) / options.tickMs := by
    rw [le_div_iff₀ positive, instant]
    push_cast
    constructor <;> intro le <;> linarith
  rw [reached, ← Int.le_floor, lastIndex]
  omega

/-- When the loop ends, all that came has started that the recurrence has start by the last tick. -/
theorem ended_pace {s : ReplayState} (sound : ReplaySound options s)
    (ended : options.continues s = false) :
    s.arriving = [] ∧ (s.heap.contents = [] ↔
      options.arrivals.length ≤ options.startedBy (lastIndex options)) := by
  have lengths := sound.conserved.length_eq
  simp only [List.length_append, List.length_map] at lengths
  have empty_iff : s.heap.contents = [] ↔ s.heap.contents.length = 0 :=
    List.length_eq_zero_iff.symm
  have growing : Monotone fun k => options.arrivedBy (options.instant k) := by
    intro k m le
    refine List.countP_mono_left fun ticket _ arrived => ?_
    rw [decide_eq_true_eq] at arrived ⊢
    exact le_trans arrived (instant_le.mpr le)
  have pace := started_before sound
  by_cases late : options.horizon < s.now
  · -- the last tick that was passed is the last one up to the horizon
    have past : lastIndex options < s.ticks := by
      rw [sound.clock, ← not_le, le_lastIndex handling sorted some_arrival] at late
      omega
    have last : s.ticks - 1 = lastIndex options := by
      have passed := (le_lastIndex handling sorted some_arrival).mp
        (sound.inTime (s.ticks - 1) (by omega))
      omega
    have arriving : s.arriving = [] := by
      refine List.eq_nil_iff_forall_not_mem.mpr fun ticket member => ?_
      have known : ticket ∈ options.arrivals := sound.conserved.mem_iff.mp
        (List.mem_append_right _ (List.mem_append_right _ member))
      have before := (arrivals_between handling sorted some_arrival ticket known).2
      have after := sound.upcoming ticket member (s.ticks - 1) (by omega)
      have step : options.instant (s.ticks - 1 + 1) = options.instant (s.ticks - 1) + options.tickMs :=
        instant_succ _
      rw [show s.ticks - 1 + 1 = s.ticks by omega, ← sound.clock] at step
      linarith
    refine ⟨arriving, ?_⟩
    rw [if_neg (by omega), last] at pace
    rw [arriving, List.length_nil] at lengths
    rw [empty_iff]
    omega
  · have idle : s.arriving = [] ∧ s.heap.size = 0 := by
      simpa [continues, not_lt.mp late] using ended
    have none_waits : s.heap.contents.length = 0 := by
      rw [QueueHeap.contents, List.length_map, Array.length_toList]
      exact idle.2
    refine ⟨idle.1, ?_⟩
    rw [empty_iff]
    refine ⟨fun _ => ?_, fun _ => none_waits⟩
    have some_length : 0 < options.arrivals.length := List.length_pos_iff.mpr some_arrival
    rw [idle.1, List.length_nil] at lengths
    have ticked : s.ticks ≠ 0 := by
      intro first
      rw [if_pos first] at pace
      omega
    rw [if_neg ticked] at pace
    have passed := (le_lastIndex handling sorted some_arrival).mp
      (sound.inTime (s.ticks - 1) (by omega))
    have steady : options.startedBy (s.ticks - 1) ≤ options.startedBy (lastIndex options) :=
      Capacity.started_mono growing passed
    omega

theorem suffices_iff : HorizonSuffices options ↔
    options.arrivals.length ≤ options.startedBy (lastIndex options) := by
  rw [startedBy, Capacity.le_started_iff (holdTicks_pos handling), HorizonSuffices]
  refine forall_congr' fun j => ?_
  suffices same : options.arrivedBy (options.instant (lastIndex options) -
      j * (options.holdTicks * options.tickMs)) =
      Capacity.arrivedBefore (fun k => options.arrivedBy (options.instant k)) options.holdTicks
        (lastIndex options) j by
    rw [same]
  rw [Capacity.arrivedBefore]
  split
  · next back =>
    congr 1
    simp only [instant]
    push_cast [Nat.cast_sub back]
    ring
  · next early =>
    rw [arrivedBy, List.countP_eq_zero]
    intro ticket member
    have begun := (arrivals_between handling sorted some_arrival ticket member).1
    have before : ((lastIndex options : Nat) : ℚ) + 1 ≤ j * options.holdTicks := by
      exact_mod_cast Nat.lt_of_not_le early
    have scaled := mul_le_mul_of_nonneg_right before options.ticking.le
    have positive := options.ticking
    rw [decide_eq_true_eq, not_le, instant]
    linarith

end Ends

theorem startsBest_of_run (handling : 0 < options.handleMs) {s t : ReplayState}
    {ts : List (Transition ReplayState Unit)} (run : Run options.next s ts t)
    (sound : ReplaySound options s) : ∀ tr ∈ ts, StartsBest options tr.source tr.target := by
  have preserved : ∀ s u t, options.next s u = some t → ReplaySound options s →
      ReplaySound options t := fun _ _ _ step sound => (next_sound handling step sound).1
  have kept := (run.invariant preserved sound).2
  intro tr member
  exact (next_sound handling (run.steps tr member) (kept tr member).1).2

theorem no_arrivals (none_arrives : options.arrivals = []) {s : ReplayState}
    (sound : ReplaySound options s) : s.arriving = [] ∧ s.heap.contents = [] := by
  have perm := sound.conserved
  rw [none_arrives] at perm
  have nothing := perm.eq_nil
  simp only [List.append_eq_nil_iff] at nothing
  exact ⟨nothing.2.2, nothing.2.1⟩

theorem start_result (options : ReplayOptions) : options.start.result = .nothing := by
  simp [ReplayState.result, start, ReplayResult.nothing, QueueHeap.contents, percentile]

/-- Handling times of whole ticks leave nothing unserved. -/
theorem horizonSuffices_of_whole_ticks (some_agent : 1 ≤ options.agents)
    (handling : 0 < options.handleMs)
    (sorted : options.arrivals.Pairwise fun a b => a.createdAt ≤ b.createdAt) (hold : Nat)
    (whole : options.handleMs = hold * options.tickMs) : HorizonSuffices options := by
  intro j
  by_cases enough : options.arrivals.length ≤ j * options.agents
  · omega
  · have some_arrival : options.arrivals ≠ [] := by
      intro none_arrives
      rw [none_arrives, List.length_nil] at enough
      omega
    have few : j < options.arrivals.length := by
      have own : j * 1 ≤ j * options.agents := Nat.mul_le_mul_left j some_agent
      omega
    have ticks : options.holdTicks = hold := by
      rw [holdTicks, whole, mul_div_assoc, div_self (ne_of_gt options.ticking), mul_one,
        Int.ceil_natCast, Int.toNat_natCast]
    -- the tick after the last one up to the horizon is beyond it
    have beyond : options.horizon < options.instant (lastIndex options + 1) := by
      rw [← not_le, le_lastIndex handling sorted some_arrival]
      omega
    have everyone : options.arrivedBy (options.instant (lastIndex options) -
        j * (options.holdTicks * options.tickMs)) = options.arrivals.length := by
      rw [arrivedBy, List.countP_eq_length]
      intro ticket member
      have last := createdAt_le_last sorted some_arrival member
      have held : (j : ℚ) * options.handleMs ≤ options.arrivals.length * options.handleMs :=
        mul_le_mul_of_nonneg_right (by exact_mod_cast few.le) handling.le
      rw [instant_succ] at beyond
      simp only [horizon, List.getLast?_eq_getLast_of_ne_nil some_arrival] at beyond
      rw [decide_eq_true_eq, ticks, ← whole]
      linarith
    omega

end Replay

/-- Three tickets at once for one agent, who takes a millisecond for each but is looked at once a
second. -/
def hurried : ReplayOptions where
  arrivals := [plainTicket "a" .one 0 100, plainTicket "b" .one 0 100, plainTicket "c" .one 0 100]
  weights := .published
  agents := 1
  handleMs := 1
  tickMs := 1000
  snapshot := none
  ticking := by norm_num

end LedgerDesk.Queue
