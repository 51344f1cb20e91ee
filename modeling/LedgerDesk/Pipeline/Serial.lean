import LedgerDesk.Pipeline.RunQueue

/-!
# Works of one run, one after the other

Every step keeps the invariant of the queue. A work is called once those of its run before it have
ended, in whatever way, and when nothing is left to do no work waits for anything else.
-/
namespace LedgerDesk.Pipeline.Process

open Foundation

variable {ρ ε α : Type} [DecidableEq ρ] {s t : Process ρ ε α} {debts : List Nat}
  {outcome : Outcome (Reason ε) (Option α)}

/-! ### The work before -/

theorem last_eq_some {works : List (RunWork ρ)} {runId : ρ} {y : RunWork ρ}
    (found : last works runId = some y) :
    ∃ v, works[v]? = some y ∧ y.runId = runId ∧
      ∀ (u : Nat) (z : RunWork ρ), works[u]? = some z → z.runId = runId → u ≤ v := by
  induction works using List.reverseRecOn with
  | nil => cases found
  | append_singleton works x ih =>
    rw [last_concat] at found
    split at found
    next same =>
      cases found
      refine ⟨works.length, List.getElem?_concat_length, same, fun u z there _ => ?_⟩
      rcases getElem?_concat_cases there with old | ⟨rfl, -⟩
      · exact Nat.le_of_lt (List.getElem?_eq_some_iff.mp old).1
      · exact Nat.le_refl _
    next other =>
      obtain ⟨v, here, same, latest⟩ := ih found
      have known := (List.getElem?_eq_some_iff.mp here).1
      refine ⟨v, (List.getElem?_append_left known).trans here, same, fun u z there own => ?_⟩
      rcases getElem?_concat_cases there with old | ⟨-, rfl⟩
      · exact latest u z old own
      · exact absurd own other

theorem last_eq_none {works : List (RunWork ρ)} {runId : ρ} (missing : last works runId = none)
    {u : Nat} {z : RunWork ρ} (there : works[u]? = some z) : z.runId ≠ runId := by
  intro own
  rw [last, List.getLast?_eq_none_iff, List.filter_eq_nil_iff] at missing
  exact missing z (List.mem_of_getElem? there) (decide_eq_true own)

namespace Invariant

variable (inv : s.Invariant debts) {v w : Nat} {x y : RunWork ρ}

include inv

/-- A work waits for the tail of the one before it, or for nothing. -/
theorem previous_cases (here : s.works[w]? = some x) :
    (∃ v y, s.works[v]? = some y ∧ y.runId = x.runId ∧ v < w ∧ x.previous = y.tail ∧
      ∀ (u : Nat) (z : RunWork ρ), s.works[u]? = some z → z.runId = x.runId → u < w → u ≤ v) ∨
    s.promises.outcome? x.previous = some (.fulfilled none) ∧
      ∀ (u : Nat) (z : RunWork ρ), s.works[u]? = some z → z.runId = x.runId → ¬u < w := by
  have chained := (inv.works w x here).chained
  have within : ∀ {u : Nat} {z : RunWork ρ}, s.works[u]? = some z → u < w →
      (s.works.take w)[u]? = some z := fun there before => by
    rwa [List.getElem?_take_of_lt before]
  cases found : last (s.works.take w) x.runId with
  | none =>
    rw [found] at chained
    exact .inr ⟨chained, fun u z there own before => last_eq_none found (within there before) own⟩
  | some y =>
    rw [found] at chained
    obtain ⟨v, there, own, latest⟩ := last_eq_some found
    have before : v < w := by
      have bound := (List.getElem?_eq_some_iff.mp there).1
      rw [List.length_take] at bound
      omega
    rw [List.getElem?_take_of_lt before] at there
    exact .inl ⟨v, y, there, own, before, chained,
      fun u z elsewhere same earlier => latest u z (within elsewhere earlier) same⟩

/-- What a work waits for only ever resolves. -/
theorem resolves (here : s.works[w]? = some x)
    (settled : s.promises.outcome? x.previous = some outcome) : outcome = .fulfilled none := by
  rcases inv.previous_cases here with ⟨v, y, there, -, -, waits, -⟩ | ⟨plain, -⟩
  · rw [waits] at settled
    exact ((inv.works v y there).tail outcome settled).1
  · exact Option.some.inj (settled.symm.trans plain)

theorem previous_ne_mine (here : s.works[w]? = some x) (there : s.works[v]? = some y)
    (pending : s.promises.Pending y.mine) : x.previous ≠ y.mine := by
  intro same
  rcases inv.previous_cases here with ⟨u, z, elsewhere, -, -, waits, -⟩ | ⟨plain, -⟩
  · exact inv.mine_ne_tail there elsewhere (same.symm.trans waits)
  · rw [same, Promises.outcome?_of_pending pending] at plain
    cases plain

/-- Before a work is called, those of its run before it have ended. -/
theorem ended_before (here : s.works[w]? = some x) (called : s.progress w ≠ .waiting)
    (there : s.works[v]? = some y) (own : y.runId = x.runId) (before : v < w) : s.Ended v := by
  induction w using Nat.strongRecOn generalizing x with
  | _ w ih =>
    obtain ⟨o, settled⟩ := (inv.works w x here).after called
    rcases inv.previous_cases here with ⟨u, z, elsewhere, same, earlier, waits, latest⟩ | ⟨-, first⟩
    · -- The one before it has ended, so it had been called, and those before it had ended.
      rw [waits] at settled
      obtain ⟨-, e, came⟩ := (inv.works u z elsewhere).tail o settled
      have ended : s.EndedWith u e := (inv.works u z elsewhere).mine e came
      rcases Nat.eq_or_lt_of_le (latest v y there own before) with rfl | behind
      · exact ⟨e, ended⟩
      · exact ih u earlier elsewhere ended.progress_ne (own.trans same.symm) behind
    · exact absurd before (first v y there own)

end Invariant

/-! ### Every step keeps the invariant -/

theorem Invariant.settle_mine {w : Nat} {x : RunWork ρ} (inv : s.Invariant (x.mine :: debts))
    (here : s.works[w]? = some x)
    (ended : { s with promises := s.promises.settle x.mine outcome }.EndedWith w outcome) :
    { s with promises := s.promises.settle x.mine outcome }.Invariant debts := by
  have pending : s.promises.Pending x.mine := inv.linear.pending_of_other
  refine inv.settle (fun v y there same => ?_) (fun v y there same => ?_) fun v y there same => ?_
  · exact absurd same (inv.previous_ne_mine there here pending)
  · cases inv.eq_of_mine there here same
    exact ended
  · exact absurd same.symm (inv.mine_ne_tail here there)

theorem Invariant.settle_tail {w : Nat} {x : RunWork ρ} (inv : s.Invariant (x.tail :: debts))
    (here : s.works[w]? = some x) (settled : s.promises.outcome? x.mine = some outcome) :
    { s with promises := s.promises.settle x.tail (.fulfilled none) }.Invariant debts := by
  refine inv.settle (fun v y there same => ⟨none, rfl⟩) (fun v y there same => ?_)
    fun v y there same => ?_
  · exact absurd same (inv.mine_ne_tail there here)
  · cases inv.eq_of_tail there here same
    cases there.symm.trans here
    exact ⟨rfl, outcome, settled⟩

/-- The code outside settles one of its promises, which no work stands for. -/
theorem Invariant.settle_own {p : Nat} (inv : s.Invariant []) (known : p ∈ s.own) :
    { s with promises := s.promises.settle p outcome, own := s.own.erase p }.Invariant [] := by
  have moved : { s with own := s.own.erase p }.Invariant [p] := by
    refine ⟨inv.linear.of_perm ?_, fun r member => (inv.reactions r member).same rfl rfl,
      fun job member => (inv.jobs job member).mono rfl rfl (fun _ _ => id) (Nat.le_refl _),
      inv.stack, fun w x here => ?_, inv.increasing,
      fun q member => inv.outside q (List.mem_of_mem_erase member), inv.queues, inv.started,
      inv.known⟩
    · exact ((List.perm_cons_erase known).append_left _).trans List.perm_middle
    · obtain ⟨places, mine, tail, after, chained⟩ := inv.works w x here
      exact ⟨places, mine, tail, after, chained⟩
  have pending : s.promises.Pending p := moved.linear.pending_of_other
  refine moved.settle (fun w x here same => ?_) (fun w x here same => ?_) fun w x here same => ?_
  · rcases inv.previous_cases here with ⟨v, y, there, -, -, waits, -⟩ | ⟨plain, -⟩
    · exact absurd (same.symm.trans waits) (inv.outside p known v y there).2
    · rw [same, Promises.outcome?_of_pending pending] at plain
      cases plain
  · exact absurd same.symm (inv.outside p known w x here).1
  · exact absurd same.symm (inv.outside p known w x here).2

theorem Invariant.perform {job : Job Handler (Reason ε) (Option α)}
    (inv : s.Invariant (job.derived :: debts)) (free : s.stack = none) (does : s.Does job) :
    (s.perform job).Invariant debts := by
  cases does with
  | work here waiting settled => exact inv.call free here waiting settled
  | @adopt w x p here returned other known =>
    refine inv.subscribe (r := ⟨p, none, none, x.mine⟩) known (.adopts here returned other) ?_
    intro o settled
    have adopted : s.Does (.react none o x.mine) := .adopted here returned other settled
    cases o <;> exact adopted
  | @adopted w x p o here returned other settled =>
    refine inv.settle_mine here ?_
    rw [EndedWith]
    simp only [returned]
    exact Promises.outcome?_settle_of_some settled
  | tail here settled => exact inv.settle_tail here settled

/-- What a new work is to wait for is there. -/
theorem Invariant.previous (inv : s.Invariant debts) (runId : ρ) :
    { s with promises := (s.previous runId).1 }.Invariant debts ∧
      (s.previous runId).2 < (s.previous runId).1.size ∧
      Follows (s.previous runId).1 (s.previous runId).2 (last s.works runId) := by
  have queue := inv.queues runId
  rw [Process.previous]
  cases found : last s.works runId with
  | none =>
    rw [found] at queue
    rw [queue]
    refine ⟨?_, by simp, Promises.outcome?_create_self _⟩
    exact inv.create _ (inv.linear.create_settled _) fun q member => .inl member
  | some y =>
    rw [found] at queue
    rw [queue]
    obtain ⟨v, there, -⟩ := last_eq_some found
    exact ⟨inv, (inv.works v y there).places.2.2, rfl⟩

theorem Invariant.onRun (inv : s.Invariant []) (runId : ρ) : (s.onRun runId).Invariant [] := by
  obtain ⟨made, known, chained⟩ := inv.previous runId
  rw [Process.onRun]
  generalize s.previous runId = found at made known chained ⊢
  obtain ⟨promises, previous⟩ := found
  have enqueued := made.enqueue known chained
  let x : RunWork ρ := ⟨runId, previous, promises.size, promises.size + 1⟩
  have here : (s.works ++ [x])[s.works.length]? = some x := List.getElem?_concat_length
  have fresh : s.progress s.works.length = .waiting := by
    by_contra moved
    exact Nat.lt_irrefl _ (inv.known _ ((inv.started _).mpr moved))
  have first := enqueued.subscribe (r := ⟨previous, some (.work s.works.length), none, x.mine⟩)
    (by simp at known ⊢; omega) (.work (x := x) here fresh) fun o settled => by
      cases enqueued.resolves here settled
      exact .work (x := x) here fresh settled
  have second := first.subscribe (r := ⟨x.mine, some .settled, some .settled, x.tail⟩)
    (by simp [x]) (.tail (x := x) here) fun o settled => by
      have behind := Does.tail (x := x) here settled
      cases o <;> exact behind
  have same : (promises.andThen previous (some (.work s.works.length)) none).size =
      promises.size + 1 := by simp [Promises.andThen]
  simp only [Promises.andThen] at same ⊢
  rw [Promises.create_subscribe none (by simp at known ⊢; omega), same]
  exact second

theorem step_invariant (inv : s.Invariant []) {event : ProcessEvent ρ ε α}
    (stepped : s.step event = some t) : t.Invariant [] := by
  cases event with
  | onRun runId =>
    cases stepped
    exact inv.onRun runId
  | create =>
    cases stepped
    have moved : (s.promises.size :: (s.stack.toList.map Prod.snd ++ s.own)).Perm
        (s.stack.toList.map Prod.snd ++ s.promises.size :: s.own) := List.perm_middle.symm
    refine inv.create none (inv.linear.create.of_perm moved) fun q member => ?_
    rcases List.mem_cons.mp member with rfl | old
    · exact .inr rfl
    · exact .inl old
  | settle p outcome =>
    rw [step] at stepped
    split at stepped
    · cases stepped
      exact inv.settle_own ‹_›
    · cases stepped
  | job =>
    rw [step] at stepped
    split at stepped
    next job rest free next =>
      cases stepped
      have does := inv.jobs job (next ▸ List.mem_cons_self)
      exact (inv.pop next).perform free
        (does.mono rfl rfl (fun _ _ => id) (Nat.le_refl _))
    next => cases stepped
  | returns p =>
    rw [step] at stepped
    split at stepped
    next w d called =>
      obtain ⟨x, here, rfl, -⟩ := inv.stack w d called
      have left : (s.leave w (.returned p)).Invariant [x.mine] := inv.leave called (by simp)
      have returned : (s.leave w (.returned p)).progress w = .returned p := Function.update_self ..
      split at stepped
      · cases stepped
      · split at stepped
        next same =>
          -- It returned the promise that waits for it.
          cases stepped
          subst same
          refine left.settle_mine here ?_
          rw [EndedWith]
          simp only [returned]
          exact Promises.outcome?_settle_self left.linear.pending_of_other
        next known other =>
          cases stepped
          have adopts : (s.leave w (.returned p)).Does (.adopt p x.mine) :=
            .adopt here returned other (Nat.not_le.mp known)
          exact Invariant.push left adopts
    next => cases stepped
  | throws reason =>
    rw [step] at stepped
    split at stepped
    next w d called =>
      obtain ⟨x, here, rfl, -⟩ := inv.stack w d called
      have left : (s.leave w (.threw reason)).Invariant [x.mine] := inv.leave called (by simp)
      cases stepped
      refine left.settle_mine here ?_
      have threw : (s.leave w (.threw reason)).progress w = .threw reason :=
        Function.update_self ..
      rw [EndedWith]
      simp only [threw]
    next => cases stepped

theorem initial_invariant : (initial : Process ρ ε α).Invariant [] where
  linear := Promises.linear_empty
  reactions r member := by cases member
  jobs job member := by cases member
  stack w d called := by cases called
  works w x here := by cases here
  increasing v w x y here := by cases here
  outside p member := by cases member
  queues runId := rfl
  started w := by simp [initial]
  known w member := by cases member

/-! ### The order in which works are called -/

/-- What a step does to the works, and to the list of those that have been called. -/
theorem step_works (inv : s.Invariant []) {event : ProcessEvent ρ ε α}
    (stepped : s.step event = some t) :
    (∃ xs, t.works = s.works ++ xs) ∧
      (t.started = s.started ∨ ∃ w, s.progress w = .waiting ∧ t.started = s.started ++ [w] ∧
        w < s.works.length) := by
  have same : ∃ xs, s.works = s.works ++ xs := ⟨[], (List.append_nil _).symm⟩
  cases event with
  | onRun runId =>
    cases stepped
    exact ⟨⟨_, rfl⟩, .inl rfl⟩
  | create =>
    cases stepped
    exact ⟨same, .inl rfl⟩
  | settle p outcome =>
    rw [step] at stepped
    split at stepped
    · cases stepped
      exact ⟨same, .inl rfl⟩
    · cases stepped
  | job =>
    rw [step] at stepped
    split at stepped
    next job rest free next =>
      cases stepped
      have does := inv.jobs job (next ▸ List.mem_cons_self)
      cases does with
      | work here waiting settled =>
        exact ⟨same, .inr ⟨_, waiting, rfl, (List.getElem?_eq_some_iff.mp here).1⟩⟩
      | adopt => exact ⟨same, .inl rfl⟩
      | adopted => exact ⟨same, .inl rfl⟩
      | tail => exact ⟨same, .inl rfl⟩
    next => cases stepped
  | returns p =>
    rw [step] at stepped
    split at stepped
    · split at stepped
      · cases stepped
      · split at stepped <;> cases stepped <;> exact ⟨same, .inl rfl⟩
    · cases stepped
  | throws reason =>
    rw [step] at stepped
    split at stepped
    · cases stepped
      exact ⟨same, .inl rfl⟩
    · cases stepped

omit [DecidableEq ρ] in
theorem SameRun.of_append {v w : Nat} {xs : List (RunWork ρ)} (grown : t.works = s.works ++ xs)
    (first : v < s.works.length) (second : w < s.works.length) (same : t.SameRun v w) :
    s.SameRun v w := by
  obtain ⟨x, y, here, there, own⟩ := same
  rw [grown, List.getElem?_append_left first] at here
  rw [grown, List.getElem?_append_left second] at there
  exact ⟨x, y, here, there, own⟩

/-- No work is called twice, and those of a run are called in the order they were enqueued in. -/
structure Ordered (s : Process ρ ε α) : Prop where
  once : s.started.Nodup
  order : s.started.Pairwise fun v w => s.SameRun v w → v < w

theorem step_ordered (inv : s.Invariant []) (ordered : s.Ordered) {event : ProcessEvent ρ ε α}
    (stepped : s.step event = some t) : t.Ordered := by
  obtain ⟨⟨xs, grown⟩, called⟩ := step_works inv stepped
  have order : s.started.Pairwise fun v w => t.SameRun v w → v < w :=
    ordered.order.imp_of_mem fun first second earlier same =>
      earlier (same.of_append grown (inv.known _ first) (inv.known _ second))
  rcases called with same | ⟨w, waiting, calls, known⟩
  · exact ⟨same ▸ ordered.once, same ▸ order⟩
  · have fresh : w ∉ s.started := fun member => (inv.started w).mp member waiting
    constructor
    · rw [calls, ← List.concat_eq_append]
      exact ordered.once.concat fresh
    · rw [calls, List.pairwise_append]
      refine ⟨order, List.pairwise_singleton _ _, fun v member u only same => ?_⟩
      cases List.mem_singleton.mp only
      obtain ⟨x, y, here, there, own⟩ := same.of_append grown (inv.known v member) known
      -- Had it been enqueued before, it would have ended before the other one was called.
      rcases Nat.lt_trichotomy v w with before | rfl | behind
      · exact before
      · exact absurd member fresh
      · obtain ⟨o, ended⟩ :=
          inv.ended_before here ((inv.started v).mp member) there own.symm behind
        exact absurd waiting ended.progress_ne

/-! ### How many jobs there are -/

omit [DecidableEq ρ] in
theorem Reacts.plain {r : Reaction Handler} (reacts : s.Reacts r) :
    r.onRejected = none ∨ r.onRejected = some .settled := by
  cases reacts with
  | work => exact .inl rfl
  | adopts => exact .inl rfl
  | tail => exact .inr rfl

omit [DecidableEq ρ] in
theorem jobCost_le {r : Reaction Handler} (o : Outcome (Reason ε) (Option α))
    (plain : r.onRejected = none ∨ r.onRejected = some .settled) :
    jobCost (r.job o) ≤ reactionCost r := by
  obtain ⟨source, onFulfilled, onRejected, derived⟩ := r
  cases o with
  | fulfilled value => rcases onFulfilled with _ | _ | _ <;> exact Nat.le_refl _
  | rejected reason =>
    rcases onFulfilled with _ | _ | _ <;> rcases plain with rfl | rfl <;>
      simp [Reaction.job, jobCost, reactionCost]

@[simp] theorem weight_push (h : RunPromises ε α) (job : Job Handler (Reason ε) (Option α)) :
    weight (h.push job) = weight h + jobCost job := by
  simp [weight, Promises.push, Nat.add_assoc]

@[simp] theorem weight_create (h : RunPromises ε α)
    (o : Option (Outcome (Reason ε) (Option α))) : weight (h.create o) = weight h := rfl

theorem weight_subscribe_le (h : RunPromises ε α) {r : Reaction Handler}
    (plain : r.onRejected = none ∨ r.onRejected = some .settled) :
    weight (h.subscribe r) ≤ weight h + reactionCost r := by
  rw [Promises.subscribe]
  split
  · simp [weight]
    omega
  · rw [weight_push]
    exact Nat.add_le_add_left (jobCost_le _ plain) _

/-- What waited for a promise costs no more when it is at work. -/
theorem weight_settle_le (h : RunPromises ε α) (p : Nat) (o : Outcome (Reason ε) (Option α))
    (plain : ∀ r ∈ h.reactions, r.onRejected = none ∨ r.onRejected = some .settled) :
    weight (h.settle p o) ≤ weight h := by
  rw [Promises.settle]
  split
  · have parts := ((h.reactions_parts p).map reactionCost).sum_eq
    have jobs : (((h.reactions.filter (·.source = p)).map (·.job o)).map jobCost).sum ≤
        ((h.reactions.filter (·.source = p)).map reactionCost).sum := by
      rw [List.map_map]
      exact List.sum_le_sum fun r member => jobCost_le o (plain r (List.mem_filter.mp member).1)
    rw [List.map_append, List.sum_append] at parts
    simp only [weight, List.map_append, List.sum_append]
    omega
  · exact Nat.le_refl _

theorem step_bounded (inv : s.Invariant []) (bounded : s.taken + s.left ≤ 4 * s.works.length)
    {event : ProcessEvent ρ ε α} (stepped : s.step event = some t) :
    t.taken + t.left ≤ 4 * t.works.length := by
  have plain : ∀ r ∈ s.promises.reactions, r.onRejected = none ∨ r.onRejected = some .settled :=
    fun r member => (inv.reactions r member).plain
  rw [left] at bounded ⊢
  cases event with
  | onRun runId =>
    cases stepped
    have same : weight (s.previous runId).1 = weight s.promises := by
      rw [Process.previous]
      split <;> rfl
    rw [onRun]
    generalize s.previous runId = found at same ⊢
    obtain ⟨promises, previous⟩ := found
    have first := weight_subscribe_le (promises.create none)
      (r := ⟨previous, some (.work s.works.length), none, promises.size⟩) (.inl rfl)
    let h := promises.andThen previous (some (.work s.works.length)) none
    have second := weight_subscribe_le (h.create none)
      (r := ⟨promises.size, some .settled, some .settled, h.size⟩) (.inr rfl)
    simp only [weight_create, reactionCost] at first second
    simp only [List.length_append, List.length_singleton]
    change s.taken + (weight ((h.create none).subscribe
      ⟨promises.size, some .settled, some .settled, h.size⟩) + _) ≤ _
    have grown : weight h ≤ weight promises + 3 := first
    simp only at same
    omega
  | create =>
    cases stepped
    exact bounded
  | settle p outcome =>
    rw [step] at stepped
    split at stepped
    · cases stepped
      have := weight_settle_le s.promises p outcome plain
      simp only
      omega
    · cases stepped
  | job =>
    rw [step] at stepped
    split at stepped
    next job rest free next =>
      cases stepped
      have whole : weight s.promises = jobCost job + weight { s.promises with jobs := rest } := by
        change (s.promises.reactions.map reactionCost).sum + (s.promises.jobs.map jobCost).sum =
          jobCost job + ((s.promises.reactions.map reactionCost).sum + (rest.map jobCost).sum)
        rw [next, List.map_cons, List.sum_cons]
        omega
      rw [free, whole] at bounded
      have does := inv.jobs job (next ▸ List.mem_cons_self)
      cases does with
      | work =>
        simp [perform, jobCost] at bounded ⊢
        omega
      | @adopt w x p =>
        have := weight_subscribe_le { s.promises with jobs := rest }
          (r := ⟨p, none, none, x.mine⟩) (.inl rfl)
        simp [perform, jobCost, reactionCost, free] at bounded this ⊢
        omega
      | @adopted w x p o =>
        have := weight_settle_le { s.promises with jobs := rest } x.mine o plain
        simp [perform, jobCost, free] at bounded this ⊢
        omega
      | @tail w x o =>
        have := weight_settle_le { s.promises with jobs := rest } x.tail (.fulfilled none) plain
        simp [perform, jobCost, free] at bounded this ⊢
        omega
    next => cases stepped
  | returns p =>
    rw [step] at stepped
    split at stepped
    next w d called =>
      rw [called] at bounded
      split at stepped
      · cases stepped
      · split at stepped
        · cases stepped
          have := weight_settle_le s.promises d (.rejected .chaining) plain
          simp [leave] at bounded ⊢
          omega
        · cases stepped
          simp [leave, jobCost] at bounded ⊢
          omega
    next => cases stepped
  | throws reason =>
    rw [step] at stepped
    split at stepped
    next w d called =>
      rw [called] at bounded
      cases stepped
      have := weight_settle_le s.promises d (.rejected (.thrown reason)) plain
      simp [leave] at bounded ⊢
      omega
    next => cases stepped

/-! ### When nothing is left to do -/

namespace Invariant

variable (inv : s.Invariant []) (quiet : s.Quiet) {v w : Nat} {x y : RunWork ρ}

include inv quiet

/-- What is pending then waits for another promise, or for the code outside. -/
theorem awaited {p : Nat} (pending : s.promises.Pending p) (known : p ∉ s.own) :
    ∃ r ∈ s.promises.reactions, r.derived = p ∧ s.promises.Pending r.source := by
  have owed := (inv.linear.pending p).mpr pending
  rw [Promises.owed, quiet.1, quiet.2] at owed
  have waits : p ∈ s.promises.reactions.map Reaction.derived := by simpa [known] using owed
  obtain ⟨r, member, same⟩ := List.mem_map.mp waits
  exact ⟨r, member, same, inv.linear.waits r member⟩

/-- The promise of a work that has ended has settled. -/
theorem mine_settled (here : s.works[w]? = some x) (ended : s.EndedWith w outcome) :
    s.promises.outcome? x.mine = some outcome := by
  obtain ⟨places, mine, -⟩ := inv.works w x here
  cases settled : s.promises.outcome? x.mine with
  | some o => rw [(mine o settled).unique ended]
  | none =>
    have pending := Promises.pending_of_outcome? (places.2.1.trans places.2.2) settled
    obtain ⟨r, member, same, unsettled⟩ :=
      inv.awaited quiet pending fun member => (inv.outside _ member w x here).1 rfl
    have reacts := inv.reactions r member
    cases reacts with
    | work there waiting =>
      cases inv.eq_of_mine there here same
      exact absurd waiting ended.progress_ne
    | adopts there returned other =>
      cases inv.eq_of_mine there here same
      simp only [EndedWith, returned] at ended
      rw [Promises.outcome?_of_pending unsettled] at ended
      cases ended
    | tail there => exact absurd same.symm (inv.mine_ne_tail here there)

theorem tail_settled (here : s.works[w]? = some x) (ended : s.EndedWith w outcome) :
    ¬s.promises.Pending x.tail := by
  intro pending
  obtain ⟨r, member, same, unsettled⟩ :=
    inv.awaited quiet pending fun member => (inv.outside _ member w x here).2 rfl
  have reacts := inv.reactions r member
  cases reacts with
  | work there waiting => exact inv.mine_ne_tail there here same
  | adopts there returned other => exact inv.mine_ne_tail there here same
  | tail there =>
    cases inv.eq_of_tail there here same
    cases there.symm.trans here
    have settled := inv.mine_settled quiet here ended
    rw [Promises.outcome?_of_pending unsettled] at settled
    cases settled

/-- A work has been called when those of its run before it have ended. -/
theorem called (here : s.works[w]? = some x)
    (before : ∀ (v : Nat) (y : RunWork ρ), s.works[v]? = some y → y.runId = x.runId → v < w →
      s.Ended v) : s.progress w ≠ .waiting := by
  intro waiting
  have places := (inv.works w x here).places
  have unsettled : s.promises.outcome? x.mine = none := by
    cases settled : s.promises.outcome? x.mine with
    | none => rfl
    | some o => exact absurd waiting ((inv.works w x here).mine o settled).progress_ne
  have pending := Promises.pending_of_outcome? (places.2.1.trans places.2.2) unsettled
  obtain ⟨r, member, same, source⟩ :=
    inv.awaited quiet pending fun member => (inv.outside _ member w x here).1 rfl
  have reacts := inv.reactions r member
  cases reacts with
  | work there still =>
    cases inv.eq_of_mine there here same
    cases there.symm.trans here
    -- It still waits for the tail of the one before it, which has ended.
    rcases inv.previous_cases here with ⟨v, y, elsewhere, own, earlier, waits, -⟩ | ⟨plain, -⟩
    · obtain ⟨o, ended⟩ := before v y elsewhere own earlier
      rw [waits] at source
      exact inv.tail_settled quiet elsewhere ended source
    · rw [Promises.outcome?_of_pending source] at plain
      cases plain
  | adopts there returned other =>
    cases inv.eq_of_mine there here same
    cases returned.symm.trans waiting
  | tail there => exact inv.mine_ne_tail here there same.symm

end Invariant

/-! ### Every run -/

/-- What is said of the works of a process, in every state that it may come to. -/
structure Serialised (s : Process ρ ε α) : Prop where
  /-- A work is called once at most. -/
  once : s.started.Nodup
  known : ∀ w ∈ s.started, w < s.works.length
  /-- The works of a run are called in the order they were enqueued in. -/
  order : s.started.Pairwise fun v w => s.SameRun v w → v < w
  /-- One at a time: those before it had ended. -/
  alone : ∀ v w, w ∈ s.started → s.SameRun v w → v < w → s.Ended v
  /-- A promise settles with what its own work has come to, whatever the others have. -/
  own : ∀ w x o, s.works[w]? = some x → s.promises.outcome? x.mine = some o → s.EndedWith w o
  settles : s.Quiet → ∀ w x o, s.works[w]? = some x → s.EndedWith w o →
    s.promises.outcome? x.mine = some o
  /-- A work waits for those of its run before it, whatever these come to, and for no others. -/
  called : s.Quiet → ∀ w < s.works.length, (∀ v < w, s.SameRun v w → s.Ended v) → w ∈ s.started
  /-- Where those that are called end, all are called. -/
  all : s.Quiet → (∀ w ∈ s.started, s.Ended w) → s.started.Perm (List.range s.works.length)
  /-- The queue comes to rest: a job that is there can be done, and there are four for a work. -/
  enabled : s.stack = none → s.promises.jobs ≠ [] → (s.step .job).isSome
  bounded : s.taken ≤ 4 * s.works.length

theorem Invariant.called_of_ended (inv : s.Invariant []) (quiet : s.Quiet) {w : Nat}
    (known : w < s.works.length) (before : ∀ v < w, s.SameRun v w → s.Ended v) :
    w ∈ s.started := by
  have here : s.works[w]? = some s.works[w] := List.getElem?_eq_getElem known
  refine (inv.started w).mpr (inv.called quiet here fun v y there own earlier => ?_)
  exact before v earlier ⟨y, s.works[w], there, here, own⟩

theorem Invariant.all_called (inv : s.Invariant []) (quiet : s.Quiet)
    (ends : ∀ w ∈ s.started, s.Ended w) {w : Nat} (known : w < s.works.length) :
    w ∈ s.started := by
  induction w using Nat.strongRecOn with
  | _ w ih =>
    refine inv.called_of_ended quiet known fun v earlier _ => ends v ?_
    exact ih v earlier (earlier.trans known)

theorem serialised_of_invariant (inv : s.Invariant []) (ordered : s.Ordered)
    (bounded : s.taken + s.left ≤ 4 * s.works.length) : s.Serialised where
  once := ordered.once
  known := inv.known
  order := ordered.order
  alone v w member same before := by
    obtain ⟨x, y, here, there, own⟩ := same
    exact inv.ended_before there ((inv.started w).mp member) here own before
  own w x o here settled := (inv.works w x here).mine o settled
  settles quiet w x o here ended := inv.mine_settled quiet here ended
  called quiet w known before := inv.called_of_ended quiet known before
  all quiet ends := by
    refine (List.perm_ext_iff_of_nodup ordered.once List.nodup_range).mpr fun w => ?_
    rw [List.mem_range]
    exact ⟨inv.known w, inv.all_called quiet ends⟩
  enabled free left := by
    cases next : s.promises.jobs with
    | nil => exact absurd next left
    | cons job rest =>
      rw [step, free, next]
      rfl
  bounded := Nat.le_trans (Nat.le_add_right _ _) bounded

/-- Whatever is enqueued, and whatever it comes to, the works of a run go one after the other. -/
theorem onRun_serialises {events : List (ProcessEvent ρ ε α)} {s : Process ρ ε α}
    (ran : Foundation.perform step initial events = some s) : s.Serialised := by
  let P (s : Process ρ ε α) : Prop :=
    s.Invariant [] ∧ s.Ordered ∧ s.taken + s.left ≤ 4 * s.works.length
  have start : P initial :=
    ⟨initial_invariant, ⟨List.nodup_nil, List.Pairwise.nil⟩, Nat.le_refl 0⟩
  have preserved : ∀ s event t, step s event = some t → P s → P t := by
    intro s event t stepped held
    obtain ⟨inv, ordered, bounded⟩ := held
    exact ⟨step_invariant inv stepped, step_ordered inv ordered stepped,
      step_bounded inv bounded stepped⟩
  obtain ⟨inv, ordered, bounded⟩ :=
    ((run_of_perform step events initial s ran).invariant preserved start).1
  exact serialised_of_invariant inv ordered bounded

/-- Two works of one run and one of another: the first is rejected, and the second is called. -/
theorem onRun_serialises_rejected :
    ∃ s : Process Bool Nat Nat,
      Foundation.perform step initial [.onRun true, .onRun true, .onRun false, .job, .throws 7,
        .job, .create, .returns 8, .job, .job, .settle 8 (.fulfilled (some 3)), .job] = some s ∧
        s.Serialised ∧ s.started = [0, 2, 1] := by
  have ran : Foundation.perform step (initial : Process Bool Nat Nat) [.onRun true, .onRun true,
      .onRun false, .job, .throws 7, .job, .create, .returns 8, .job, .job,
      .settle 8 (.fulfilled (some 3)), .job] = some _ := rfl
  exact ⟨_, ran, onRun_serialises ran, rfl⟩

end LedgerDesk.Pipeline.Process
