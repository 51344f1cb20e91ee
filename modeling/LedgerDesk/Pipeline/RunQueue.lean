import LedgerDesk.Foundation.Promises
import LedgerDesk.Foundation.Runs

/-!
# The queue of a run

Every cycle of a run goes through `onRun`, which has it wait for the promise of the cycle before it.
What is stored for the next one is a promise that only ever resolves. The code outside enqueues
works, makes promises and settles them at any time, also while a work is being called.
-/
namespace LedgerDesk.Pipeline

open Foundation

/-- What the queue has wait for a promise. -/
inductive Handler where
  /-- The work of that number. -/
  | work (w : Nat)
  /-- `() => undefined`. -/
  | settled
  deriving DecidableEq, Repr

inductive Reason (ε : Type) where
  /-- A promise was to take over its own outcome. -/
  | chaining
  | thrown (reason : ε)
  deriving DecidableEq, Repr

/-- The value `none` is `undefined`. -/
abbrev RunPromises (ε α : Type) := Promises Handler (Reason ε) (Option α)

/-- The promises of one call: what it waits for, what it returns and what it stores. -/
structure RunWork (ρ : Type) where
  runId : ρ
  previous : Nat
  mine : Nat
  tail : Nat
  deriving DecidableEq, Repr

inductive RunProgress (ε : Type) where
  | waiting
  | running
  | returned (promise : Nat)
  | threw (reason : ε)
  deriving DecidableEq, Repr

/-- The process, with what has happened in it. -/
structure Process (ρ ε α : Type) where
  promises : RunPromises ε α
  /-- `queues()`: the tail of each run that has one. -/
  queues : ρ → Option Nat
  /-- What the code outside is to settle. -/
  own : List Nat
  /-- The work that is being called, and the promise that waits for what it returns. -/
  stack : Option (Nat × Nat)
  works : List (RunWork ρ)
  progress : Nat → RunProgress ε
  started : List Nat
  taken : Nat

inductive ProcessEvent (ρ ε α : Type) where
  | onRun (runId : ρ)
  /-- The code outside makes a promise. -/
  | create
  /-- It settles one of its promises. -/
  | settle (p : Nat) (outcome : Outcome (Reason ε) (Option α))
  /-- The next job is done. -/
  | job
  /-- The work that is being called returns a promise. -/
  | returns (p : Nat)
  | throws (reason : ε)
  deriving DecidableEq, Repr

namespace Process

variable {ρ ε α : Type}

def initial : Process ρ ε α where
  promises := .empty
  queues _ := none
  own := []
  stack := none
  works := []
  progress _ := .waiting
  started := []
  taken := 0

section Steps

variable [DecidableEq ρ] (s : Process ρ ε α)

/-- `queue.get(runId) ?? Promise.resolve()`. -/
def previous (runId : ρ) : RunPromises ε α × Nat :=
  match s.queues runId with
  | some tail => (s.promises, tail)
  | none => (s.promises.create (some (.fulfilled none)), s.promises.size)

def onRun (runId : ρ) : Process ρ ε α :=
  let (promises, previous) := s.previous runId
  let mine := promises.size
  let promises := promises.andThen previous (some (.work s.works.length)) none
  let tail := promises.size
  { s with
    promises := promises.andThen mine (some .settled) (some .settled)
    queues := Function.update s.queues runId (some tail)
    works := s.works ++ [⟨runId, previous, mine, tail⟩] }

/-- A job that has been taken off the queue. -/
def perform : Job Handler (Reason ε) (Option α) → Process ρ ε α
  | .react none outcome derived => { s with promises := s.promises.settle derived outcome }
  | .react (some .settled) _ derived =>
    { s with promises := s.promises.settle derived (.fulfilled none) }
  | .react (some (.work w)) _ derived =>
    { s with
      stack := some (w, derived)
      progress := Function.update s.progress w .running
      started := s.started ++ [w] }
  | .adopt source derived =>
    { s with promises := s.promises.subscribe ⟨source, none, none, derived⟩ }

/-- The work that was being called has ended its turn. -/
def leave (w : Nat) (progress : RunProgress ε) : Process ρ ε α :=
  { s with stack := none, progress := Function.update s.progress w progress }

def step : ProcessEvent ρ ε α → Option (Process ρ ε α)
  | .onRun runId => some (s.onRun runId)
  | .create =>
    some { s with promises := s.promises.create none, own := s.promises.size :: s.own }
  | .settle p outcome =>
    if p ∈ s.own then
      some { s with promises := s.promises.settle p outcome, own := s.own.erase p }
    else none
  | .job =>
    match s.stack, s.promises.jobs with
    | none, job :: rest =>
      some ({ s with promises.jobs := rest, taken := s.taken + 1 }.perform job)
    | _, _ => none
  | .returns p =>
    match s.stack with
    | some (w, derived) =>
      if s.promises.size ≤ p then none
      else if p = derived then
        some { s.leave w (.returned p) with
          promises := s.promises.settle derived (.rejected .chaining) }
      else some { s.leave w (.returned p) with promises := s.promises.push (.adopt p derived) }
    | none => none
  | .throws reason =>
    match s.stack with
    | some (w, derived) =>
      some { s.leave w (.threw reason) with
        promises := s.promises.settle derived (.rejected (.thrown reason)) }
    | none => none

end Steps

/-! ### What is said of a process -/

section Statements

variable (s : Process ρ ε α)

def SameRun (v w : Nat) : Prop :=
  ∃ x y, s.works[v]? = some x ∧ s.works[w]? = some y ∧ x.runId = y.runId

/-- What a work has come to: what it threw, or what the promise it returned has come to. -/
def EndedWith (w : Nat) (outcome : Outcome (Reason ε) (Option α)) : Prop :=
  match s.progress w with
  | .threw reason => outcome = .rejected (.thrown reason)
  | .returned p => s.promises.outcome? p = some outcome
  | _ => False

def Ended (w : Nat) : Prop := ∃ outcome, s.EndedWith w outcome

/-- No work is being called and no job is left to do. -/
def Quiet : Prop := s.stack = none ∧ s.promises.jobs = []

end Statements

/-! ### The jobs that are left -/

def reactionCost (r : Reaction Handler) : Nat :=
  match r.onFulfilled with
  | some (.work _) => 3
  | _ => 1

def jobCost : Job Handler (Reason ε) (Option α) → Nat
  | .react (some (.work _)) _ _ => 3
  | .react _ _ _ => 1
  | .adopt _ _ => 2

/-- How many jobs what is registered still takes at most, but for those of new works. -/
def weight (promises : RunPromises ε α) : Nat :=
  (promises.reactions.map reactionCost).sum + (promises.jobs.map jobCost).sum

/-- How many jobs the works that are under way still take at most. -/
def left (s : Process ρ ε α) : Nat := weight s.promises + if s.stack.isSome then 2 else 0

/-! ### The invariant -/

/-- The work of the run that was enqueued last. -/
def last [DecidableEq ρ] (works : List (RunWork ρ)) (runId : ρ) : Option (RunWork ρ) :=
  (works.filter (·.runId = runId)).getLast?

theorem getElem?_concat_cases {τ : Type} {xs : List τ} {x y : τ} {i : Nat}
    (here : (xs ++ [x])[i]? = some y) : xs[i]? = some y ∨ i = xs.length ∧ y = x := by
  by_cases below : i < xs.length
  · exact .inl ((List.getElem?_append_left below).symm.trans here)
  · obtain ⟨bound, -⟩ := List.getElem?_eq_some_iff.mp here
    have same : i = xs.length := by
      rw [List.length_append, List.length_singleton] at bound
      omega
    subst same
    rw [List.getElem?_concat_length] at here
    exact .inr ⟨rfl, (Option.some.inj here).symm⟩

theorem last_concat [DecidableEq ρ] (works : List (RunWork ρ)) (x : RunWork ρ) (runId : ρ) :
    last (works ++ [x]) runId = if x.runId = runId then some x else last works runId := by
  rw [last, List.filter_append]
  by_cases same : x.runId = runId
  · simp [same]
  · simp [same, last]

/-- What may wait for a promise: a work that was enqueued, one that has returned, and a tail. -/
inductive Reacts (s : Process ρ ε α) : Reaction Handler → Prop
  | work {w : Nat} {x : RunWork ρ} (here : s.works[w]? = some x)
      (waiting : s.progress w = .waiting) :
      Reacts s ⟨x.previous, some (.work w), none, x.mine⟩
  | adopts {w : Nat} {x : RunWork ρ} {p : Nat} (here : s.works[w]? = some x)
      (returned : s.progress w = .returned p) (other : p ≠ x.mine) :
      Reacts s ⟨p, none, none, x.mine⟩
  | tail {w : Nat} {x : RunWork ρ} (here : s.works[w]? = some x) :
      Reacts s ⟨x.mine, some .settled, some .settled, x.tail⟩

/-- The jobs there may be. -/
inductive Does (s : Process ρ ε α) : Job Handler (Reason ε) (Option α) → Prop
  | work {w : Nat} {x : RunWork ρ} {value : Option α} (here : s.works[w]? = some x)
      (waiting : s.progress w = .waiting)
      (settled : s.promises.outcome? x.previous = some (.fulfilled value)) :
      Does s (.react (some (.work w)) (.fulfilled value) x.mine)
  | adopt {w : Nat} {x : RunWork ρ} {p : Nat} (here : s.works[w]? = some x)
      (returned : s.progress w = .returned p) (other : p ≠ x.mine)
      (known : p < s.promises.size) : Does s (.adopt p x.mine)
  | adopted {w : Nat} {x : RunWork ρ} {p : Nat} {outcome : Outcome (Reason ε) (Option α)}
      (here : s.works[w]? = some x) (returned : s.progress w = .returned p) (other : p ≠ x.mine)
      (settled : s.promises.outcome? p = some outcome) : Does s (.react none outcome x.mine)
  | tail {w : Nat} {x : RunWork ρ} {outcome : Outcome (Reason ε) (Option α)}
      (here : s.works[w]? = some x) (settled : s.promises.outcome? x.mine = some outcome) :
      Does s (.react (some .settled) outcome x.tail)

/-- What a work waits for: the work before it, or a promise that is there from the start. -/
def Follows (promises : RunPromises ε α) (previous : Nat) : Option (RunWork ρ) → Prop
  | some y => previous = y.tail
  | none => promises.outcome? previous = some (.fulfilled none)

theorem Follows.mono {promises later : RunPromises ε α} {previous : Nat}
    {before : Option (RunWork ρ)} (follows : Follows promises previous before)
    (kept : ∀ q o, promises.outcome? q = some o → later.outcome? q = some o) :
    Follows later previous before := by
  cases before with
  | none => exact kept _ _ follows
  | some y => exact follows

/-- What holds of a work and its promises. -/
structure Sound [DecidableEq ρ] (s : Process ρ ε α) (w : Nat) (x : RunWork ρ) : Prop where
  places : x.previous < x.mine ∧ x.mine < x.tail ∧ x.tail < s.promises.size
  mine : ∀ outcome, s.promises.outcome? x.mine = some outcome → s.EndedWith w outcome
  tail : ∀ outcome, s.promises.outcome? x.tail = some outcome →
    outcome = .fulfilled none ∧ ∃ own, s.promises.outcome? x.mine = some own
  after : s.progress w ≠ .waiting → ∃ outcome, s.promises.outcome? x.previous = some outcome
  chained : Follows s.promises x.previous (last (s.works.take w) x.runId)

/-- What every state keeps, a step being under way that owes the debts. -/
structure Invariant [DecidableEq ρ] (s : Process ρ ε α) (debts : List Nat) : Prop where
  linear : s.promises.Linear (debts ++ (s.stack.toList.map Prod.snd ++ s.own))
  reactions : ∀ r ∈ s.promises.reactions, s.Reacts r
  jobs : ∀ job ∈ s.promises.jobs, s.Does job
  stack : ∀ w d, s.stack = some (w, d) →
    ∃ x : RunWork ρ, s.works[w]? = some x ∧ d = x.mine ∧ s.progress w = .running
  works : ∀ (w : Nat) (x : RunWork ρ), s.works[w]? = some x → s.Sound w x
  increasing : ∀ (v w : Nat) (x y : RunWork ρ), s.works[v]? = some x → s.works[w]? = some y →
    v < w → x.tail < y.mine
  outside : ∀ p ∈ s.own, ∀ (w : Nat) (x : RunWork ρ), s.works[w]? = some x →
    p ≠ x.mine ∧ p ≠ x.tail
  queues : ∀ runId, s.queues runId = (last s.works runId).map RunWork.tail
  started : ∀ w, w ∈ s.started ↔ s.progress w ≠ .waiting
  known : ∀ w ∈ s.started, w < s.works.length

section Keeping

variable {s t : Process ρ ε α} {outcome : Outcome (Reason ε) (Option α)}

theorem EndedWith.unique {w : Nat} {first second : Outcome (Reason ε) (Option α)}
    (one : s.EndedWith w first) (other : s.EndedWith w second) : first = second := by
  rw [EndedWith] at one other
  cases is : s.progress w with
  | threw reason =>
    simp only [is] at one other
    rw [one, other]
  | returned p =>
    simp only [is] at one other
    exact Option.some.inj (one.symm.trans other)
  | waiting => simp only [is] at one
  | running => simp only [is] at one

theorem EndedWith.progress_ne {w : Nat} (ended : s.EndedWith w outcome) :
    s.progress w ≠ .waiting := by
  intro waiting
  rw [EndedWith, waiting] at ended
  exact ended

theorem EndedWith.mono {w : Nat} (ended : s.EndedWith w outcome)
    (progress : t.progress = s.progress)
    (kept : ∀ q o, s.promises.outcome? q = some o → t.promises.outcome? q = some o) :
    t.EndedWith w outcome := by
  rw [EndedWith] at ended ⊢
  rw [progress]
  cases is : s.progress w with
  | threw reason =>
    rw [is] at ended
    exact ended
  | returned q =>
    rw [is] at ended
    exact kept q outcome ended
  | waiting =>
    rw [is] at ended
    cases ended
  | running =>
    rw [is] at ended
    cases ended

theorem Reacts.same {r : Reaction Handler} (reacts : s.Reacts r) (works : t.works = s.works)
    (progress : t.progress = s.progress) : t.Reacts r := by
  cases reacts with
  | work here waiting => exact .work (works ▸ here) (progress ▸ waiting)
  | adopts here returned other => exact .adopts (works ▸ here) (progress ▸ returned) other
  | tail here => exact .tail (works ▸ here)

theorem Does.mono {job : Job Handler (Reason ε) (Option α)} (does : s.Does job)
    (works : t.works = s.works) (progress : t.progress = s.progress)
    (kept : ∀ q o, s.promises.outcome? q = some o → t.promises.outcome? q = some o)
    (grown : s.promises.size ≤ t.promises.size) : t.Does job := by
  cases does with
  | work here waiting settled => exact .work (works ▸ here) (progress ▸ waiting) (kept _ _ settled)
  | adopt here returned other known =>
    exact .adopt (works ▸ here) (progress ▸ returned) other (Nat.lt_of_lt_of_le known grown)
  | adopted here returned other settled =>
    exact .adopted (works ▸ here) (progress ▸ returned) other (kept _ _ settled)
  | tail here settled => exact .tail (works ▸ here) (kept _ _ settled)

variable [DecidableEq ρ] {debts theirs : List Nat} {p : Nat}

/-! ### The promises of different works -/

namespace Invariant

variable (inv : s.Invariant debts) {v w : Nat} {x y : RunWork ρ}

include inv

theorem eq_of_mine (here : s.works[v]? = some x) (there : s.works[w]? = some y)
    (same : x.mine = y.mine) : v = w := by
  have placed := (inv.works v x here).places
  have placed' := (inv.works w y there).places
  rcases Nat.lt_trichotomy v w with before | equal | behind
  · have := inv.increasing v w x y here there before
    omega
  · exact equal
  · have := inv.increasing w v y x there here behind
    omega

theorem mine_ne_tail (here : s.works[v]? = some x) (there : s.works[w]? = some y) :
    x.mine ≠ y.tail := by
  have placed := (inv.works v x here).places
  have placed' := (inv.works w y there).places
  intro same
  rcases Nat.lt_trichotomy v w with before | rfl | behind
  · have := inv.increasing v w x y here there before
    omega
  · cases here.symm.trans there
    omega
  · have := inv.increasing w v y x there here behind
    omega

theorem eq_of_tail (here : s.works[v]? = some x) (there : s.works[w]? = some y)
    (same : x.tail = y.tail) : v = w := by
  have placed := (inv.works v x here).places
  have placed' := (inv.works w y there).places
  rcases Nat.lt_trichotomy v w with before | equal | behind
  · have := inv.increasing v w x y here there before
    omega
  · exact equal
  · have := inv.increasing w v y x there here behind
    omega

end Invariant

/-! ### What a step does with the promises -/

/-- The promises are as they were, but for what waits for them. -/
theorem Invariant.replace (inv : s.Invariant debts) (promises : RunPromises ε α)
    (same : ∀ q, promises.outcome? q = s.promises.outcome? q)
    (size : promises.size = s.promises.size)
    (linear : promises.Linear (theirs ++ (s.stack.toList.map Prod.snd ++ s.own)))
    (reactions : ∀ r ∈ promises.reactions, s.Reacts r)
    (jobs : ∀ job ∈ promises.jobs, s.Does job) {taken : Nat} :
    { s with promises := promises, taken := taken }.Invariant theirs := by
  have kept : ∀ q o, s.promises.outcome? q = some o → promises.outcome? q = some o :=
    fun q o settled => (same q).trans settled
  refine ⟨linear, fun r member => (reactions r member).same rfl rfl,
    fun job member => (jobs job member).mono rfl rfl kept (Nat.le_of_eq size.symm), inv.stack,
    fun w x here => ?_, inv.increasing, inv.outside, inv.queues, inv.started, inv.known⟩
  obtain ⟨places, mine, tail, after, chained⟩ := inv.works w x here
  refine ⟨⟨places.1, places.2.1, size ▸ places.2.2⟩, fun o settled => ?_, fun o settled => ?_,
    fun moved => ?_, chained.mono kept⟩
  · exact (mine o ((same _).symm.trans settled)).mono rfl kept
  · obtain ⟨plain, own, behind⟩ := tail o ((same _).symm.trans settled)
    exact ⟨plain, own, kept _ _ behind⟩
  · obtain ⟨o, settled⟩ := after moved
    exact ⟨o, kept _ _ settled⟩

theorem Invariant.subscribe {r : Reaction Handler} (inv : s.Invariant (r.derived :: debts))
    (known : r.source < s.promises.size) (reacts : s.Reacts r)
    (does : ∀ o, s.promises.outcome? r.source = some o → s.Does (r.job o)) :
    { s with promises := s.promises.subscribe r }.Invariant debts := by
  refine inv.replace (s.promises.subscribe r) (fun q => Promises.outcome?_subscribe r)
    (Promises.size_subscribe r) (inv.linear.subscribe known) (fun x member => ?_)
    fun job member => ?_
  · rw [Promises.subscribe] at member
    split at member
    · rcases List.mem_append.mp member with old | new
      · exact inv.reactions x old
      · exact List.mem_singleton.mp new ▸ reacts
    · exact inv.reactions x member
  · rw [Promises.subscribe] at member
    split at member
    · exact inv.jobs job member
    · rename_i o settled
      rcases List.mem_append.mp member with old | new
      · exact inv.jobs job old
      · exact List.mem_singleton.mp new ▸ does o settled

theorem Invariant.push {job : Job Handler (Reason ε) (Option α)}
    (inv : s.Invariant (job.derived :: debts)) (does : s.Does job) :
    { s with promises := s.promises.push job }.Invariant debts := by
  refine inv.replace (s.promises.push job) (fun q => rfl) rfl (Promises.Linear.push inv.linear)
    inv.reactions fun other member => ?_
  rcases List.mem_append.mp member with old | new
  · exact inv.jobs other old
  · exact List.mem_singleton.mp new ▸ does

theorem Invariant.pop {job : Job Handler (Reason ε) (Option α)}
    {rest : List (Job Handler (Reason ε) (Option α))} (inv : s.Invariant debts)
    (next : s.promises.jobs = job :: rest) {taken : Nat} :
    { s with promises.jobs := rest, taken := taken }.Invariant (job.derived :: debts) := by
  refine inv.replace { s.promises with jobs := rest } (fun q => rfl) rfl (inv.linear.pop next)
    inv.reactions fun other member => ?_
  apply inv.jobs
  rw [next]
  exact List.mem_cons_of_mem job member

/-- A promise is settled by who owes it: a work has come to it, and a tail only ever resolves. -/
theorem Invariant.settle (inv : s.Invariant (p :: debts))
    (fulfils : ∀ (w : Nat) (x : RunWork ρ), s.works[w]? = some x → x.previous = p →
      ∃ value, outcome = .fulfilled value)
    (mine : ∀ (w : Nat) (x : RunWork ρ), s.works[w]? = some x → x.mine = p →
      { s with promises := s.promises.settle p outcome }.EndedWith w outcome)
    (tail : ∀ (w : Nat) (x : RunWork ρ), s.works[w]? = some x → x.tail = p →
      outcome = .fulfilled none ∧ ∃ own, s.promises.outcome? x.mine = some own) :
    { s with promises := s.promises.settle p outcome }.Invariant debts := by
  have pending : s.promises.Pending p := inv.linear.pending_of_other
  have kept : ∀ q o, s.promises.outcome? q = some o →
      (s.promises.settle p outcome).outcome? q = some o :=
    fun q o settled => Promises.outcome?_settle_of_some settled
  have here_or : ∀ q o, (s.promises.settle p outcome).outcome? q = some o →
      q = p ∧ o = outcome ∨ s.promises.outcome? q = some o := by
    intro q o settled
    by_cases same : q = p
    · subst same
      rw [Promises.outcome?_settle_self pending] at settled
      exact .inl ⟨rfl, (Option.some.inj settled).symm⟩
    · rw [Promises.outcome?_settle_of_ne same] at settled
      exact .inr settled
  have size : (s.promises.settle p outcome).size = s.promises.size := Promises.size_settle
  refine ⟨inv.linear.settle, fun r member => ?_, fun job member => ?_, inv.stack,
    fun w x here => ?_, inv.increasing, inv.outside, inv.queues, inv.started, inv.known⟩
  · change r ∈ (s.promises.settle p outcome).reactions at member
    rw [Promises.settle_eq pending] at member
    exact (inv.reactions r (List.mem_filter.mp member).1).same rfl rfl
  · change job ∈ (s.promises.settle p outcome).jobs at member
    rw [Promises.settle_eq pending] at member
    rcases List.mem_append.mp member with old | new
    · exact (inv.jobs job old).mono rfl rfl kept (Nat.le_of_eq size.symm)
    · obtain ⟨r, waited, rfl⟩ := List.mem_map.mp new
      obtain ⟨waited, source⟩ := List.mem_filter.mp waited
      have source : r.source = p := of_decide_eq_true source
      have settled : (s.promises.settle p outcome).outcome? r.source = some outcome := by
        rw [source]
        exact Promises.outcome?_settle_self pending
      cases inv.reactions r waited with
      | work there waiting =>
        obtain ⟨value, rfl⟩ := fulfils _ _ there source
        exact .work there waiting settled
      | adopts there returned other =>
        have adopted : { s with promises := s.promises.settle p outcome }.Does _ :=
          .adopted there returned other settled
        cases outcome <;> exact adopted
      | tail there =>
        have behind : { s with promises := s.promises.settle p outcome }.Does _ :=
          .tail there settled
        cases outcome <;> exact behind
  · obtain ⟨places, own, behind, after, chained⟩ := inv.works w x here
    refine ⟨⟨places.1, places.2.1, Nat.lt_of_lt_of_le places.2.2 (Nat.le_of_eq size.symm)⟩,
      fun o settled => ?_, fun o settled => ?_, fun moved => ?_, chained.mono kept⟩
    · rcases here_or _ _ settled with ⟨same, rfl⟩ | before
      · exact mine w x here same
      · exact (own o before).mono rfl kept
    · rcases here_or _ _ settled with ⟨same, rfl⟩ | before
      · obtain ⟨plain, came, settled⟩ := tail w x here same
        exact ⟨plain, came, kept _ _ settled⟩
      · obtain ⟨plain, came, settled⟩ := behind o before
        exact ⟨plain, came, kept _ _ settled⟩
    · obtain ⟨o, settled⟩ := after moved
      exact ⟨o, kept _ _ settled⟩

/-- The code outside makes a promise. -/
theorem Invariant.create (inv : s.Invariant debts) (made : Option (Outcome (Reason ε) (Option α)))
    {own : List Nat}
    (linear : (s.promises.create made).Linear (theirs ++ (s.stack.toList.map Prod.snd ++ own)))
    (outside : ∀ q ∈ own, q ∈ s.own ∨ q = s.promises.size) :
    { s with promises := s.promises.create made, own := own }.Invariant theirs := by
  have kept : ∀ q o, s.promises.outcome? q = some o →
      (s.promises.create made).outcome? q = some o := fun q o settled =>
    (Promises.outcome?_create_of_lt made (Promises.lt_of_outcome? settled)).trans settled
  have grown : s.promises.size ≤ (s.promises.create made).size := by simp
  refine ⟨linear, fun r member => (inv.reactions r member).same rfl rfl,
    fun job member => (inv.jobs job member).mono rfl rfl kept grown, inv.stack, fun w x here => ?_,
    inv.increasing, fun q member w x here => ?_, inv.queues, inv.started, inv.known⟩
  · obtain ⟨places, mine, tail, after, chained⟩ := inv.works w x here
    have old : ∀ q < s.promises.size, (s.promises.create made).outcome? q = s.promises.outcome? q :=
      fun q known => Promises.outcome?_create_of_lt made known
    refine ⟨⟨places.1, places.2.1, by simp; omega⟩, fun o settled => ?_, fun o settled => ?_,
      fun moved => ?_, chained.mono kept⟩
    · exact (mine o ((old _ (by omega)).symm.trans settled)).mono rfl kept
    · obtain ⟨plain, came, behind⟩ := tail o ((old _ (by omega)).symm.trans settled)
      exact ⟨plain, came, kept _ _ behind⟩
    · obtain ⟨o, settled⟩ := after moved
      exact ⟨o, kept _ _ settled⟩
  · rcases outside q member with old | rfl
    · exact inv.outside q old w x here
    · have places := (inv.works w x here).places
      exact ⟨by omega, by omega⟩

/-- The work that was being called ends its turn, and is owed what it has come to. -/
theorem Invariant.leave (inv : s.Invariant debts) {w d : Nat} (called : s.stack = some (w, d))
    {progress : RunProgress ε} (moved : progress ≠ .waiting) :
    (s.leave w progress).Invariant (d :: debts) := by
  obtain ⟨own, here, rfl, running⟩ := inv.stack w d called
  have elsewhere : ∀ v, s.progress v ≠ .running →
      (s.leave w progress).progress v = s.progress v := by
    intro v other
    refine Function.update_of_ne (fun same => other ?_) _ _
    rw [same]
    exact running
  have linear : s.promises.Linear (own.mine :: debts ++ ([] ++ s.own)) := by
    refine inv.linear.of_perm ?_
    rw [called]
    exact List.perm_middle
  refine ⟨linear, fun r member => ?_, fun job member => ?_, fun v e gone => (by cases gone),
    fun v x there => ?_, inv.increasing, inv.outside, inv.queues, fun v => ?_, inv.known⟩
  · cases inv.reactions r member with
    | work there waiting =>
      exact .work there ((elsewhere _ (by rw [waiting]; simp)).trans waiting)
    | adopts there returned other =>
      exact .adopts there ((elsewhere _ (by rw [returned]; simp)).trans returned) other
    | tail there => exact .tail there
  · cases inv.jobs job member with
    | work there waiting settled =>
      exact .work there ((elsewhere _ (by rw [waiting]; simp)).trans waiting) settled
    | adopt there returned other known =>
      exact .adopt there ((elsewhere _ (by rw [returned]; simp)).trans returned) other known
    | adopted there returned other settled =>
      exact .adopted there ((elsewhere _ (by rw [returned]; simp)).trans returned) other settled
    | tail there settled => exact .tail there settled
  · obtain ⟨places, mine, tail, after, chained⟩ := inv.works v x there
    refine ⟨places, fun o settled => ?_, tail, fun moved => ?_, chained⟩
    · have ended := mine o settled
      have same : (s.leave w progress).progress v = s.progress v := by
        refine elsewhere v fun same => ?_
        rw [EndedWith, same] at ended
        exact ended
      rw [EndedWith, same]
      exact ended
    · by_cases same : v = w
      · subst same
        exact after (by rw [running]; simp)
      · have before : s.progress v ≠ .waiting := by
          intro still
          exact moved ((Function.update_of_ne same _ _).trans still)
        exact after before
  · by_cases same : v = w
    · subst same
      simp [Process.leave, inv.started v, running, moved]
    · simp [Process.leave, inv.started v, same]

/-- A work is called when its turn comes: it has waited until now, and nothing else calls it. -/
theorem Invariant.call {w : Nat} {x : RunWork ρ} (inv : s.Invariant (x.mine :: debts))
    (free : s.stack = none) (here : s.works[w]? = some x) (waiting : s.progress w = .waiting)
    (settled : s.promises.outcome? x.previous = some outcome) :
    { s with
      stack := some (w, x.mine)
      progress := Function.update s.progress w .running
      started := s.started ++ [w] }.Invariant debts := by
  have linear : s.promises.Linear (debts ++ ([x.mine] ++ s.own)) := by
    refine inv.linear.of_perm ?_
    rw [free]
    exact List.perm_middle.symm
  have alone : x.mine ∉ s.promises.owed := by
    have once := inv.linear.once
    rw [List.cons_append, List.nodup_append'] at once
    exact fun member => once.2.2 member List.mem_cons_self
  have elsewhere : ∀ v y, s.works[v]? = some y → y.mine ≠ x.mine →
      Function.update s.progress w .running v = s.progress v := by
    intro v y there other
    refine Function.update_of_ne (fun same => other ?_) _ _
    subst same
    cases here.symm.trans there
    rfl
  have reacting : ∀ r ∈ s.promises.reactions, r.derived ≠ x.mine := fun r member same =>
    alone (List.mem_append_left _ (List.mem_map.mpr ⟨r, member, same⟩))
  have doing : ∀ job ∈ s.promises.jobs, job.derived ≠ x.mine := fun job member same =>
    alone (List.mem_append_right _ (List.mem_map.mpr ⟨job, member, same⟩))
  refine ⟨linear, fun r member => ?_, fun job member => ?_, fun v d called => ?_,
    fun v y there => ?_, inv.increasing, inv.outside, inv.queues, fun v => ?_, fun v member => ?_⟩
  · have other := reacting r member
    cases inv.reactions r member with
    | work there waiting => exact .work there ((elsewhere _ _ there other).trans waiting)
    | adopts there returned apart =>
      exact .adopts there ((elsewhere _ _ there other).trans returned) apart
    | tail there => exact .tail there
  · have other := doing job member
    cases inv.jobs job member with
    | work there waiting settled =>
      exact .work there ((elsewhere _ _ there other).trans waiting) settled
    | adopt there returned apart known =>
      exact .adopt there ((elsewhere _ _ there other).trans returned) apart known
    | adopted there returned apart settled =>
      exact .adopted there ((elsewhere _ _ there other).trans returned) apart settled
    | tail there settled => exact .tail there settled
  · cases called
    exact ⟨x, here, rfl, Function.update_self ..⟩
  · obtain ⟨places, mine, tail, after, chained⟩ := inv.works v y there
    refine ⟨places, fun o done => ?_, tail, fun moved => ?_, chained⟩
    · have ended := mine o done
      have other : v ≠ w := by
        rintro rfl
        exact ended.progress_ne waiting
      have same : Function.update s.progress w .running v = s.progress v :=
        Function.update_of_ne other _ _
      rw [EndedWith]
      simp only [same]
      exact ended
    · by_cases same : v = w
      · subst same
        cases here.symm.trans there
        exact ⟨outcome, settled⟩
      · have before : s.progress v ≠ .waiting := by
          intro still
          exact moved ((Function.update_of_ne same _ _).trans still)
        exact after before
  · by_cases same : v = w
    · subst same
      simp
    · simp [inv.started v, same]
  · rcases List.mem_append.mp member with old | new
    · exact inv.known v old
    · cases List.mem_singleton.mp new
      exact (List.getElem?_eq_some_iff.mp here).1

/-- Two more promises, for a work that waits for the one before it. -/
theorem Invariant.enqueue (inv : s.Invariant debts) {runId : ρ} {previous : Nat}
    (known : previous < s.promises.size)
    (chained : Follows s.promises previous (last s.works runId)) :
    { s with
      promises := (s.promises.create none).create none
      queues := Function.update s.queues runId (some (s.promises.size + 1))
      works := s.works ++
        [RunWork.mk runId previous s.promises.size (s.promises.size + 1)] }.Invariant
          (s.promises.size :: (s.promises.size + 1) :: debts) := by
  have size : ((s.promises.create none).create none).size = s.promises.size + 2 := by simp
  have old : ∀ q < s.promises.size, ((s.promises.create none).create none).outcome? q =
      s.promises.outcome? q := by
    intro q below
    rw [Promises.outcome?_create_of_lt none (by simp; omega),
      Promises.outcome?_create_of_lt none below]
  have kept : ∀ q o, s.promises.outcome? q = some o →
      ((s.promises.create none).create none).outcome? q = some o :=
    fun q o settled => (old q (Promises.lt_of_outcome? settled)).trans settled
  have mine : ((s.promises.create none).create none).outcome? s.promises.size = none := by
    rw [Promises.outcome?_create_of_lt none (by simp), Promises.outcome?_create_self]
  have tail : ((s.promises.create none).create none).outcome? (s.promises.size + 1) = none := by
    have own := Promises.outcome?_create_self (h := s.promises.create none) none
    rwa [Promises.size_create] at own
  have linear : ((s.promises.create none).create none).Linear (s.promises.size ::
      (s.promises.size + 1) :: debts ++ (s.stack.toList.map Prod.snd ++ s.own)) := by
    have both := inv.linear.create.create
    rw [Promises.size_create] at both
    exact both.of_perm (List.Perm.swap _ _ _)
  let x : RunWork ρ := ⟨runId, previous, s.promises.size, s.promises.size + 1⟩
  have number : ∀ {w y}, s.works[w]? = some y → w < s.works.length :=
    fun here => (List.getElem?_eq_some_iff.mp here).1
  have first : ∀ {w y}, s.works[w]? = some y → (s.works ++ [x])[w]? = some y :=
    fun here => (List.getElem?_append_left (number here)).trans here
  have fresh : s.progress s.works.length = .waiting := by
    by_contra moved
    exact Nat.lt_irrefl _ (inv.known _ ((inv.started _).mpr moved))
  refine ⟨linear, fun r member => ?_, fun job member => ?_, fun w d called => ?_,
    fun w y here => ?_, fun v w y z here there before => ?_, fun q member w y here => ?_,
    fun r => ?_, inv.started, fun w member => ?_⟩
  · cases inv.reactions r member with
    | work there waiting => exact .work (first there) waiting
    | adopts there returned other => exact .adopts (first there) returned other
    | tail there => exact .tail (first there)
  · cases inv.jobs job member with
    | work there waiting settled => exact .work (first there) waiting (kept _ _ settled)
    | adopt there returned other known =>
      refine .adopt (first there) returned other ?_
      change _ < ((s.promises.create none).create none).size
      omega
    | adopted there returned other settled =>
      exact .adopted (first there) returned other (kept _ _ settled)
    | tail there settled => exact .tail (first there) (kept _ _ settled)
  · obtain ⟨y, here, same, running⟩ := inv.stack w d called
    exact ⟨y, first here, same, running⟩
  · rcases getElem?_concat_cases here with there | ⟨rfl, rfl⟩
    · obtain ⟨places, own, behind, after, chain⟩ := inv.works w y there
      have taken : (s.works ++ [x]).take w = s.works.take w :=
        List.take_append_of_le_length (Nat.le_of_lt (number there))
      refine ⟨⟨places.1, places.2.1, size ▸ by omega⟩, fun o settled => ?_, fun o settled => ?_,
        fun moved => ?_, ?_⟩
      · have ended := own o ((old _ (by omega)).symm.trans settled)
        exact ended.mono rfl kept
      · obtain ⟨plain, came, settled⟩ := behind o ((old _ (by omega)).symm.trans settled)
        exact ⟨plain, came, kept _ _ settled⟩
      · obtain ⟨o, settled⟩ := after moved
        exact ⟨o, kept _ _ settled⟩
      · rw [taken]
        exact chain.mono kept
    · have taken : (s.works ++ [x]).take s.works.length = s.works := List.take_left
      refine ⟨⟨known, Nat.lt_succ_self _, size ▸ Nat.lt_succ_self _⟩, fun o settled => ?_,
        fun o settled => ?_, fun moved => absurd fresh moved, ?_⟩
      · cases mine.symm.trans settled
      · cases tail.symm.trans settled
      · rw [taken]
        exact chained.mono kept
  · rcases getElem?_concat_cases here with here | ⟨rfl, rfl⟩
    · rcases getElem?_concat_cases there with there | ⟨rfl, rfl⟩
      · exact inv.increasing v w y z here there before
      · exact (inv.works v y here).places.2.2
    · rcases getElem?_concat_cases there with there | ⟨rfl, rfl⟩
      · exact absurd (number there) (by omega)
      · exact absurd before (Nat.lt_irrefl _)
  · rcases getElem?_concat_cases here with here | ⟨rfl, rfl⟩
    · exact inv.outside q member w y here
    · have below : q < s.promises.size := by
        refine Promises.Pending.lt ((inv.linear.pending q).mp ?_)
        simp [member]
      exact ⟨Nat.ne_of_lt below, Nat.ne_of_lt (Nat.lt_succ_of_lt below)⟩
  · change Function.update s.queues runId (some (s.promises.size + 1)) r =
      (last (s.works ++ [x]) r).map RunWork.tail
    rw [last_concat]
    by_cases same : runId = r
    · subst same
      rw [if_pos rfl, Function.update_self]
      rfl
    · rw [if_neg same, Function.update_of_ne (Ne.symm same), inv.queues r]
  · have := inv.known w member
    change w < (s.works ++ [x]).length
    rw [List.length_append]
    omega

end Keeping

end Process

end LedgerDesk.Pipeline
