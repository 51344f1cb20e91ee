import Mathlib

/-!
# Promises

Promises, what waits for them, and the jobs of an event loop. A promise that settles hands what
waits for it to the queue of jobs, in the order in which it was registered.

Every promise that is pending is owed its outcome by exactly one party: a reaction, a job or code
that stands outside. `Linear` says so, and every operation keeps it.
-/
namespace Foundation

/-- How a promise settles. -/
inductive Outcome (ε α : Type) where
  | fulfilled (value : α)
  | rejected (reason : ε)
  deriving DecidableEq, Repr

/-- What waits for a promise, with the promise that it is to settle. Where it has no handler the
outcome passes through. -/
structure Reaction (η : Type) where
  source : Nat
  onFulfilled : Option η
  onRejected : Option η
  derived : Nat
  deriving DecidableEq, Repr

inductive Job (η ε α : Type) where
  /-- The promise of a reaction has settled. -/
  | react (handler : Option η) (outcome : Outcome ε α) (derived : Nat)
  /-- A promise is to take over the outcome of another one. -/
  | adopt (source derived : Nat)
  deriving DecidableEq, Repr

/-- Promises are told by their places; one without an outcome is pending. -/
structure Promises (η ε α : Type) where
  outcomes : List (Option (Outcome ε α))
  reactions : List (Reaction η)
  jobs : List (Job η ε α)
  deriving Repr

variable {η ε α : Type}

def Reaction.job (r : Reaction η) (outcome : Outcome ε α) : Job η ε α :=
  match outcome with
  | .fulfilled _ => .react r.onFulfilled outcome r.derived
  | .rejected _ => .react r.onRejected outcome r.derived

def Job.derived : Job η ε α → Nat
  | .react _ _ derived => derived
  | .adopt _ derived => derived

@[simp] theorem Reaction.job_derived (r : Reaction η) (outcome : Outcome ε α) :
    (r.job outcome).derived = r.derived := by
  cases outcome <;> rfl

namespace Promises

variable (h : Promises η ε α)

def empty : Promises η ε α := ⟨[], [], []⟩

def size : Nat := h.outcomes.length

def outcome? (p : Nat) : Option (Outcome ε α) := h.outcomes[p]?.join

def Pending (p : Nat) : Prop := h.outcomes[p]? = some none

/-- A new promise; it gets the place `h.size`. -/
def create (outcome : Option (Outcome ε α)) : Promises η ε α :=
  { h with outcomes := h.outcomes ++ [outcome] }

def push (job : Job η ε α) : Promises η ε α := { h with jobs := h.jobs ++ [job] }

def subscribe (r : Reaction η) : Promises η ε α :=
  match h.outcome? r.source with
  | none => { h with reactions := h.reactions ++ [r] }
  | some outcome => h.push (r.job outcome)

/-- `then`: the promise that it gives is a new one. -/
def andThen (source : Nat) (onFulfilled onRejected : Option η) : Promises η ε α :=
  (h.create none).subscribe ⟨source, onFulfilled, onRejected, h.size⟩

/-- A promise settles once. -/
def settle (p : Nat) (outcome : Outcome ε α) : Promises η ε α :=
  match h.outcomes[p]? with
  | some none =>
    { outcomes := h.outcomes.set p (some outcome)
      reactions := h.reactions.filter (·.source ≠ p)
      jobs := h.jobs ++ (h.reactions.filter (·.source = p)).map (·.job outcome) }
  | _ => h

/-- The promises to which what is registered owes an outcome. -/
def owed : List Nat := h.reactions.map Reaction.derived ++ h.jobs.map Job.derived

/-- Each pending promise is owed its outcome once, by what is registered or by others, and nothing
waits for a promise that has settled. -/
structure Linear (others : List Nat) : Prop where
  waits : ∀ r ∈ h.reactions, h.Pending r.source
  once : (h.owed ++ others).Nodup
  pending : ∀ p, p ∈ h.owed ++ others ↔ h.Pending p

variable {h} {p q : Nat} {outcome : Outcome ε α} {others : List Nat}

/-! ### Outcomes -/

theorem outcome?_of_pending (pending : h.Pending p) : h.outcome? p = none := by
  rw [outcome?, pending, Option.join]
  rfl

theorem Pending.lt (pending : h.Pending p) : p < h.size :=
  (List.getElem?_eq_some_iff.mp pending).1

theorem pending_of_outcome? (known : p < h.size) (unsettled : h.outcome? p = none) :
    h.Pending p := by
  rw [Pending, List.getElem?_eq_getElem known]
  rw [outcome?, List.getElem?_eq_getElem known] at unsettled
  exact congrArg some unsettled

theorem lt_of_outcome? (settled : h.outcome? p = some outcome) : p < h.size := by
  by_contra outside
  rw [outcome?, List.getElem?_eq_none (Nat.not_lt.mp outside)] at settled
  cases settled

@[simp] theorem size_create (o : Option (Outcome ε α)) : (h.create o).size = h.size + 1 := by
  simp [create, size]

theorem getElem?_create (o : Option (Outcome ε α)) (p : Nat) :
    (h.create o).outcomes[p]? = if p = h.size then some o else h.outcomes[p]? := by
  by_cases new : p = h.size
  · subst new
    simp [create, size]
  · rw [if_neg new, create, List.getElem?_append]
    split
    · rfl
    · rename_i outside
      have beyond : h.outcomes.length < p := by
        have : p ≠ h.outcomes.length := new
        omega
      rw [List.getElem?_eq_none (by simp; omega), List.getElem?_eq_none (by omega)]

theorem outcome?_create_of_lt (o : Option (Outcome ε α)) (known : p < h.size) :
    (h.create o).outcome? p = h.outcome? p := by
  rw [outcome?, outcome?, getElem?_create, if_neg (Nat.ne_of_lt known)]

theorem outcome?_create_self (o : Option (Outcome ε α)) : (h.create o).outcome? h.size = o := by
  rw [outcome?, getElem?_create, if_pos rfl]
  rfl

theorem pending_create_iff (o : Option (Outcome ε α)) :
    (h.create o).Pending p ↔ p = h.size ∧ o = none ∨ h.Pending p := by
  rw [Pending, getElem?_create]
  by_cases new : p = h.size
  · subst new
    have fresh : ¬h.Pending h.size := fun pending => Nat.lt_irrefl _ pending.lt
    simp [fresh]
  · simp [new, Pending]

@[simp] theorem outcome?_push (job : Job η ε α) : (h.push job).outcome? p = h.outcome? p := rfl

@[simp] theorem size_push (job : Job η ε α) : (h.push job).size = h.size := rfl

@[simp] theorem outcome?_subscribe (r : Reaction η) :
    (h.subscribe r).outcome? p = h.outcome? p := by
  rw [subscribe]
  split <;> rfl

@[simp] theorem size_subscribe (r : Reaction η) : (h.subscribe r).size = h.size := by
  rw [subscribe]
  split <;> rfl

theorem pending_subscribe_iff (r : Reaction η) : (h.subscribe r).Pending p ↔ h.Pending p := by
  rw [subscribe]
  split <;> rfl

/-- A new promise is nothing to what waits for an older one. -/
theorem create_subscribe {r : Reaction η} (o : Option (Outcome ε α)) (known : r.source < h.size) :
    (h.subscribe r).create o = (h.create o).subscribe r := by
  rw [subscribe, subscribe, outcome?_create_of_lt o known]
  split <;> rfl

variable (h p) in
theorem reactions_parts :
    (h.reactions.filter (·.source ≠ p) ++ h.reactions.filter (·.source = p)).Perm h.reactions := by
  have split := List.filter_append_perm (fun r : Reaction η => decide (r.source = p)) h.reactions
  refine List.perm_append_comm.trans ?_
  simpa using split

theorem settle_eq (pending : h.Pending p) :
    h.settle p outcome =
      { outcomes := h.outcomes.set p (some outcome)
        reactions := h.reactions.filter (·.source ≠ p)
        jobs := h.jobs ++ (h.reactions.filter (·.source = p)).map (·.job outcome) } := by
  rw [settle, pending]

@[simp] theorem size_settle : (h.settle p outcome).size = h.size := by
  rw [settle]
  split
  · simp [size]
  · rfl

theorem outcome?_settle_self (pending : h.Pending p) :
    (h.settle p outcome).outcome? p = some outcome := by
  rw [settle_eq pending, outcome?, List.getElem?_set_self pending.lt]
  rfl

theorem outcome?_settle_of_ne (other : q ≠ p) : (h.settle p outcome).outcome? q = h.outcome? q := by
  rw [settle]
  split
  · rw [outcome?, outcome?, List.getElem?_set_ne (Ne.symm other)]
  · rfl

/-- What has settled keeps its outcome. -/
theorem outcome?_settle_of_some {o : Outcome ε α} (settled : h.outcome? q = some o) :
    (h.settle p outcome).outcome? q = some o := by
  by_cases same : q = p
  · subst same
    rw [settle]
    split
    · rename_i pending
      rw [outcome?_of_pending pending] at settled
      cases settled
    · exact settled
  · rwa [outcome?_settle_of_ne same]

theorem pending_settle_iff (pending : h.Pending p) :
    (h.settle p outcome).Pending q ↔ h.Pending q ∧ q ≠ p := by
  rw [settle_eq pending, Pending]
  by_cases same : q = p
  · subst same
    simp [List.getElem?_set_self pending.lt]
  · simp [List.getElem?_set_ne (Ne.symm same), same, Pending]

/-! ### Every promise is settled by one party -/

theorem Linear.of_perm {theirs : List Nat} (linear : h.Linear others) (perm : others.Perm theirs) :
    h.Linear theirs where
  waits := linear.waits
  once := (perm.append_left h.owed).nodup_iff.mp linear.once
  pending p := (perm.append_left h.owed).mem_iff.symm.trans (linear.pending p)

theorem linear_empty : (empty : Promises η ε α).Linear [] where
  waits r member := by cases member
  once := List.nodup_nil
  pending p := by simp [empty, owed, Pending]

theorem Linear.pending_of_other (linear : h.Linear (p :: others)) : h.Pending p :=
  (linear.pending p).mp (by simp)

theorem Linear.create_settled (linear : h.Linear others) (o : Outcome ε α) :
    (h.create (some o)).Linear others where
  waits r member := (pending_create_iff _).mpr (.inr (linear.waits r member))
  once := linear.once
  pending p := by
    rw [pending_create_iff, ← linear.pending p]
    change p ∈ h.owed ++ others ↔ _
    simp

/-- A new promise is owed by whoever made it. -/
theorem Linear.create (linear : h.Linear others) : (h.create none).Linear (h.size :: others) where
  waits r member := (pending_create_iff _).mpr (.inr (linear.waits r member))
  once := by
    have fresh : h.size ∉ h.owed ++ others := fun member =>
      Nat.lt_irrefl _ ((linear.pending _).mp member).lt
    have moved : (h.size :: (h.owed ++ others)).Perm (h.owed ++ h.size :: others) :=
      List.perm_middle.symm
    exact moved.nodup_iff.mp (List.nodup_cons.mpr ⟨fresh, linear.once⟩)
  pending p := by
    rw [pending_create_iff, ← linear.pending p]
    change p ∈ h.owed ++ h.size :: others ↔ _
    simp only [List.mem_append, List.mem_cons, and_true]
    tauto

theorem Linear.push {job : Job η ε α} (linear : h.Linear (job.derived :: others)) :
    (h.push job).Linear others := by
  have same : (h.push job).owed ++ others = h.owed ++ job.derived :: others := by
    simp [owed, Promises.push]
  refine ⟨linear.waits, ?_, fun p => ?_⟩
  · rw [same]
    exact linear.once
  · rw [same]
    exact linear.pending p

/-- Who subscribes hands over what it owes. -/
theorem Linear.subscribe {r : Reaction η} (linear : h.Linear (r.derived :: others))
    (known : r.source < h.size) : (h.subscribe r).Linear others := by
  rw [Promises.subscribe]
  split
  · rename_i unsettled
    have moved : (h.owed ++ r.derived :: others).Perm
        ((h.reactions ++ [r]).map Reaction.derived ++ h.jobs.map Job.derived ++ others) := by
      rw [owed, List.map_append, List.append_assoc, List.append_assoc, List.append_assoc]
      exact List.Perm.append_left _ List.perm_middle
    refine ⟨fun x member => ?_, moved.nodup_iff.mp linear.once, fun p => ?_⟩
    · rcases List.mem_append.mp member with old | new
      · exact linear.waits x old
      · cases List.mem_singleton.mp new
        exact pending_of_outcome? known unsettled
    · exact moved.mem_iff.symm.trans (linear.pending p)
  · rename_i outcome settled
    exact Linear.push (by rwa [Reaction.job_derived])

/-- The job that is next is taken off the queue, and who takes it owes what it owed. -/
theorem Linear.pop {job : Job η ε α} {rest : List (Job η ε α)} (linear : h.Linear others)
    (next : h.jobs = job :: rest) : { h with jobs := rest }.Linear (job.derived :: others) := by
  have moved : (h.owed ++ others).Perm
      (h.reactions.map Reaction.derived ++ rest.map Job.derived ++ job.derived :: others) := by
    rw [owed, next, List.map_cons, List.append_assoc, List.append_assoc, List.cons_append]
    exact List.Perm.append_left _ List.perm_middle.symm
  exact ⟨linear.waits, moved.nodup_iff.mp linear.once,
    fun p => moved.mem_iff.symm.trans (linear.pending p)⟩

/-- Who owes an outcome settles the promise. -/
theorem Linear.settle (linear : h.Linear (p :: others)) : (h.settle p outcome).Linear others := by
  have pending := linear.pending_of_other
  -- The reactions of the promise become jobs, which owe what the reactions owed.
  have moved : ((h.settle p outcome).owed ++ others).Perm (h.owed ++ others) := by
    have derived := (h.reactions_parts p).map Reaction.derived
    rw [settle_eq pending, owed, owed]
    simp only [List.map_append, List.map_map, Function.comp_def, Reaction.job_derived] at derived ⊢
    refine List.Perm.append_right others ?_
    refine List.Perm.trans ?_ (derived.append_right _)
    rw [List.append_assoc]
    exact List.Perm.append_left _ List.perm_append_comm
  have moved_out : (h.owed ++ p :: others).Perm (p :: ((h.settle p outcome).owed ++ others)) :=
    List.perm_middle.trans (moved.symm.cons p)
  have distinct := moved_out.nodup_iff.mp linear.once
  refine ⟨fun r member => ?_, (List.nodup_cons.mp distinct).2, fun q => ?_⟩
  · rw [settle_eq pending] at member
    obtain ⟨old, other⟩ := List.mem_filter.mp member
    exact (pending_settle_iff pending).mpr ⟨linear.waits r old, by simpa using other⟩
  · rw [pending_settle_iff pending, ← linear.pending q, moved_out.mem_iff, List.mem_cons]
    constructor
    · intro member
      exact ⟨.inr member, fun same => (List.nodup_cons.mp distinct).1 (same ▸ member)⟩
    · rintro ⟨same | member, other⟩
      · exact absurd same other
      · exact member

end Promises

end Foundation
