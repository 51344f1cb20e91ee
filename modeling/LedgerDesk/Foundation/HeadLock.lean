import LedgerDesk.Foundation.Runs

/-!
# A value under one row lock

Transactions operate on a value they all keep in one row. The first operation of a transaction
takes the lock of the row without waiting, and keeps it to the end of the transaction; an
operation that is refused ends the transaction, and what it did is undone. So a transaction
sees what is committed and its own, and commits read in order are one sequential history.
-/
namespace Foundation.HeadLock

/-- The transaction that has the lock: the value as it sees it, and what it was returned. -/
structure Held (ι σ δ : Type*) where
  owner : ι
  view : σ
  log : List δ

structure LockState (ι σ δ : Type*) where
  committed : σ
  holder : Option (Held ι σ δ)

inductive LockAct (ι α : Type*) where
  | statement (owner : ι) (call : α)
  | commit (owner : ι)
  | rollback (owner : ι)

section Lock

variable {ι σ α ε δ : Type*} [DecidableEq ι] (op : σ → α → Except ε (σ × δ))

def lockStep (s : LockState ι σ δ) : LockAct ι α → Option (LockState ι σ δ)
  | .statement i call =>
    match s.holder with
    | none =>
      match op s.committed call with
      | .ok (view, result) => some { s with holder := some ⟨i, view, [result]⟩ }
      | .error _ => some s
    | some held =>
      if held.owner = i then
        match op held.view call with
        | .ok (view, result) =>
          some { s with holder := some { held with view, log := held.log ++ [result] } }
        | .error _ => some { s with holder := none }
      else some s
  | .commit i =>
    match s.holder with
    | some held => if held.owner = i then some ⟨held.view, none⟩ else none
    | none => none
  | .rollback i =>
    match s.holder with
    | some held => if held.owner = i then some { s with holder := none } else none
    | none => none

def lockStart (value : σ) : LockState ι σ δ := ⟨value, none⟩

/-- The value a statement of the transaction would work on, where the lock lets it. -/
def sightOf (s : LockState ι σ δ) (i : ι) : Option σ :=
  match s.holder with
  | none => some s.committed
  | some held => if held.owner = i then some held.view else none

/-- What the statement of a step was returned. -/
def returned (tr : Transition (LockState ι σ δ) (LockAct ι α)) : Option δ :=
  match tr.act with
  | .statement i call =>
    (sightOf tr.source i).bind fun view => ((op view call).toOption).map Prod.snd
  | _ => none

/-- What the transaction that a step commits had been returned. -/
def committedLog (tr : Transition (LockState ι σ δ) (LockAct ι α)) : Option (List δ) :=
  match tr.act with
  | .commit i => tr.source.holder.bind fun held => if held.owner = i then some held.log else none
  | _ => none

/-- The operations lead from one value to the other, and returned the results. -/
inductive Replay : σ → List δ → σ → Prop
  | nil (a) : Replay a [] a
  | cons {a b c call d log} : op a call = .ok (b, d) → Replay b log c → Replay a (d :: log) c

/-- What a step can do to what is committed. -/
inductive Commits (s : LockState ι σ δ) (act : LockAct ι α) (t : LockState ι σ δ) : Prop
  | none (unchanged : t.committed = s.committed) (quiet : committedLog ⟨s, act, t⟩ = none)
  | some {held} (holder : s.holder = some held) (log : committedLog ⟨s, act, t⟩ = some held.log)
      (committed : t.committed = held.view) (free : t.holder = none)

/-- The view of the lock's holder is what its operations make of what is committed. -/
def Sound (s : LockState ι σ δ) : Prop :=
  ∀ held, s.holder = some held → Replay op s.committed held.log held.view

variable {op} {s t : LockState ι σ δ} {act : LockAct ι α}

theorem Replay.concat {a b c : σ} {call : α} {d : δ} {log : List δ} (replay : Replay op a log b)
    (step : op b call = .ok (c, d)) : Replay op a (log ++ [d]) c := by
  induction replay with
  | nil => exact .cons step (.nil _)
  | cons first _ ih => exact .cons first (ih step)

/-- What every operation keeps, a transaction keeps. -/
theorem Replay.invariant {P : σ → Prop}
    (kept : ∀ a call b d, op a call = .ok (b, d) → P a → P b) {a b : σ} {log : List δ}
    (replay : Replay op a log b) (initial : P a) : P b := by
  induction replay with
  | nil => exact initial
  | cons step _ ih => exact ih (kept _ _ _ _ step initial)

/-- A relation that every operation is within holds between the ends of a transaction. -/
theorem Replay.within {R : σ → σ → Prop} (refl : ∀ a, R a a)
    (trans : ∀ a b c, R a b → R b c → R a c)
    (step : ∀ a call b d, op a call = .ok (b, d) → R a b) {a b : σ} {log : List δ}
    (replay : Replay op a log b) : R a b := by
  induction replay with
  | nil => exact refl _
  | cons first _ ih => exact trans _ _ _ (step _ _ _ _ first) ih

theorem lockStep_commits (taken : lockStep op s act = some t) : Commits s act t := by
  cases act with
  | statement i call =>
    refine .none ?_ rfl
    simp only [lockStep] at taken
    split at taken
    · split at taken <;> cases taken <;> rfl
    · split at taken
      · split at taken <;> cases taken <;> rfl
      · cases taken
        rfl
  | commit i =>
    simp only [lockStep] at taken
    split at taken
    · next held holder =>
      split at taken
      · next mine =>
        cases taken
        exact .some holder (by simp [committedLog, holder, mine]) rfl rfl
      · cases taken
    · cases taken
  | rollback i =>
    refine .none ?_ rfl
    simp only [lockStep] at taken
    split at taken
    · split at taken
      · cases taken
        rfl
      · cases taken
    · cases taken

theorem lockStep_sound (taken : lockStep op s act = some t) (sound : Sound op s) :
    Sound op t := by
  cases act with
  | statement i call =>
    simp only [lockStep] at taken
    split at taken
    · split at taken
      · next view result step =>
        cases taken
        rintro held ⟨⟩
        exact .cons step (.nil _)
      · cases taken
        exact sound
    · next held holder =>
      split at taken
      · split at taken
        · next view result step =>
          cases taken
          rintro held' ⟨⟩
          exact (sound held holder).concat step
        · cases taken
          exact nofun
      · cases taken
        exact sound
  | commit i =>
    simp only [lockStep] at taken
    split at taken
    · split at taken
      · cases taken
        exact nofun
      · cases taken
    · cases taken
  | rollback i =>
    simp only [lockStep] at taken
    split at taken
    · split at taken
      · cases taken
        exact nofun
      · cases taken
    · cases taken

omit [DecidableEq ι] in
theorem sound_start (value : σ) : Sound op (lockStart (ι := ι) value) := nofun

/-- A commit replays its transaction over what was committed. -/
theorem Sound.commit (sound : Sound op s) {log : List δ} (commits : Commits s act t)
    (logged : committedLog ⟨s, act, t⟩ = some log) : Replay op s.committed log t.committed := by
  cases commits with
  | none _ quiet =>
    rw [quiet] at logged
    cases logged
  | some holder log' committed =>
    rw [log', Option.some.injEq] at logged
    rw [committed, ← logged]
    exact sound _ holder

/-! ### Runs -/

section Runs

variable {u : LockState ι σ δ} {ts : List (Transition (LockState ι σ δ) (LockAct ι α))}

theorem sound_run (run : Run (lockStep op) s ts u) (sound : Sound op s) :
    Sound op u ∧ ∀ tr ∈ ts, Sound op tr.source ∧ Sound op tr.target :=
  run.invariant (fun _ _ _ taken sound => lockStep_sound taken sound) sound

/-- Every commit of a run is a replay. -/
theorem commits_run (run : Run (lockStep op) s ts u) (sound : Sound op s)
    {tr : Transition (LockState ι σ δ) (LockAct ι α)} (member : tr ∈ ts) {log : List δ}
    (logged : committedLog tr = some log) : Replay op tr.source.committed log tr.target.committed :=
  ((sound_run run sound).2 tr member).1.commit (lockStep_commits (run.steps tr member)) logged

/-- What every operation keeps holds of what is committed and of what the holder sees. -/
theorem committed_invariant {P : σ → Prop}
    (kept : ∀ a call b d, op a call = .ok (b, d) → P a → P b)
    (run : Run (lockStep op) s ts u) (sound : Sound op s) (initial : P s.committed) :
    P u.committed ∧ ∀ tr ∈ ts, P tr.source.committed ∧ P tr.target.committed := by
  have both := run.invariant (P := fun s => Sound op s ∧ P s.committed)
    (fun s act t taken held => by
      refine ⟨lockStep_sound taken held.1, ?_⟩
      cases lockStep_commits taken with
      | none unchanged => rw [unchanged]; exact held.2
      | some holder log committed =>
        rw [committed]
        exact (held.1 _ holder).invariant kept held.2) ⟨sound, initial⟩
  exact ⟨both.1.2, fun tr member => ⟨(both.2 tr member).1.2, (both.2 tr member).2.2⟩⟩

/-- A relation that every operation is within holds between any two committed values of a run,
the earlier to the later. -/
theorem committed_within {R : σ → σ → Prop} (refl : ∀ a, R a a)
    (trans : ∀ a b c, R a b → R b c → R a c)
    (within : ∀ a call b d, op a call = .ok (b, d) → R a b)
    (run : Run (lockStep op) s ts u) (sound : Sound op s) : R s.committed u.committed := by
  induction run with
  | done => exact refl _
  | step taken _ ih =>
    refine trans _ _ _ ?_ (ih (lockStep_sound taken sound))
    cases lockStep_commits taken with
    | none unchanged => rw [unchanged]; exact refl _
    | some holder log committed =>
      rw [committed]
      exact (sound _ holder).within refl trans within

end Runs

end Lock

end Foundation.HeadLock
