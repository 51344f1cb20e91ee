import Mathlib

/-!
# Runs of a partial step function

A system is a function from a state and an action to the next state, undefined
where the action is not enabled. Everything here holds of any such function.
-/
namespace Foundation

variable {σ α : Type*}

/-- One step of a run, with the state it left and the state it reached. -/
structure Transition (σ α : Type*) where
  source : σ
  act : α
  target : σ

/-- The transitions `ts` lead from the first state to the second, in order. -/
inductive Run (step : σ → α → Option σ) : σ → List (Transition σ α) → σ → Prop
  | done (s) : Run step s [] s
  | step {s t u a ts} : step s a = some t → Run step t ts u → Run step s (⟨s, a, t⟩ :: ts) u

namespace Run

variable {step : σ → α → Option σ}

/-- Every transition of a run is a step of the system. -/
theorem steps {s u : σ} {ts : List (Transition σ α)} (run : Run step s ts u) :
    ∀ tr ∈ ts, step tr.source tr.act = some tr.target := by
  induction run with
  | done => simp
  | step taken _ ih =>
    intro tr member
    rcases List.mem_cons.mp member with rfl | tail
    · exact taken
    · exact ih tr tail

/-- What holds at the start and survives every allowed step holds throughout the run. -/
theorem invariant_of {P : σ → Prop} (Allowed : Transition σ α → Prop)
    (preserved : ∀ tr : Transition σ α, step tr.source tr.act = some tr.target →
      Allowed tr → P tr.source → P tr.target)
    {s u : σ} {ts : List (Transition σ α)} (run : Run step s ts u)
    (allowed : ∀ tr ∈ ts, Allowed tr) (initial : P s) :
    P u ∧ ∀ tr ∈ ts, P tr.source ∧ P tr.target := by
  induction run with
  | done => exact ⟨initial, by simp⟩
  | @step s t u a ts taken _ ih =>
    have next : P t := preserved ⟨s, a, t⟩ taken (allowed _ (by simp)) initial
    obtain ⟨final, rest⟩ := ih (fun tr member => allowed tr (by simp [member])) next
    refine ⟨final, fun tr member => ?_⟩
    rcases List.mem_cons.mp member with rfl | tail
    · exact ⟨initial, next⟩
    · exact rest tr tail

/-- What holds at the start and survives every step holds throughout the run. -/
theorem invariant {P : σ → Prop}
    (preserved : ∀ s a t, step s a = some t → P s → P t)
    {s u : σ} {ts : List (Transition σ α)} (run : Run step s ts u) (initial : P s) :
    P u ∧ ∀ tr ∈ ts, P tr.source ∧ P tr.target :=
  run.invariant_of (fun _ => True) (fun _ taken _ => preserved _ _ _ taken)
    (fun _ _ => trivial) initial

/-- What a step keeps, of the state and of all that led to it, a run keeps. -/
theorem traced {P : List (Transition σ α) → σ → Prop}
    (preserved : ∀ before s a t, step s a = some t → P before s → P (before ++ [⟨s, a, t⟩]) t)
    {s u : σ} {ts : List (Transition σ α)} (run : Run step s ts u) :
    ∀ before, P before s → P (before ++ ts) u := by
  induction run with
  | done => simp
  | @step s t u a ts taken _ ih =>
    intro before initial
    have next := ih _ (preserved before s a t taken initial)
    rwa [List.append_assoc, List.singleton_append] at next

theorem append {s t u : σ} {ts us : List (Transition σ α)} (first : Run step s ts t)
    (second : Run step t us u) : Run step s (ts ++ us) u := by
  induction first with
  | done => exact second
  | step taken _ ih => exact .step taken (ih second)

theorem single {s t : σ} {a : α} (taken : step s a = some t) : Run step s [⟨s, a, t⟩] t :=
  .step taken (.done t)

/-- A run can be cut anywhere. -/
theorem split {s u : σ} {ts us : List (Transition σ α)} (run : Run step s (ts ++ us) u) :
    ∃ m, Run step s ts m ∧ Run step m us u := by
  induction ts generalizing s with
  | nil => exact ⟨s, .done s, run⟩
  | cons tr ts ih =>
    cases run with
    | step taken rest =>
      obtain ⟨m, first, second⟩ := ih rest
      exact ⟨m, .step taken first, second⟩

/-- A run can be cut at any of its transitions. -/
theorem split_cons {s u : σ} {ts us : List (Transition σ α)} {tr : Transition σ α}
    (run : Run step s (ts ++ tr :: us) u) :
    Run step s ts tr.source ∧ step tr.source tr.act = some tr.target ∧ Run step tr.target us u := by
  obtain ⟨m, first, second⟩ := run.split
  cases second with
  | step taken rest => exact ⟨first, taken, rest⟩

/-- A run can be cut before any of its transitions. -/
theorem before {s u : σ} {ts : List (Transition σ α)} (run : Run step s ts u)
    (tr : Transition σ α) (member : tr ∈ ts) : ∃ us, Run step s us tr.source := by
  induction run with
  | done => simp at member
  | step taken _ ih =>
    rcases List.mem_cons.mp member with rfl | tail
    · exact ⟨[], .done _⟩
    · obtain ⟨us, rest⟩ := ih tail
      exact ⟨_, .step taken rest⟩

end Run

/-- Perform a list of actions, if every one of them is enabled in its turn. -/
def perform (step : σ → α → Option σ) (s : σ) : List α → Option σ
  | [] => some s
  | a :: as => (step s a).bind fun t => perform step t as

/-- The transitions of a list of actions, as far as they are enabled. -/
def transitions (step : σ → α → Option σ) (s : σ) : List α → List (Transition σ α)
  | [] => []
  | a :: as =>
    match step s a with
    | none => []
    | some t => ⟨s, a, t⟩ :: transitions step t as

theorem run_of_perform (step : σ → α → Option σ) (as : List α) (s u : σ)
    (performed : perform step s as = some u) : Run step s (transitions step s as) u := by
  induction as generalizing s with
  | nil =>
    cases performed
    exact .done _
  | cons a as ih =>
    cases taken : step s a with
    | none => simp [perform, taken] at performed
    | some t =>
      simp only [perform, taken, Option.bind_some] at performed
      simp only [transitions, taken]
      exact .step taken (ih t performed)

/-- Where all of the actions are enabled, they are what is performed. -/
theorem acts_of_perform {step : σ → α → Option σ} {as : List α} {s u : σ}
    (performed : perform step s as = some u) :
    (transitions step s as).map Transition.act = as := by
  induction as generalizing s with
  | nil => rfl
  | cons a as ih =>
    cases taken : step s a with
    | none => simp [perform, taken] at performed
    | some t =>
      simp only [perform, taken, Option.bind_some] at performed
      simp only [transitions, taken, List.map_cons, ih performed]

theorem perform_append {step : σ → α → Option σ} {s t u : σ} {as bs : List α}
    (first : perform step s as = some t) (second : perform step t bs = some u) :
    perform step s (as ++ bs) = some u := by
  induction as generalizing s with
  | nil =>
    cases first
    exact second
  | cons a as ih =>
    cases taken : step s a with
    | none => simp [perform, taken] at first
    | some next =>
      simp only [perform, taken, Option.bind_some, List.cons_append] at first ⊢
      exact ih first

/-- Only the listed actions are performed. -/
theorem act_mem_of_transitions {step : σ → α → Option σ} {as : List α} {s : σ}
    {tr : Transition σ α} (member : tr ∈ transitions step s as) : tr.act ∈ as := by
  induction as generalizing s with
  | nil => cases member
  | cons a as ih =>
    simp only [transitions] at member
    split at member
    · cases member
    · rcases List.mem_cons.mp member with rfl | rest
      · exact List.mem_cons_self
      · exact List.mem_cons_of_mem a (ih rest)

end Foundation
