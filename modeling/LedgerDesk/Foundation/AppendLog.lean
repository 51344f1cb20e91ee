import Mathlib

/-!
# Append-only logs

What is asked of an element of a log may depend on everything that stands before it,
and on nothing that comes after.
-/
namespace Foundation

variable {β : Type*}

/-- Every element of the log stands in `P` to the elements before it. -/
def Positioned (P : List β → β → Prop) (log : List β) : Prop :=
  ∀ before b after, log = before ++ b :: after → P before b

namespace Positioned

variable {P Q : List β → β → Prop} {log : List β}

theorem nil : Positioned P [] := by
  intro before b after cut
  simp at cut

/-- A log is extended by one element that fits behind it. -/
theorem concat {b : β} (log_fits : Positioned P log) (fits : P log b) :
    Positioned P (log ++ [b]) := by
  intro before c after cut
  rcases List.append_eq_append_iff.mp cut with ⟨middle, rfl, tail⟩ | ⟨middle, rfl, tail⟩
  · cases middle with
    | nil =>
      simp only [List.nil_append, List.cons.injEq] at tail
      obtain ⟨rfl, -⟩ := tail
      simpa using fits
    | cons m middle => simp at tail
  · cases middle with
    | nil =>
      simp only [List.nil_append, List.cons.injEq] at tail
      obtain ⟨rfl, -⟩ := tail
      simpa using fits
    | cons m middle =>
      simp only [List.cons_append, List.cons.injEq] at tail
      obtain ⟨rfl, -⟩ := tail
      exact log_fits before c middle rfl

theorem last {b : β} (log_fits : Positioned P (log ++ [b])) : P log b :=
  log_fits log b [] rfl

theorem of_mem {b : β} (log_fits : Positioned P log) (member : b ∈ log) :
    ∃ before after, log = before ++ b :: after ∧ P before b := by
  obtain ⟨before, after, cut⟩ := List.append_of_mem member
  exact ⟨before, after, cut, log_fits before b after cut⟩

theorem mono (log_fits : Positioned P log) (weaker : ∀ before b, P before b → Q before b) :
    Positioned Q log :=
  fun before b after cut => weaker before b (log_fits before b after cut)

end Positioned

end Foundation
