import Mathlib

/-!
# Texts that can be told from what follows

A value is told by its text if, wherever the rest stops it, the text followed by the rest
leaves only one value and one rest. Nothing here depends on what the values are.
-/
namespace Foundation

variable {α χ : Type*}

/-- The rest is empty, or it begins with a symbol that ends a text. -/
def Stops (ends : χ → Prop) (rest : List χ) : Prop := ∀ c ∈ rest.head?, ends c

/-- The text of the value, followed by a rest that stops it, is no other text. -/
def Told (ends : χ → Prop) (text : α → List χ) (a : α) : Prop :=
  ∀ b rest rest', Stops ends rest → Stops ends rest' → text a ++ rest = text b ++ rest' →
    a = b ∧ rest = rest'

section

variable {ends : χ → Prop} {text : α → List χ}

theorem stops_cons {c : χ} {rest : List χ} (ending : ends c) : Stops ends (c :: rest) := by
  intro d head
  cases head
  exact ending

theorem stops_nil : Stops ends [] := by
  intro d head
  cases head

/-- An injective text of symbols none of which ends a text. -/
theorem told_of_inside (inside : χ → Bool) (within : ∀ a, ∀ c ∈ text a, inside c = true)
    (apart : ∀ c, ends c → inside c = false) (injective : ∀ a b, text a = text b → a = b) (a : α) :
    Told ends text a := by
  have taken : ∀ b rest, Stops ends rest → (text b ++ rest).takeWhile inside = text b := by
    intro b rest stops
    rw [List.takeWhile_append_of_pos (within b)]
    cases rest with
    | nil => simp
    | cons c rest =>
      have outside : inside c = false := apart c (stops c rfl)
      rw [List.takeWhile_cons_of_neg (by simp [outside]), List.append_nil]
  intro b rest rest' stops stops' same
  have heads : text a = text b := by
    rw [← taken a rest stops, same, taken b rest' stops']
  rw [heads] at same
  exact ⟨injective a b heads, List.append_cancel_left same⟩

/-! ### Lists -/

section Separated

variable {sep close : χ}

theorem intercalate_eq_flatMap (a : α) (as : List α) :
    [sep].intercalate ((a :: as).map text) = text a ++ as.flatMap fun b => sep :: text b := by
  induction as generalizing a with
  | nil => simp
  | cons b as ih =>
    have tail := ih b
    rw [List.map_cons] at tail
    rw [List.map_cons, List.map_cons, List.intercalate_cons_cons, tail]
    simp

theorem separated_told (sep_ends : ends sep) (close_ends : ends close) (apart : sep ≠ close)
    {as : List α} (told : ∀ a ∈ as, Told ends text a) :
    ∀ {bs : List α} {rest rest' : List χ},
      (as.flatMap fun a => sep :: text a) ++ close :: rest =
        (bs.flatMap fun b => sep :: text b) ++ close :: rest' → as = bs ∧ rest = rest' := by
  have stops : ∀ (cs : List α) (rest : List χ),
      Stops ends ((cs.flatMap fun c => sep :: text c) ++ close :: rest) := by
    intro cs rest
    cases cs with
    | nil => exact stops_cons close_ends
    | cons c cs => exact stops_cons sep_ends
  induction as with
  | nil =>
    intro bs rest rest' same
    cases bs with
    | nil => exact ⟨rfl, by simpa using same⟩
    | cons b bs =>
      simp only [List.flatMap_nil, List.nil_append, List.flatMap_cons, List.cons_append,
        List.cons.injEq] at same
      exact absurd same.1.symm apart
  | cons a as ih =>
    intro bs rest rest' same
    cases bs with
    | nil =>
      simp only [List.flatMap_nil, List.nil_append, List.flatMap_cons, List.cons_append,
        List.cons.injEq] at same
      exact absurd same.1 apart
    | cons b bs =>
      simp only [List.flatMap_cons, List.cons_append, List.append_assoc, List.cons.injEq,
        true_and] at same
      obtain ⟨rfl, later⟩ := told a (by simp) b _ _ (stops as rest) (stops bs rest') same
      obtain ⟨rfl, rfl⟩ := ih (fun c member => told c (by simp [member])) later
      exact ⟨rfl, rfl⟩

/-- Items that are told, separated and closed, are told as a list. -/
theorem list_told (sep_ends : ends sep) (close_ends : ends close) (apart : sep ≠ close)
    (opens : ∀ a, ∃ c tail, text a = c :: tail ∧ c ≠ close)
    {as bs : List α} {rest rest' : List χ} (told : ∀ a ∈ as, Told ends text a)
    (same : [sep].intercalate (as.map text) ++ close :: rest =
      [sep].intercalate (bs.map text) ++ close :: rest') : as = bs ∧ rest = rest' := by
  have empty : ∀ (c : α) (cs : List α) (rest rest' : List χ),
      close :: rest ≠ [sep].intercalate ((c :: cs).map text) ++ close :: rest' := by
    intro c cs rest rest' clash
    obtain ⟨d, tail, text_c, other⟩ := opens c
    rw [intercalate_eq_flatMap, text_c] at clash
    simp only [List.cons_append, List.cons.injEq] at clash
    exact other clash.1.symm
  cases as with
  | nil =>
    cases bs with
    | nil => exact ⟨rfl, by simpa using same⟩
    | cons b bs => exact absurd (by simpa using same) (empty b bs rest rest')
  | cons a as =>
    cases bs with
    | nil => exact absurd (by simpa using same.symm) (empty a as rest' rest)
    | cons b bs =>
      -- a leading separator turns both lists into ones of separated items
      rw [intercalate_eq_flatMap, intercalate_eq_flatMap] at same
      refine separated_told sep_ends close_ends apart told ?_
      simp only [List.flatMap_cons, List.cons_append, List.append_assoc] at same ⊢
      rw [same]

end Separated

/-! ### Codes -/

/-- A string of codes that cannot be confused, up to a symbol that begins none of them. -/
theorem coded_told {β : Type*} {code : β → List χ} {close : χ}
    (readable : ∀ c d rest rest', code c ++ rest = code d ++ rest' → c = d ∧ rest = rest')
    (opens : ∀ c, ∃ e tail, code c = e :: tail ∧ e ≠ close) {cs : List β} :
    ∀ {ds : List β} {rest rest' : List χ},
      cs.flatMap code ++ close :: rest = ds.flatMap code ++ close :: rest' →
        cs = ds ∧ rest = rest' := by
  have closed : ∀ (c : β) (tail rest : List χ), code c ++ tail ≠ close :: rest := by
    intro c tail rest clash
    obtain ⟨e, more, code_c, other⟩ := opens c
    rw [code_c] at clash
    simp only [List.cons_append, List.cons.injEq] at clash
    exact other clash.1
  induction cs with
  | nil =>
    intro ds rest rest' same
    cases ds with
    | nil => exact ⟨rfl, by simpa using same⟩
    | cons d ds =>
      simp only [List.flatMap_nil, List.nil_append, List.flatMap_cons, List.append_assoc] at same
      exact absurd same.symm (closed d _ rest)
  | cons c cs ih =>
    intro ds rest rest' same
    cases ds with
    | nil =>
      simp only [List.flatMap_nil, List.nil_append, List.flatMap_cons, List.append_assoc] at same
      exact absurd same (closed c _ rest')
    | cons d ds =>
      simp only [List.flatMap_cons, List.append_assoc] at same
      obtain ⟨rfl, later⟩ := readable c d _ _ same
      obtain ⟨rfl, rfl⟩ := ih later
      exact ⟨rfl, rfl⟩

end

end Foundation
