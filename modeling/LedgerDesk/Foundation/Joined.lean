import Mathlib

/-!
# Joined texts

Words joined by a separator that none of them holds. One joined text begins another, or lies in
it, as the words do, except that the outermost words may stand there in part.
-/
namespace Foundation

variable {χ : Type*}

/-- The words begin the others, the last of them in part perhaps. -/
def Begins : List (List χ) → List (List χ) → Prop
  | [], _ => True
  | _ :: _, [] => False
  | [w], d :: _ => w <+: d
  | w :: w' :: ws, d :: ds => w = d ∧ Begins (w' :: ws) ds

/-- The words lie in the others, the first and the last of them in part perhaps. -/
def LiesIn : List (List χ) → List (List χ) → Prop
  | [], _ => True
  | _ :: _, [] => False
  | [w], d :: ds => w <:+: d ∨ LiesIn [w] ds
  | w :: w' :: ws, d :: ds => w <:+ d ∧ Begins (w' :: ws) ds ∨ LiesIn (w :: w' :: ws) ds

theorem Begins.of_prefix {ws ds : List (List χ)} (whole : ws <+: ds) : Begins ws ds := by
  induction ws, ds using Begins.induct with
  | case1 ds => trivial
  | case2 w ws => exact absurd (List.prefix_nil.mp whole) (by simp)
  | case3 w d ds =>
    rw [Begins, (List.cons_prefix_cons.mp whole).1]
  | case4 w w' ws d ds ih =>
    obtain ⟨rfl, later⟩ := List.cons_prefix_cons.mp whole
    exact ⟨rfl, ih later⟩

/-- Words that stand in the others as whole words lie in them. -/
theorem LiesIn.of_infix {ws ds : List (List χ)} (whole : ws <:+: ds) : LiesIn ws ds := by
  induction ws, ds using LiesIn.induct with
  | case1 ds => simp [LiesIn]
  | case2 w ws => exact absurd (List.infix_nil.mp whole) (by simp)
  | case3 w d ds ih =>
    rcases List.infix_cons_iff.mp whole with begins | later
    · obtain ⟨rfl, -⟩ := List.cons_prefix_cons.mp begins
      exact .inl List.infix_rfl
    · exact .inr (ih later)
  | case4 w w' ws d ds ih =>
    rcases List.infix_cons_iff.mp whole with begins | later
    · obtain ⟨rfl, rest⟩ := List.cons_prefix_cons.mp begins
      exact .inl ⟨List.suffix_rfl, Begins.of_prefix rest⟩
    · exact .inr (ih later)

section Joined

variable (sep : χ)

def joined (words : List (List χ)) : List χ := [sep].intercalate words

/-- What a joined text is made of. -/
def Unseparated (words : List (List χ)) : Prop := ∀ w ∈ words, w ≠ [] ∧ sep ∉ w

variable {sep}

theorem joined_cons_cons (w w' : List χ) (ws : List (List χ)) :
    joined sep (w :: w' :: ws) = w ++ sep :: joined sep (w' :: ws) := by
  simp [joined, List.intercalate_cons_cons]

@[simp] theorem joined_singleton (w : List χ) : joined sep [w] = w := by simp [joined]

@[simp] theorem joined_nil : joined sep ([] : List (List χ)) = [] := by simp [joined]

theorem joined_ne_nil {w : List χ} {ws : List (List χ)} (told : Unseparated sep (w :: ws)) :
    joined sep (w :: ws) ≠ [] := by
  have here := (told w List.mem_cons_self).1
  cases ws with
  | nil => simpa using here
  | cons w' ws => simp [joined_cons_cons]

/-- What follows the first word of a joined text: nothing, or the separator and the rest. -/
theorem joined_split (sep : χ) (d : List χ) (ds : List (List χ)) :
    ∃ rest, joined sep (d :: ds) = d ++ rest ∧
      (ds = [] ∧ rest = [] ∨ ds ≠ [] ∧ rest = sep :: joined sep ds) := by
  cases ds with
  | nil => exact ⟨[], by simp, .inl ⟨rfl, rfl⟩⟩
  | cons d' ds => exact ⟨_, joined_cons_cons d d' ds, .inr ⟨by simp, rfl⟩⟩

/-- A word without the separator is a prefix of a text up to its first separator. -/
theorem prefix_unseparated {w d rest : List χ} (inside : sep ∉ w)
    (stops : rest = [] ∨ ∃ more, rest = sep :: more) : w <+: d ++ rest ↔ w <+: d := by
  constructor
  · intro begins
    rcases List.prefix_or_prefix_of_prefix begins (List.prefix_append d rest) with short | long
    · exact short
    · obtain ⟨extra, rfl⟩ := long
      obtain ⟨more, whole⟩ := begins
      rw [List.append_assoc, List.append_cancel_left_eq] at whole
      cases extra with
      | nil => simp
      | cons c extra =>
        rcases stops with rfl | ⟨tail, rfl⟩
        · cases whole
        · have head := (List.cons.inj whole).1
          exact absurd (by simp [head]) inside
  · intro begins
    exact begins.trans (List.prefix_append d rest)

/-- Two words of one text that both stop at its first separator are one. -/
theorem prefix_separator {w d more rest : List χ} (inside : sep ∉ w) (within : sep ∉ d)
    (stops : rest = [] ∨ ∃ tail, rest = sep :: tail) :
    w ++ sep :: more <+: d ++ rest ↔ w = d ∧ sep :: more <+: rest := by
  constructor
  · intro begins
    have short : w <+: d :=
      (prefix_unseparated inside stops).mp ((List.prefix_append w _).trans begins)
    obtain ⟨extra, rfl⟩ := short
    rw [List.append_assoc, List.prefix_append_right_inj] at begins
    cases extra with
    | nil => exact ⟨by simp, by simpa using begins⟩
    | cons c extra =>
      obtain ⟨tail, whole⟩ := begins
      have head := (List.cons.inj whole).1
      exact absurd (by simp [head]) within
  · rintro ⟨rfl, begins⟩
    exact (List.prefix_append_right_inj w).mpr begins

theorem joined_prefix_iff {ws ds : List (List χ)} (told : Unseparated sep ws)
    (others : Unseparated sep ds) : joined sep ws <+: joined sep ds ↔ Begins ws ds := by
  induction ws, ds using Begins.induct with
  | case1 ds => simp [Begins]
  | case2 w ws => simpa [Begins] using joined_ne_nil told
  | case3 w d ds =>
    obtain ⟨rest, text, ends⟩ := joined_split sep d ds
    rw [joined_singleton, text, Begins]
    refine prefix_unseparated (told w List.mem_cons_self).2 ?_
    rcases ends with ⟨-, none⟩ | ⟨-, more⟩
    · exact .inl none
    · exact .inr ⟨_, more⟩
  | case4 w w' ws d ds ih =>
    have later := ih (fun v member => told v (List.mem_cons_of_mem _ member))
      fun v member => others v (List.mem_cons_of_mem _ member)
    obtain ⟨rest, text, ends⟩ := joined_split sep d ds
    have stops : rest = [] ∨ ∃ tail, rest = sep :: tail := by
      rcases ends with ⟨-, none⟩ | ⟨-, more⟩
      · exact .inl none
      · exact .inr ⟨_, more⟩
    rw [joined_cons_cons, text, Begins,
      prefix_separator (told w List.mem_cons_self).2 (others d List.mem_cons_self).2 stops]
    refine and_congr_right fun _ => ?_
    rcases ends with ⟨rfl, rfl⟩ | ⟨-, rfl⟩
    · simp [Begins]
    · rw [← later, List.cons_prefix_cons, and_iff_right rfl]

/-- A text inside two in a row begins within the first of them, or lies in the second. -/
theorem infix_append_iff {l a b : List χ} :
    l <:+: a ++ b ↔ (∃ s, s ≠ [] ∧ s <:+ a ∧ l <+: s ++ b) ∨ l <:+: b := by
  induction a with
  | nil =>
    constructor
    · exact .inr
    · rintro (⟨s, present, ends, -⟩ | lies)
      · exact absurd (List.suffix_nil.mp ends) present
      · exact lies
  | cons c a ih =>
    rw [List.cons_append, List.infix_cons_iff, ih]
    constructor
    · rintro (begins | ⟨s, present, ends, begins⟩ | lies)
      · exact .inl ⟨c :: a, by simp, List.suffix_rfl, begins⟩
      · exact .inl ⟨s, present, ends.trans (List.suffix_cons c a), begins⟩
      · exact .inr lies
    · rintro (⟨s, present, ends, begins⟩ | lies)
      · rcases List.suffix_cons_iff.mp ends with rfl | ends
        · exact .inl begins
        · exact .inr (.inl ⟨s, present, ends, begins⟩)
      · exact .inr (.inr lies)

/-- Where a joined text lies in what follows a word, it lies past the separator. -/
theorem joined_infix_rest {w : List χ} {ws ds : List (List χ)} {rest : List χ}
    (told : Unseparated sep (w :: ws))
    (ends : ds = [] ∧ rest = [] ∨ ds ≠ [] ∧ rest = sep :: joined sep ds) :
    joined sep (w :: ws) <:+: rest ↔ joined sep (w :: ws) <:+: joined sep ds := by
  rcases ends with ⟨rfl, rfl⟩ | ⟨-, rfl⟩
  · simp
  · rw [List.infix_cons_iff, or_iff_right]
    obtain ⟨present, inside⟩ := told w List.mem_cons_self
    obtain ⟨c, w, rfl⟩ := List.exists_cons_of_ne_nil present
    obtain ⟨rest, text, -⟩ := joined_split sep (c :: w) ws
    rw [text, List.cons_append, List.cons_prefix_cons]
    rintro ⟨rfl, -⟩
    exact inside List.mem_cons_self

theorem joined_infix_iff {ws ds : List (List χ)} (told : Unseparated sep ws)
    (others : Unseparated sep ds) : joined sep ws <:+: joined sep ds ↔ LiesIn ws ds := by
  induction ws, ds using LiesIn.induct with
  | case1 ds => simp [LiesIn]
  | case2 w ws => simpa [LiesIn] using joined_ne_nil told
  | case3 w d ds ih =>
    obtain ⟨rest, text, ends⟩ := joined_split sep d ds
    have later := ih told fun v member => others v (List.mem_cons_of_mem _ member)
    have inside := (told w List.mem_cons_self).2
    have stops : rest = [] ∨ ∃ tail, rest = sep :: tail := by
      rcases ends with ⟨-, none⟩ | ⟨-, more⟩
      · exact .inl none
      · exact .inr ⟨_, more⟩
    rw [text, infix_append_iff, joined_infix_rest told ends, later, LiesIn, joined_singleton]
    refine or_congr_left ?_
    constructor
    · rintro ⟨s, -, tail, begins⟩
      exact ((prefix_unseparated inside stops).mp begins).isInfix.trans tail.isInfix
    · intro lies
      obtain ⟨before, after, rfl⟩ := lies
      refine ⟨w ++ after, ?_, ⟨before, by simp⟩, ?_⟩
      · simp [(told w List.mem_cons_self).1]
      · exact (List.prefix_append w after).trans (List.prefix_append _ rest)
  | case4 w w' ws d ds ih =>
    obtain ⟨rest, text, ends⟩ := joined_split sep d ds
    have later := ih told fun v member => others v (List.mem_cons_of_mem _ member)
    have inside := (told w List.mem_cons_self).2
    have tail_told : Unseparated sep (w' :: ws) :=
      fun v member => told v (List.mem_cons_of_mem _ member)
    have tail_others : Unseparated sep ds :=
      fun v member => others v (List.mem_cons_of_mem _ member)
    have stops : rest = [] ∨ ∃ tail, rest = sep :: tail := by
      rcases ends with ⟨-, none⟩ | ⟨-, more⟩
      · exact .inl none
      · exact .inr ⟨_, more⟩
    have onward : sep :: joined sep (w' :: ws) <+: rest ↔ Begins (w' :: ws) ds := by
      rw [← joined_prefix_iff tail_told tail_others]
      rcases ends with ⟨rfl, rfl⟩ | ⟨-, rfl⟩
      · simpa using joined_ne_nil tail_told
      · rw [List.cons_prefix_cons, and_iff_right rfl]
    rw [text, infix_append_iff, joined_infix_rest told ends, later, LiesIn, joined_cons_cons]
    refine or_congr_left ?_
    constructor
    · rintro ⟨s, -, tail, begins⟩
      have within : sep ∉ s := fun member =>
        (others d List.mem_cons_self).2 (tail.subset member)
      obtain ⟨rfl, more⟩ := (prefix_separator inside within stops).mp begins
      exact ⟨tail, onward.mp more⟩
    · rintro ⟨tail, begins⟩
      exact ⟨w, (told w List.mem_cons_self).1, tail,
        (List.prefix_append_right_inj w).mpr (onward.mpr begins)⟩

end Joined

/-! ### The last separator -/

/-- A text is cut at its last separator in one way. -/
theorem last_separator {sep : χ} {a a' b b' : List χ} (after : sep ∉ b) (after' : sep ∉ b')
    (same : a ++ sep :: b = a' ++ sep :: b') : a = a' ∧ b = b' := by
  rcases List.append_eq_append_iff.mp same with ⟨extra, rfl, rest⟩ | ⟨extra, rfl, rest⟩
  · cases extra with
    | nil => exact ⟨by simp, (List.cons.inj rest).2⟩
    | cons c extra =>
      rw [(List.cons.inj rest).2] at after
      exact absurd (by simp) after
  · cases extra with
    | nil => exact ⟨by simp, (List.cons.inj rest).2.symm⟩
    | cons c extra =>
      rw [(List.cons.inj rest).2] at after'
      exact absurd (by simp) after'

end Foundation
