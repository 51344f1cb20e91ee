import LedgerDesk.Foundation.Replace

/-!
# Texts around a separator

What a pattern finds in texts that are joined by a separator, when it leaves the separators in
place, it finds in each of the texts alone. And a joined text is cut at its separators into what was
joined, unless one of the texts has the separator in it, or makes one with what is behind it.
-/
namespace Foundation

namespace Pattern

variable {α : Type*} {word : α → Bool} {p : Pattern α} {kind : List α → Prop}

/-! ### A search, piece by piece -/

/-- The first piece of a search. -/
theorem scan_cases (passed text : List α) :
    (text = [] ∧ p.scan word 0 passed text = []) ∨
    (∃ c rest, text = c :: rest ∧ p.first word ⟨passed, c :: rest⟩ = none ∧
      p.scan word 0 passed text = .kept c :: p.scan word 0 (c :: passed) rest) ∨
    ∃ m rest, m ≠ [] ∧ text = m ++ rest ∧
      p.first word ⟨passed, m ++ rest⟩ = some ⟨m.reverse ++ passed, rest⟩ ∧
      p.scan word 0 passed text = .taken m :: p.scan word 0 (m.reverse ++ passed) rest := by
  cases text with
  | nil => exact .inl ⟨rfl, rfl⟩
  | cons c rest =>
    right
    cases found : p.first word ⟨passed, c :: rest⟩ with
    | none => exact .inl ⟨c, rest, rfl, found, scan_keep found⟩
    | some y =>
      obtain ⟨m, spells, text, back⟩ := first_walks found
      obtain ⟨passed', rest'⟩ := y
      obtain rfl : passed' = m.reverse ++ passed := back
      have whole : c :: rest = m ++ rest' := text
      have some_ := Regex.ne_nil_of_spells p.consumes spells
      rw [whole] at found ⊢
      exact .inr ⟨m, rest', some_, rfl, found, scan_take some_ found⟩

/-- What is told by its letters is found wherever the text stands. -/
theorem Told.scan_passed (told : p.Told word kind) (passed ahead : List α) :
    p.scan word 0 passed ahead = p.scan word 0 [] ahead := by
  refine scan_after passed [] ahead fun m s _ => ?_
  rw [List.append_nil]
  apply Option.ext
  intro y
  rw [told, Option.map_eq_some_iff]
  constructor
  · rintro ⟨m', of_kind, text, back⟩
    refine ⟨⟨m'.reverse ++ m.reverse, y.ahead⟩, (told _ _ _).mpr ⟨m', of_kind, text, rfl⟩, ?_⟩
    rw [Place.after, Place.ext_iff]
    exact ⟨by rw [back, List.append_assoc], rfl⟩
  · rintro ⟨z, found, rfl⟩
    obtain ⟨m', of_kind, text, back⟩ := (told _ _ _).mp found
    exact ⟨m', of_kind, text, by rw [Place.after, back, List.append_assoc]⟩

/-- No match begins where the text alone has none, unless it reaches beyond the text. -/
theorem Told.first_none (told : p.Told word kind) {passed ahead : List α} (back : List α)
    (missed : p.first word ⟨passed, ahead ++ back⟩ = none) :
    p.first word ⟨passed, ahead⟩ = none := by
  by_contra some_
  obtain ⟨y, found⟩ := Option.ne_none_iff_exists'.mp some_
  obtain ⟨m, of_kind, text, past⟩ := (told _ _ _).mp found
  have longer : p.first word ⟨passed, ahead ++ back⟩ = some ⟨y.passed, y.ahead ++ back⟩ :=
    (told _ _ _).mpr ⟨m, of_kind, by rw [text, List.append_assoc], past⟩
  rw [missed] at longer
  cases longer

/-- A search that is cut between two of its pieces is two searches. -/
theorem Told.scan_split (told : p.Told word kind) {a b passed : List α} {front back : List (Piece α)}
    (whole : p.scan word 0 passed (a ++ b) = front ++ back) (there : letters front = a) :
    front = p.scan word 0 passed a ∧ back = p.scan word 0 [] b := by
  induction front generalizing a passed with
  | nil =>
    obtain rfl : [] = a := there
    exact ⟨rfl, by rw [← told.scan_passed passed b]; exact whole.symm⟩
  | cons piece front ih =>
    have first := @scan_cases α word p passed (a ++ b)
    obtain ⟨-, none⟩ | ⟨c, rest, text, missed, scanned⟩ | ⟨m, rest, some_, text, found, scanned⟩ :=
      first
    · cases none.symm.trans whole
    · obtain ⟨rfl, later⟩ := List.cons.inj (scanned.symm.trans whole)
      rw [letters_cons] at there
      obtain rfl : c :: letters front = a := there
      obtain rfl : letters front ++ b = rest := (List.cons.inj text).2
      obtain ⟨alone, behind⟩ := ih later rfl
      refine ⟨?_, behind⟩
      have missed' : p.first word ⟨passed, c :: letters front⟩ = none := told.first_none b missed
      rw [scan_keep missed', ← alone]
    · obtain ⟨rfl, later⟩ := List.cons.inj (scanned.symm.trans whole)
      rw [letters_cons] at there
      obtain rfl : m ++ letters front = a := there
      rw [List.append_assoc] at text
      obtain rfl : letters front ++ b = rest := List.append_cancel_left text
      obtain ⟨alone, behind⟩ := ih later rfl
      refine ⟨?_, behind⟩
      rw [scan_take some_ ((told.first_append b).mpr found), ← alone]

/-! ### Separators that stay -/

/-- The pattern leaves each separator of the joined texts in its place. -/
def Spares (word : α → Bool) (p : Pattern α) (sep : List α) : List (List α) → Prop
  | [] => True
  | [_] => True
  | text :: next :: rest =>
    (∃ front back, p.scan word 0 [] (text ++ sep ++ sep.intercalate (next :: rest)) =
      front ++ sep.map .kept ++ back ∧ letters front = text) ∧ Spares word p sep (next :: rest)

/-- A pattern that leaves the separators finds in the joined texts what it finds in each. -/
theorem Told.scan_spared (told : p.Told word kind) {sep : List α} {texts : List (List α)}
    (spares : p.Spares word sep texts) (some_ : texts ≠ []) :
    p.scan word 0 [] (sep.intercalate texts) =
      (sep.map .kept).intercalate (texts.map (p.scan word 0 [])) := by
  induction texts with
  | nil => exact absurd rfl some_
  | cons text rest ih =>
    cases rest with
    | nil => simp [List.intercalate_singleton]
    | cons next rest =>
      obtain ⟨⟨front, back, whole, there⟩, later⟩ := spares
      rw [List.append_assoc, List.append_assoc] at whole
      obtain ⟨first, behind⟩ := told.scan_split whole there
      obtain ⟨-, last⟩ := told.scan_split behind.symm (letters_kept sep)
      rw [List.intercalate_cons_cons, List.append_assoc, whole, first, last, ih later (by simp),
        List.map_cons, List.map_cons, List.map_cons, List.intercalate_cons_cons, List.append_assoc]

/-! ### Cutting at a separator -/

section Cut

variable {sep : List α}

/-- The pattern of one text is found where the text stands, and nowhere else. -/
def Spelled (word : α → Bool) (p : Pattern α) (sep : List α) : Prop := p.Told word fun m => m = sep

theorem Spelled.first_none (spelled : p.Spelled word sep) {passed ahead : List α} :
    p.first word ⟨passed, ahead⟩ = none ↔ ¬sep <+: ahead := by
  rw [← not_iff_not, not_not, ← ne_eq, Option.ne_none_iff_exists']
  constructor
  · rintro ⟨y, found⟩
    obtain ⟨m, rfl, text, -⟩ := (spelled _ _ _).mp found
    exact ⟨_, text.symm⟩
  · rintro ⟨rest, text⟩
    exact ⟨⟨sep.reverse ++ passed, rest⟩, (spelled _ _ _).mpr ⟨sep, rfl, text.symm, rfl⟩⟩

/-- The text begins no separator of its own before the one behind it. -/
def Unbroken (sep text : List α) : Prop := ¬sep <:+: text ++ sep.dropLast

theorem Unbroken.not_infix {text : List α} (unbroken : Unbroken sep text) : ¬sep <:+: text :=
  fun inside => unbroken (inside.trans (List.prefix_append ..).isInfix)

/-- Up to the first separator, or to the end, everything is left. -/
theorem Spelled.scan_first (spelled : p.Spelled word sep) (passed text : List α) :
    (p.scan word 0 passed text = text.map .kept ∧ ¬sep <:+: text) ∨
    ∃ first rest, text = first ++ sep ++ rest ∧ Unbroken sep first ∧
      p.scan word 0 passed text = first.map .kept ++ .taken sep :: p.scan word 0 [] rest := by
  induction text generalizing passed with
  | nil =>
    left
    refine ⟨rfl, fun inside => ?_⟩
    obtain rfl := List.infix_nil.mp inside
    have found : p.first word ⟨passed, []⟩ = some ⟨passed, []⟩ :=
      (spelled _ _ _).mpr ⟨[], rfl, rfl, rfl⟩
    obtain ⟨m, spells, text, -⟩ := first_walks found
    exact Regex.ne_nil_of_spells p.consumes spells (List.append_eq_nil_iff.mp text.symm).1
  | cons c text ih =>
    have first := @scan_cases α word p passed (c :: text)
    obtain ⟨none, -⟩ | ⟨c, rest, cut, missed, scanned⟩ | ⟨m, rest, some_, cut, found, scanned⟩ :=
      first
    · cases none
    · obtain ⟨rfl, rfl⟩ := List.cons.inj cut
      have here := spelled.first_none.mp missed
      rcases ih (c :: passed) with ⟨left, absent⟩ | ⟨first, rest, cut', unbroken, later⟩
      · left
        refine ⟨by rw [scanned, left, List.map_cons], fun inside => ?_⟩
        rcases List.infix_cons_iff.mp inside with begins | inside
        · exact here begins
        · exact absent inside
      · right
        refine ⟨c :: first, rest, by rw [cut']; rfl, fun inside => ?_, by rw [scanned, later]; rfl⟩
        rcases List.infix_cons_iff.mp inside with begins | inside
        · apply here
          rw [cut', List.append_assoc]
          refine begins.trans ?_
          rw [List.cons_prefix_cons]
          refine ⟨rfl, (List.prefix_append_right_inj first).mpr ?_⟩
          exact (List.dropLast_prefix sep).trans (List.prefix_append ..)
        · exact unbroken inside
    · right
      obtain ⟨m', rfl, cut', -⟩ := (spelled _ _ _).mp found
      obtain rfl : m' = m := (List.append_inj' cut' rfl).1.symm
      refine ⟨[], rest, cut, fun inside => ?_, ?_⟩
      · have longer := inside.length_le
        rw [List.nil_append, List.length_dropLast] at longer
        have positive := List.length_pos_of_ne_nil some_
        omega
      · rw [scanned, Told.scan_passed spelled]
        rfl

/-- The stretch before a separator that nothing has begun before it is the first. -/
theorem unbroken_unique {a b rest rest' : List α} (same : a ++ sep ++ rest = b ++ sep ++ rest')
    (some_ : sep ≠ []) (first : Unbroken sep a) (second : Unbroken sep b) : a = b := by
  suffices shorter : ∀ {a b rest rest' : List α}, a ++ sep ++ rest = b ++ sep ++ rest' →
      Unbroken sep b → ¬a.length < b.length by
    have le := shorter same second
    have ge := shorter same.symm first
    rw [List.append_assoc, List.append_assoc] at same
    exact (List.append_inj same (by omega)).1
  intro a b rest rest' same unbroken less
  apply unbroken
  -- The separator behind `a` ends within what stands behind `b`.
  have positive := List.length_pos_of_ne_nil some_
  have ends_within : a ++ sep <+: b ++ sep.dropLast := by
    have whole : a ++ sep <+: b ++ sep ++ rest' := by
      rw [← same]
      exact List.prefix_append ..
    have within_ : b ++ sep.dropLast <+: b ++ sep ++ rest' :=
      ((List.prefix_append_right_inj b).mpr (List.dropLast_prefix sep)).trans (List.prefix_append ..)
    refine List.prefix_of_prefix_length_le whole within_ ?_
    rw [List.length_append, List.length_append, List.length_dropLast]
    omega
  exact (List.suffix_append a sep).isInfix.trans ends_within.isInfix

end Cut

end Pattern

end Foundation
