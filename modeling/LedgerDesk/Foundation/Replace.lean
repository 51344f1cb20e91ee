import LedgerDesk.Foundation.Regex

/-!
# Taking every match out

A text is searched from left to right, and each match found gives way to a mark. What is found in
two texts that stand side by side is found in each of them alone, when no match can take the letter
between them.
-/
namespace Foundation

open Regex

variable {α : Type*}

/-- A pattern that takes something, and what has to lie behind it. -/
structure Pattern (α : Type*) where
  behind : Option (Regex α)
  body : Regex α
  consumes : body.consuming = true

/-- One step of a search: a letter that is left, or a match. -/
inductive Piece (α : Type*) where
  | kept (c : α)
  | taken (m : List α)
  deriving DecidableEq

namespace Pattern

variable (word : α → Bool) (p : Pattern α)

/-- The match at the place ends here. -/
def first (x : Place α) : Option (Place α) :=
  match (p.body.ends word x).head? with
  | none => none
  | some y => if p.behind.all fun r => !(r.reversed.ends word x.flip).isEmpty then some y else none

/-- The matches from left to right, the first one at each place; `skip` letters are already taken. -/
def scan : Nat → List α → List α → List (Piece α)
  | _, _, [] => []
  | skip + 1, passed, c :: ahead => scan skip (c :: passed) ahead
  | 0, passed, c :: ahead =>
    match p.first word ⟨passed, c :: ahead⟩ with
    | none => .kept c :: scan 0 (c :: passed) ahead
    | some y =>
      .taken (c :: ahead.take (ahead.length - y.ahead.length)) ::
        scan (ahead.length - y.ahead.length) (c :: passed) ahead

end Pattern

namespace Piece

/-- What of the text the piece is. -/
def letters : Piece α → List α
  | kept c => [c]
  | taken m => m

/-- What stands there once matches are marked. -/
def marked (mark : List α) : Piece α → List α
  | kept c => [c]
  | taken _ => mark

def match? : Piece α → Option (List α)
  | kept _ => none
  | taken m => some m

end Piece

/-- The text that was searched. -/
def letters (pieces : List (Piece α)) : List α := pieces.flatMap Piece.letters

/-- The text with a mark for every match. -/
def marked (mark : List α) (pieces : List (Piece α)) : List α := pieces.flatMap (Piece.marked mark)

/-- The matches. -/
def matched (pieces : List (Piece α)) : List (List α) := pieces.filterMap Piece.match?

section Pieces

variable {mark : List α} {pieces : List (Piece α)}

@[simp] theorem letters_cons (piece : Piece α) :
    letters (piece :: pieces) = piece.letters ++ letters pieces := List.flatMap_cons

@[simp] theorem letters_append (ps qs : List (Piece α)) :
    letters (ps ++ qs) = letters ps ++ letters qs := List.flatMap_append

@[simp] theorem letters_kept (text : List α) : letters (text.map Piece.kept) = text := by
  induction text with
  | nil => rfl
  | cons c text ih => rw [List.map_cons, letters_cons, ih, Piece.letters, List.singleton_append]

@[simp] theorem marked_cons (piece : Piece α) :
    marked mark (piece :: pieces) = piece.marked mark ++ marked mark pieces := List.flatMap_cons

@[simp] theorem marked_append (ps qs : List (Piece α)) :
    marked mark (ps ++ qs) = marked mark ps ++ marked mark qs := List.flatMap_append

@[simp] theorem marked_kept (text : List α) : marked mark (text.map Piece.kept) = text := by
  induction text with
  | nil => rfl
  | cons c text ih => rw [List.map_cons, marked_cons, ih, Piece.marked, List.singleton_append]

@[simp] theorem matched_kept_cons (c : α) : matched (.kept c :: pieces) = matched pieces := rfl

@[simp] theorem matched_taken_cons (m : List α) :
    matched (.taken m :: pieces) = m :: matched pieces := rfl

@[simp] theorem matched_append (ps qs : List (Piece α)) :
    matched (ps ++ qs) = matched ps ++ matched qs := List.filterMap_append

@[simp] theorem matched_kept (text : List α) : matched (text.map Piece.kept) = [] := by
  induction text with
  | nil => rfl
  | cons c text ih => exact ih

/-- A letter of the marked text is the mark's, or was there. -/
theorem mem_marked {c : α} (member : c ∈ marked mark pieces) : c ∈ mark ∨ c ∈ letters pieces := by
  obtain ⟨piece, among, inside⟩ := List.mem_flatMap.mp member
  cases piece with
  | kept d => exact .inr (List.mem_flatMap.mpr ⟨.kept d, among, inside⟩)
  | taken m => exact .inl inside

/-- Either nothing was taken, or there is a last match, and the text behind it is left. -/
theorem last_taken (pieces : List (Piece α)) : pieces = (letters pieces).map .kept ∨
    ∃ before m, ∃ back : List α, pieces = before ++ .taken m :: back.map .kept := by
  induction pieces with
  | nil => exact .inl rfl
  | cons piece pieces ih =>
    rcases ih with none | ⟨before, m, back, rfl⟩
    · cases piece with
      | kept c =>
        refine .inl ?_
        rw [letters_cons, Piece.letters, List.singleton_append, List.map_cons, ← none]
      | taken m => exact .inr ⟨[], m, letters pieces, by rw [← none, List.nil_append]⟩
    · exact .inr ⟨piece :: before, m, back, rfl⟩

end Pieces

namespace Pattern

variable {word : α → Bool} {p : Pattern α}

theorem first_walks {x y : Place α} (found : p.first word x = some y) :
    Regex.Walks p.body.Spells x y := by
  cases head : (p.body.ends word x).head? with
  | none => rw [first, head] at found; cases found
  | some z =>
    simp only [first, head] at found
    split at found
    · obtain rfl := Option.some.inj found
      exact walks_of_mem_ends x z (List.mem_of_head? head)
    · cases found

theorem scan_nil (passed : List α) : p.scan word 0 passed [] = [] := rfl

theorem scan_keep {passed ahead : List α} {c : α}
    (none : p.first word ⟨passed, c :: ahead⟩ = none) :
    p.scan word 0 passed (c :: ahead) = .kept c :: p.scan word 0 (c :: passed) ahead := by
  rw [scan, none]

theorem scan_skip (passed m ahead : List α) :
    p.scan word m.length passed (m ++ ahead) = p.scan word 0 (m.reverse ++ passed) ahead := by
  induction m generalizing passed with
  | nil => rfl
  | cons c m ih =>
    rw [List.length_cons, List.cons_append, scan, ih, List.reverse_cons, List.append_assoc]
    rfl

theorem scan_take {passed m ahead : List α} (some_ : m ≠ [])
    (found : p.first word ⟨passed, m ++ ahead⟩ = some ⟨m.reverse ++ passed, ahead⟩) :
    p.scan word 0 passed (m ++ ahead) = .taken m :: p.scan word 0 (m.reverse ++ passed) ahead := by
  cases m with
  | nil => exact absurd rfl some_
  | cons c m =>
    have skipped : (m ++ ahead).length - ahead.length = m.length := by simp
    rw [List.cons_append] at found ⊢
    rw [scan, found]
    simp only [skipped, List.take_left, scan_skip, List.reverse_cons, List.append_assoc,
      List.singleton_append]

/-- Going through a text by its letters that are left and its matches. -/
theorem scan_induction {motive : List α → List α → List (Piece α) → Prop}
    (done : ∀ passed, motive passed [] [])
    (keep : ∀ passed c ahead pieces, p.first word ⟨passed, c :: ahead⟩ = none →
      motive (c :: passed) ahead pieces → motive passed (c :: ahead) (.kept c :: pieces))
    (take : ∀ passed m ahead pieces, m ≠ [] → p.body.Spells m →
      p.first word ⟨passed, m ++ ahead⟩ = some ⟨m.reverse ++ passed, ahead⟩ →
      motive (m.reverse ++ passed) ahead pieces → motive passed (m ++ ahead) (.taken m :: pieces))
    (passed ahead : List α) : motive passed ahead (p.scan word 0 passed ahead) := by
  induction long : ahead.length using Nat.strong_induction_on generalizing passed ahead with
  | _ n ih =>
    cases ahead with
    | nil => exact done passed
    | cons c ahead =>
      cases found : p.first word ⟨passed, c :: ahead⟩ with
      | none =>
        rw [scan_keep found]
        exact keep passed c ahead _ found (ih ahead.length (by simp [← long]) _ _ rfl)
      | some y =>
        obtain ⟨m, spells, text, back⟩ := first_walks found
        have some_ := Regex.ne_nil_of_spells p.consumes spells
        obtain ⟨passed', ahead'⟩ := y
        obtain rfl : passed' = m.reverse ++ passed := back
        have whole : c :: ahead = m ++ ahead' := text
        rw [whole] at found long ⊢
        rw [scan_take some_ found]
        refine take passed m ahead' _ some_ spells found (ih ahead'.length ?_ _ _ rfl)
        have positive := List.length_pos_iff.mpr some_
        rw [List.length_append] at long
        omega

theorem letters_scan (passed ahead : List α) : letters (p.scan word 0 passed ahead) = ahead := by
  refine scan_induction (motive := fun _ ahead pieces => letters pieces = ahead) (fun _ => rfl)
    ?_ ?_ passed ahead
  · intro _ c ahead pieces _ ih
    rw [letters_cons, ih]
    rfl
  · intro _ m ahead pieces _ _ _ ih
    rw [letters_cons, ih]
    rfl

/-- Every match is one of the pattern's. -/
theorem spells_of_mem_matched {passed ahead m : List α}
    (member : m ∈ matched (p.scan word 0 passed ahead)) : p.body.Spells m := by
  revert member
  refine scan_induction (motive := fun _ _ pieces => m ∈ matched pieces → p.body.Spells m)
    ?_ ?_ ?_ passed ahead
  · intro _ member
    cases member
  · intro _ c ahead pieces _ ih member
    exact ih member
  · intro _ taken ahead pieces _ spells _ ih member
    rcases List.mem_cons.mp member with rfl | later
    · exact spells
    · exact ih later

/-! ### Texts side by side -/

/-- A change of the place that neither part of the pattern sees. -/
theorem first_map {φ : Place α → Place α} {x : Place α}
    (behind : ∀ r ∈ p.behind, (r.reversed.ends word (φ x).flip).isEmpty =
      (r.reversed.ends word x.flip).isEmpty)
    (body : p.body.ends word (φ x) = (p.body.ends word x).map φ) :
    p.first word (φ x) = (p.first word x).map φ := by
  have same : (p.behind.all fun r => !(r.reversed.ends word (φ x).flip).isEmpty) =
      p.behind.all fun r => !(r.reversed.ends word x.flip).isEmpty := by
    cases looks : p.behind with
    | none => rfl
    | some r => rw [Option.all_some, Option.all_some, behind r looks]
  rw [first, first, same, body, List.head?_map]
  cases (p.body.ends word x).head? with
  | none => rfl
  | some y =>
    simp only [Option.map_some]
    split
    · rfl
    · rfl

/-- A pattern that looks at nothing behind it. -/
theorem first_of_plain (plain : p.behind = none) (x : Place α) :
    p.first word x = (p.body.ends word x).head? := by
  rw [first, plain]
  cases (p.body.ends word x).head? with
  | none => rfl
  | some y => rfl

theorem first_followedBy {n : α} (back : List α) (x : Place α) (avoids : p.body.mayTake n = false)
    (outside : word n = false) :
    p.first word (x.followedBy (n :: back)) =
      (p.first word x).map (Place.followedBy (n :: back)) := by
  refine first_map (fun r _ => ?_) (ends_followedBy back x avoids outside)
  have unseen := ends_after (r := r.reversed) (n :: back) x.flip (.inr outside)
  have turned : (x.followedBy (n :: back)).flip = x.flip.after (n :: back) := rfl
  rw [turned, unseen, List.isEmpty_map]

/-- What a pattern finds before a letter that it cannot take, it finds without what follows. -/
theorem scan_append {n : α} (avoids : p.body.mayTake n = false) (outside : word n = false)
    (passed ahead back : List α) :
    p.scan word 0 passed (ahead ++ n :: back) =
      p.scan word 0 passed ahead ++ p.scan word 0 (ahead.reverse ++ passed) (n :: back) := by
  refine scan_induction (motive := fun passed ahead pieces =>
    p.scan word 0 passed (ahead ++ n :: back) =
      pieces ++ p.scan word 0 (ahead.reverse ++ passed) (n :: back)) ?_ ?_ ?_ passed ahead
  · exact fun passed => rfl
  · intro passed c ahead pieces none ih
    have same : p.first word ⟨passed, c :: (ahead ++ n :: back)⟩ = Option.none :=
      (first_followedBy back ⟨passed, c :: ahead⟩ avoids outside).trans (by rw [none]; rfl)
    rw [List.cons_append, scan_keep same, ih, List.reverse_cons, List.append_assoc]
    rfl
  · intro passed m ahead pieces some_ _ found ih
    have same : p.first word ⟨passed, m ++ (ahead ++ n :: back)⟩ =
        some ⟨m.reverse ++ passed, ahead ++ n :: back⟩ := by
      rw [← List.append_assoc]
      exact (first_followedBy back ⟨passed, m ++ ahead⟩ avoids outside).trans (by rw [found]; rfl)
    rw [List.append_assoc, scan_take some_ same, ih, List.reverse_append, List.append_assoc]
    rfl

/-- A letter that the pattern cannot take is left. -/
theorem scan_cons_of_avoids {n : α} (avoids : p.body.mayTake n = false) (passed ahead : List α) :
    p.scan word 0 passed (n :: ahead) = .kept n :: p.scan word 0 (n :: passed) ahead := by
  cases found : p.first word ⟨passed, n :: ahead⟩ with
  | none => exact scan_keep found
  | some y =>
    obtain ⟨m, spells, text, -⟩ := first_walks found
    cases m with
    | nil => exact absurd rfl (ne_nil_of_spells p.consumes spells)
    | cons c m =>
      obtain rfl : n = c := (List.cons.inj text).1
      have takes := mayTake_of_spells spells n List.mem_cons_self
      rw [avoids] at takes
      cases takes

/-- Letters at which no match begins are left. -/
theorem scan_letters {front : List α} (passed ahead : List α)
    (never : ∀ c ∈ front, ∀ passed ahead, p.first word ⟨passed, c :: ahead⟩ = none) :
    p.scan word 0 passed (front ++ ahead) =
      front.map .kept ++ p.scan word 0 (front.reverse ++ passed) ahead := by
  induction front generalizing passed with
  | nil => rfl
  | cons c front ih =>
    obtain ⟨here, later⟩ := List.forall_mem_cons.mp never
    rw [List.cons_append, scan_keep (here passed _), ih (c :: passed) later, List.map_cons,
      List.reverse_cons, List.append_assoc]
    rfl

/-- Where a pattern that needs certain letters finds none of them, it takes nothing. -/
theorem scan_of_no_match {passed ahead : List α}
    (never : ∀ m, p.body.Spells m → ¬ m <:+: ahead) :
    p.scan word 0 passed ahead = ahead.map .kept := by
  rcases last_taken (p.scan word 0 passed ahead) with none | ⟨before, m, back, found⟩
  · rwa [letters_scan] at none
  · have among : m ∈ matched (p.scan word 0 passed ahead) := by
      rw [found]
      simp
    have whole : letters (p.scan word 0 passed ahead) = ahead := letters_scan passed ahead
    rw [found] at whole
    refine absurd ?_ (never m (spells_of_mem_matched among))
    exact ⟨letters before, back, by rw [← whole]; simp [Piece.letters]⟩

/-- Text further back is not seen, if no search ahead sees it. -/
theorem scan_after (front : List α) (passed ahead : List α)
    (unseen : ∀ m s, ahead = m ++ s → p.first word ⟨m.reverse ++ passed ++ front, s⟩ =
      (p.first word ⟨m.reverse ++ passed, s⟩).map (Place.after front)) :
    p.scan word 0 (passed ++ front) ahead = p.scan word 0 passed ahead := by
  revert unseen
  refine scan_induction (motive := fun passed ahead pieces =>
    (∀ m s, ahead = m ++ s → p.first word ⟨m.reverse ++ passed ++ front, s⟩ =
      (p.first word ⟨m.reverse ++ passed, s⟩).map (Place.after front)) →
    p.scan word 0 (passed ++ front) ahead = pieces) ?_ ?_ ?_ passed ahead
  · exact fun _ _ => rfl
  · intro passed c ahead pieces none ih unseen
    have here := unseen [] (c :: ahead) rfl
    simp only [List.reverse_nil, List.nil_append, none, Option.map_none] at here
    rw [scan_keep here, ← List.cons_append, ih]
    intro m s text
    simpa using unseen (c :: m) s (by rw [text, List.cons_append])
  · intro passed m ahead pieces some_ _ found ih unseen
    have here := unseen [] (m ++ ahead) rfl
    simp only [List.reverse_nil, List.nil_append, found, Option.map_some, Place.after] at here
    rw [List.append_assoc] at here
    rw [scan_take some_ here, ← List.append_assoc, ih]
    intro m' s text
    simpa using unseen (m ++ m') s (by rw [text, List.append_assoc])

/-! ### Patterns told by what they take -/

/-- A match of the pattern is told by its letters alone, whatever stands around it. -/
def Told (word : α → Bool) (p : Pattern α) (kind : List α → Prop) : Prop :=
  ∀ passed ahead y, p.first word ⟨passed, ahead⟩ = some y ↔
    ∃ m, kind m ∧ ahead = m ++ y.ahead ∧ y.passed = m.reverse ++ passed

theorem Told.first_append {kind : List α → Prop} (told : p.Told word kind) {passed m ahead : List α}
    (back : List α) : p.first word ⟨passed, m ++ ahead⟩ = some ⟨m.reverse ++ passed, ahead⟩ ↔
      p.first word ⟨passed, m ++ (ahead ++ back)⟩ =
        some ⟨m.reverse ++ passed, ahead ++ back⟩ := by
  rw [told, told]
  simp

/-- Text behind is left as it is, or the last match reaches into it. -/
theorem scan_beside {kind : List α → Prop} (told : p.Told word kind) (passed ahead back : List α) :
    p.scan word 0 passed (ahead ++ back) = p.scan word 0 passed ahead ++ back.map .kept ∨
      ∃ before m, ∃ rest : List α,
        p.scan word 0 passed (ahead ++ back) = before ++ .taken m :: rest.map .kept ∧
          rest.length < back.length := by
  suffices sides : ∀ ahead', ahead ++ back = ahead' ++ back →
      p.scan word 0 passed (ahead ++ back) = p.scan word 0 passed ahead' ++ back.map .kept ∨
      ∃ before m, ∃ rest : List α,
        p.scan word 0 passed (ahead ++ back) = before ++ .taken m :: rest.map .kept ∧
          rest.length < back.length from sides ahead rfl
  refine (scan_induction (motive := fun passed text pieces => letters pieces = text ∧
    ∀ ahead', text = ahead' ++ back →
      pieces = p.scan word 0 passed ahead' ++ back.map .kept ∨
      ∃ before m, ∃ rest : List α, pieces = before ++ .taken m :: rest.map .kept ∧
        rest.length < back.length) ?_ ?_ ?_ passed (ahead ++ back)).2
  · rintro passed
    refine ⟨rfl, fun ahead' text => .inl ?_⟩
    obtain ⟨rfl, rfl⟩ := List.append_eq_nil_iff.mp text.symm
    rfl
  · rintro passed c text pieces none ⟨whole, ih⟩
    refine ⟨by rw [letters_cons, whole]; rfl, fun ahead' split => ?_⟩
    cases ahead' with
    | nil =>
      obtain rfl : c :: text = back := split
      rcases last_taken pieces with left | ⟨before, m, rest, taken⟩
      · rw [whole] at left
        exact .inl (by rw [left]; rfl)
      · refine .inr ⟨.kept c :: before, m, rest, by rw [taken]; rfl, ?_⟩
        have longer := congrArg List.length whole
        rw [taken, letters_append, letters_cons, letters_kept] at longer
        simp only [List.length_append] at longer
        rw [List.length_cons]
        omega
    | cons d ahead' =>
      obtain ⟨rfl, rest⟩ := List.cons.inj split
      obtain rfl : text = ahead' ++ back := rest
      rcases ih ahead' rfl with left | ⟨before, m, rest, taken, short⟩
      · have alone : p.first word ⟨passed, c :: ahead'⟩ = Option.none := by
          by_contra some_
          obtain ⟨y, found⟩ := Option.ne_none_iff_exists'.mp some_
          obtain ⟨m, of, ahead_eq, passed_eq⟩ := (told _ _ _).mp found
          have also : p.first word ⟨passed, c :: (ahead' ++ back)⟩ =
              some ⟨y.passed, y.ahead ++ back⟩ := by
            refine (told _ _ _).mpr ⟨m, of, ?_, passed_eq⟩
            rw [← List.cons_append, ahead_eq, List.append_assoc]
          exact absurd (none.symm.trans also) (by simp)
        exact .inl (by rw [scan_keep alone, left]; rfl)
      · exact .inr ⟨.kept c :: before, m, rest, by rw [taken]; rfl, short⟩
  · rintro passed m text pieces some_ - found ⟨whole, ih⟩
    refine ⟨by rw [letters_cons, whole]; rfl, fun ahead' split => ?_⟩
    have sides : (∃ inner, ahead' = m ++ inner ∧ text = inner ++ back) ∨
        ∃ inner, inner ≠ [] ∧ m = ahead' ++ inner ∧ back = inner ++ text := by
      rcases List.append_eq_append_iff.mp split with inside | ⟨inner, longer, rest⟩
      · exact .inl inside
      · by_cases none : inner = []
        · subst none
          exact .inl ⟨[], by simpa using longer.symm, rest.symm⟩
        · exact .inr ⟨inner, none, longer, rest⟩
    rcases sides with ⟨inner, rfl, rfl⟩ | ⟨inner, crosses, rfl, rfl⟩
    · rcases ih inner rfl with left | ⟨before, m', rest, taken, short⟩
      · have alone := (told.first_append back).mpr found
        exact .inl (by rw [scan_take some_ alone, left]; rfl)
      · exact .inr ⟨.taken m :: before, m', rest, by rw [taken]; rfl, short⟩
    · have positive := List.length_pos_iff.mpr crosses
      rcases last_taken pieces with left | ⟨before, m', rest, taken⟩
      · rw [whole] at left
        exact .inr ⟨[], ahead' ++ inner, text, by rw [left]; rfl, by rw [List.length_append]; omega⟩
      · refine .inr ⟨.taken (ahead' ++ inner) :: before, m', rest, by rw [taken]; rfl, ?_⟩
        have longer := congrArg List.length whole
        rw [taken, letters_append, letters_cons, letters_kept] at longer
        simp only [List.length_append] at longer ⊢
        omega

end Pattern

end Foundation
