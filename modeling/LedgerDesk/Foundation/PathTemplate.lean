import LedgerDesk.Foundation.JsonUnits

/-!
# Path templates

A path with named parameters, filled with values and matched against a path. A value has no slash in it.
So a path that two templates match falls into the same segments for both, and two templates that differ
in a literal segment never match the same path.
-/
namespace Foundation.PathTemplate

open JsonUnits

inductive Piece where
  | letter (c : Nat)
  | parameter (name : List Nat)
  deriving DecidableEq, Repr

/-- `[a-z_]`. -/
def isNameUnit (c : Nat) : Bool := (97 ≤ c && c ≤ 122) || c == 95

/-- A name that has been read, behind its colon. -/
def named (name : List Nat) : List Piece := if name = [] then [.letter 58] else [.parameter name]

/-- The pieces of a template, a name being read or none: what `/:([a-z_]+)/g` finds in it, and the letters
around. -/
def piecesFrom : Option (List Nat) → List Nat → List Piece
  | none, [] => []
  | some name, [] => named name
  | none, c :: rest => if c = 58 then piecesFrom (some []) rest else .letter c :: piecesFrom none rest
  | some name, c :: rest =>
    if isNameUnit c then piecesFrom (some (name ++ [c])) rest
    else named name ++
      if c = 58 then piecesFrom (some []) rest else .letter c :: piecesFrom none rest

def pieces (path : List Nat) : List Piece := piecesFrom none path

def names (ps : List Piece) : List (List Nat) :=
  ps.filterMap fun p => match p with
    | .letter _ => none
    | .parameter name => some name

def isAlnum (c : Nat) : Bool := isDigit c || (65 ≤ c && c ≤ 90) || (97 ≤ c && c ≤ 122)

/-- `[A-Za-z0-9][A-Za-z0-9._:-]{0,127}`. -/
def isIdentifier : List Nat → Bool
  | [] => false
  | c :: rest =>
    isAlnum c && decide (rest.length ≤ 127) &&
      rest.all fun c => isAlnum c || c == 46 || c == 95 || c == 58 || c == 45

/-- The template with its parameters replaced. -/
def fill (ps : List Piece) (value : List Nat → List Nat) : List Nat :=
  ps.flatMap fun p => match p with
    | .letter c => [c]
    | .parameter name => value name

/-- The values of the parameters in a path that matches from end to end; of a value the longest is tried
first. -/
def matchPieces : List Piece → List Nat → Option (List (List Nat))
  | [], text => if text = [] then some [] else none
  | .letter c :: ps, text =>
    match text with
    | [] => none
    | d :: text => if c = d then matchPieces ps text else none
  | .parameter _ :: ps, text =>
    (List.range 128).reverse.findSome? fun n =>
      if n < text.length ∧ isIdentifier (text.take (n + 1)) = true then
        (matchPieces ps (text.drop (n + 1))).map (text.take (n + 1) :: ·)
      else none

/-! ### What matches -/

/-- The text is the template with these values, one behind the other. -/
inductive Fits : List Piece → List Nat → List (List Nat) → Prop
  | nil : Fits [] [] []
  | letter {c : Nat} {ps : List Piece} {text : List Nat} {values : List (List Nat)}
      (rest : Fits ps text values) : Fits (.letter c :: ps) (c :: text) values
  | parameter {name value : List Nat} {ps : List Piece} {text : List Nat} {values : List (List Nat)}
      (valid : isIdentifier value = true) (rest : Fits ps text values) :
      Fits (.parameter name :: ps) (value ++ text) (value :: values)

theorem isIdentifier_length {value : List Nat} (valid : isIdentifier value = true) :
    0 < value.length ∧ value.length ≤ 128 := by
  cases value with
  | nil => cases valid
  | cons c rest =>
    simp only [isIdentifier, Bool.and_eq_true, decide_eq_true_eq] at valid
    rw [List.length_cons]
    omega

/-- No slash is part of a value. -/
theorem isIdentifier_slash {value : List Nat} (valid : isIdentifier value = true) : 47 ∉ value := by
  intro slash
  cases value with
  | nil => cases slash
  | cons c rest =>
    simp only [isIdentifier, Bool.and_eq_true, List.all_eq_true] at valid
    rcases List.mem_cons.mp slash with rfl | member
    · exact absurd valid.1.1 (by decide)
    · exact absurd (valid.2 47 member) (by decide)

theorem fits_of_match {ps : List Piece} {text : List Nat} {values : List (List Nat)}
    (matched : matchPieces ps text = some values) : Fits ps text values := by
  induction ps generalizing text values with
  | nil =>
    rw [matchPieces] at matched
    split at matched
    · next empty =>
      cases matched
      rw [empty]
      exact .nil
    · cases matched
  | cons p ps ih =>
    cases p with
    | letter c =>
      cases text with
      | nil => cases matched
      | cons d text =>
        rw [matchPieces] at matched
        split at matched
        · next same =>
          rw [← same]
          exact .letter (ih matched)
        · cases matched
    | parameter name =>
      rw [matchPieces] at matched
      obtain ⟨n, -, found⟩ := List.exists_of_findSome?_eq_some matched
      split at found
      · next taken =>
        obtain ⟨others, later, rfl⟩ := Option.map_eq_some_iff.mp found
        have whole : Fits (.parameter name :: _) _ _ := Fits.parameter taken.2 (ih later)
        rwa [List.take_append_drop] at whole
      · cases found

theorem match_of_fits {ps : List Piece} {text : List Nat} {values : List (List Nat)}
    (fits : Fits ps text values) : ∃ values', matchPieces ps text = some values' := by
  induction fits with
  | nil => exact ⟨[], rfl⟩
  | letter _ ih =>
    obtain ⟨values', matched⟩ := ih
    exact ⟨values', by rw [matchPieces, if_pos rfl, matched]⟩
  | @parameter name value ps text values valid _ ih =>
    obtain ⟨values', matched⟩ := ih
    obtain ⟨positive, short⟩ := isIdentifier_length valid
    have here : value.length - 1 + 1 = value.length := by omega
    -- The value itself is one of the prefixes that are tried.
    rw [matchPieces, ← Option.isSome_iff_exists, List.findSome?_isSome_iff]
    refine ⟨value.length - 1, by simp; omega, ?_⟩
    rw [here, List.take_left, List.drop_left, if_pos, matched]
    · rfl
    · refine ⟨?_, valid⟩
      rw [List.length_append]
      omega

/-! ### Segments -/

def isParameter : List Piece → Bool
  | [.parameter _] => true
  | _ => false

/-- One parameter, or letters other than a slash. -/
def isStraight (segment : List Piece) : Bool :=
  isParameter segment || segment.all fun p => match p with
    | .letter c => c != 47
    | .parameter _ => false

def segments (ps : List Piece) : List (List Piece) := ps.splitOn (.letter 47)

def isLiteral (segment : List Piece) : Bool :=
  segment.all fun p => match p with
    | .letter _ => true
    | .parameter _ => false

/-- A segment as numbers, which are compared faster than its pieces. -/
def codes (segment : List Piece) : List Nat :=
  segment.map fun p => match p with
    | .letter c => c + 1
    | .parameter _ => 0

/-- Two templates with another number of segments, or with two literal segments that differ. -/
def apart (ps qs : List Piece) : Bool :=
  (segments ps).length != (segments qs).length ||
    ((segments ps).zip (segments qs)).any fun s =>
      isLiteral s.1 && isLiteral s.2 && codes s.1 != codes s.2

/-- What a segment of a path says of the parameters. -/
def valuesOf (segment : List Piece) (text : List Nat) : List (List Nat) :=
  match segment with
  | [.parameter _] => [text]
  | _ => []

theorem Fits.append {ps qs : List Piece} {text : List Nat} {values : List (List Nat)}
    (fits : Fits (ps ++ qs) text values) : ∃ front back v w, text = front ++ back ∧ values = v ++ w ∧
      Fits ps front v ∧ Fits qs back w := by
  induction ps generalizing text values with
  | nil => exact ⟨[], text, [], values, rfl, rfl, .nil, fits⟩
  | cons p ps ih =>
    cases fits with
    | letter rest =>
      obtain ⟨front, back, v, w, rfl, rfl, first, second⟩ := ih rest
      exact ⟨_ :: front, back, v, w, rfl, rfl, .letter first, second⟩
    | parameter valid rest =>
      obtain ⟨front, back, v, w, rfl, rfl, first, second⟩ := ih rest
      exact ⟨_ ++ front, back, _ :: v, w, (List.append_assoc ..).symm, rfl, .parameter valid first,
        second⟩

/-- Letters fit themselves and give no value. -/
theorem Fits.literal {segment : List Piece} {text : List Nat} {values : List (List Nat)}
    (fits : Fits segment text values) (literal : isLiteral segment = true) :
    segment = text.map .letter ∧ values = [] := by
  induction fits with
  | nil => exact ⟨rfl, rfl⟩
  | letter _ ih =>
    rw [isLiteral, List.all_cons, Bool.true_and] at literal
    obtain ⟨rfl, rfl⟩ := ih literal
    exact ⟨rfl, rfl⟩
  | parameter => simp [isLiteral] at literal

theorem isParameter_iff {segment : List Piece} :
    isParameter segment = true ↔ ∃ name, segment = [.parameter name] := by
  constructor
  · intro parameter
    match segment, parameter with
    | [.parameter name], _ => exact ⟨name, rfl⟩
  · rintro ⟨name, rfl⟩
    rfl

theorem Fits.straight {segment : List Piece} {text : List Nat} {values : List (List Nat)}
    (fits : Fits segment text values) (straight : isStraight segment = true) :
    47 ∉ text ∧ values = valuesOf segment text := by
  rcases (Bool.or_eq_true ..).mp straight with parameter | letters
  · obtain ⟨name, rfl⟩ := isParameter_iff.mp parameter
    cases fits with
    | parameter valid rest =>
      cases rest
      rw [List.append_nil]
      exact ⟨isIdentifier_slash valid, rfl⟩
  · rw [List.all_eq_true] at letters
    have literal : isLiteral segment = true := by
      rw [isLiteral, List.all_eq_true]
      intro p member
      have letter := letters p member
      cases p with
      | letter c => rfl
      | parameter name => exact letter
    obtain ⟨same, none⟩ := fits.literal literal
    constructor
    · intro slash
      have member : Piece.letter 47 ∈ segment := by
        rw [same]
        exact List.mem_map_of_mem slash
      exact absurd (letters _ member) (by decide)
    · rw [none, same]
      cases text with
      | nil => rfl
      | cons c text => rfl

/-- A path that a template matches falls into the segments of the template. -/
theorem Fits.splits : ∀ {segs : List (List Piece)} {text : List Nat} {values : List (List Nat)},
    segs ≠ [] → (∀ segment ∈ segs, isStraight segment = true) →
    Fits ([Piece.letter 47].intercalate segs) text values →
    List.Forall₂ (fun segment t => ∃ v, Fits segment t v) segs (text.splitOn 47) ∧
      values = (segs.zip (text.splitOn 47)).flatMap fun s => valuesOf s.1 s.2
  | [], _, _, some_segment, _, _ => absurd rfl some_segment
  | [segment], text, values, _, straight, fits => by
    rw [List.intercalate_singleton] at fits
    obtain ⟨clean, told⟩ := fits.straight (straight segment (List.mem_singleton_self _))
    have whole : text.splitOn 47 = [text] :=
      List.splitOn_eq_singleton clean
    rw [whole]
    exact ⟨.cons ⟨_, fits⟩ .nil, by simpa using told⟩
  | segment :: next :: segs, text, values, _, straight, fits => by
    rw [List.intercalate_cons_cons, List.append_assoc] at fits
    obtain ⟨front, back, v, w, rfl, rfl, first, others⟩ := fits.append
    obtain ⟨clean, rfl⟩ := first.straight (straight segment (List.mem_cons_self ..))
    cases others with
    | letter rest =>
      obtain ⟨each, told⟩ := Fits.splits (by simp)
        (fun s member => straight s (List.mem_cons_of_mem _ member)) rest
      rw [List.splitOn_append_cons_self_of_not_mem clean]
      refine ⟨.cons ⟨_, first⟩ each, ?_⟩
      rw [List.zip_cons_cons, List.flatMap_cons, told]

/-- A template of straight segments. -/
def Straight (ps : List Piece) : Prop := ∀ segment ∈ segments ps, isStraight segment = true

instance (ps : List Piece) : Decidable (Straight ps) :=
  inferInstanceAs (Decidable (∀ segment ∈ segments ps, isStraight segment = true))

theorem Fits.cut {ps : List Piece} {text : List Nat} {values : List (List Nat)}
    (fits : Fits ps text values) (straight : Straight ps) :
    List.Forall₂ (fun segment t => ∃ v, Fits segment t v) (segments ps) (text.splitOn 47) ∧
      values = ((segments ps).zip (text.splitOn 47)).flatMap fun s => valuesOf s.1 s.2 := by
  refine Fits.splits (List.splitOn_ne_nil _ _) straight ?_
  rwa [segments, List.intercalate_splitOn]

/-- A path gives a template's parameters one set of values. -/
theorem Fits.unique {ps : List Piece} {text : List Nat} {values values' : List (List Nat)}
    (straight : Straight ps) (first : Fits ps text values) (second : Fits ps text values') :
    values = values' := by
  rw [(first.cut straight).2, (second.cut straight).2]

theorem match_iff {ps : List Piece} {text : List Nat} {values : List (List Nat)}
    (straight : Straight ps) : matchPieces ps text = some values ↔ Fits ps text values := by
  constructor
  · exact fits_of_match
  · intro fits
    obtain ⟨values', matched⟩ := match_of_fits fits
    rw [matched, fits.unique straight (fits_of_match matched)]

/-- Templates that stand apart match no path in common. -/
theorem not_fits_of_apart {ps qs : List Piece} {text : List Nat} {values values' : List (List Nat)}
    (straight : Straight ps) (straight' : Straight qs) (different : apart ps qs = true)
    (first : Fits ps text values) : ¬Fits qs text values' := by
  intro second
  have cut := (first.cut straight).1
  have cut' := (second.cut straight').1
  rcases (Bool.or_eq_true ..).mp different with lengths | literals
  · exact bne_iff_ne.mp lengths (cut.length_eq.trans cut'.length_eq.symm)
  · obtain ⟨⟨a, b⟩, member, differ⟩ := List.any_eq_true.mp literals
    simp only [Bool.and_eq_true, bne_iff_ne] at differ
    obtain ⟨⟨literal, literal'⟩, differ⟩ := differ
    -- The two segments stand at one place, where the path has one text.
    obtain ⟨i, below, there⟩ := List.mem_iff_getElem.mp member
    rw [List.length_zip] at below
    rw [List.getElem_zip, Prod.mk.injEq] at there
    obtain ⟨rfl, rfl⟩ := there
    obtain ⟨v, fits⟩ := cut.get (i := i) (by omega) (by have := cut.length_eq; omega)
    obtain ⟨w, fits'⟩ := cut'.get (i := i) (by omega) (by have := cut'.length_eq; omega)
    exact differ (congrArg codes ((fits.literal literal).1.trans (fits'.literal literal').1.symm))

/-! ### Filling -/

/-- The text of a template and its values, when they are given by name. -/
theorem fits_fill {ps : List Piece} {value : List Nat → List Nat}
    (valid : ∀ name ∈ names ps, isIdentifier (value name) = true) :
    Fits ps (fill ps value) ((names ps).map value) := by
  induction ps with
  | nil => exact .nil
  | cons p ps ih =>
    cases p with
    | letter c => exact .letter (ih valid)
    | parameter name =>
      have first : isIdentifier (value name) = true := valid name (List.mem_cons_self ..)
      exact .parameter first (ih fun n member => valid n (List.mem_cons_of_mem _ member))

theorem Fits.length {ps : List Piece} {text : List Nat} {values : List (List Nat)}
    (fits : Fits ps text values) : values.length = (names ps).length := by
  induction fits with
  | nil => rfl
  | letter _ ih => exact ih
  | parameter _ _ ih => simpa [names] using ih

theorem Fits.valid {ps : List Piece} {text : List Nat} {values : List (List Nat)}
    (fits : Fits ps text values) : ∀ v ∈ values, isIdentifier v = true := by
  induction fits with
  | nil => simp
  | letter _ ih => exact ih
  | parameter valid _ ih =>
    intro v member
    rcases List.mem_cons.mp member with rfl | member
    · exact valid
    · exact ih v member

/-- A path is the template filled with what it gives the parameters. -/
theorem Fits.fill {ps : List Piece} {text : List Nat} {values : List (List Nat)}
    (fits : Fits ps text values) {value : List Nat → List Nat} (given : (names ps).map value = values) :
    PathTemplate.fill ps value = text := by
  induction fits with
  | nil => rfl
  | letter _ ih =>
    rw [PathTemplate.fill, List.flatMap_cons]
    exact congrArg _ (ih given)
  | @parameter name v ps text values _ _ ih =>
    obtain ⟨same, others⟩ := List.cons.inj given
    rw [PathTemplate.fill, List.flatMap_cons]
    simp only at same ⊢
    rw [same]
    exact congrArg _ (ih others)

end Foundation.PathTemplate
