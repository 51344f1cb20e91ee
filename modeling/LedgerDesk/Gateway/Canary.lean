import LedgerDesk.Gateway.Redaction

/-!
# The planted block

One canary for each shape of the dictionary is planted behind the material of a pass, and has to be
gone, and nothing else with it, when the pass is over. The material is then what stands before.
-/
namespace LedgerDesk.Gateway

open Foundation Agents Foundation.Pattern

/-- What a call's address carries: 48 hex digits as it is minted, and any text an address may
begin with. -/
structure CanaryToken where
  text : List Nat
  fits : ∀ u ∈ text, inLocalPart u = true

def canaryMark : List Nat := codeUnits "\n<<ledgerdesk-canary>> "

structure CanarySpec where
  kind : RedactionKind
  value : List Nat → List Nat
  lead : List Nat

/-- `CANARIES`, in the order in which they are planted. -/
def canarySpecs : List CanarySpec :=
  [⟨.email, fun token => codeUnits "ld-canary-" ++ token ++ codeUnits "@canary.invalid", []⟩,
    ⟨.account, fun _ => codeUnits "DE89 3704 0044 0532 0130 00", []⟩,
    ⟨.card, fun _ => codeUnits "4111 1111 1111 1111", []⟩,
    ⟨.phone, fun _ => codeUnits "0400 000 000", []⟩,
    ⟨.id, fun _ => codeUnits "123 456 782", codeUnits "TFN "⟩]

def joinedBySpaces (parts : List (List Nat)) : List Nat := [32].intercalate parts

def canaryBlock (token : List Nat) : List Nat :=
  canaryMark ++ joinedBySpaces (canarySpecs.map fun canary => canary.lead ++ canary.value token)

def expectedTail : List Nat :=
  canaryMark ++ joinedBySpaces (canarySpecs.map fun canary => canary.lead ++ marker canary.kind)

/-- How many of each kind the block adds. -/
def canaryContribution (kind : RedactionKind) : Nat :=
  (canarySpecs.filter fun canary => canary.kind == kind).length

/-- The material a pass lets on, and the counts it publishes. -/
structure Cleared where
  text : List Nat
  counts : RedactionKind → Int

/-- A pass with the block behind its material; nothing when a canary was not redacted. -/
def clearedPass (canonicalize : Nat → Nat) (token : CanaryToken) (material : List Nat)
    (literals : List (List Nat)) : Option Cleared :=
  let redacted := redact canonicalize (material ++ canaryBlock token.text) literals
  if expectedTail.isSuffixOf redacted.text then
    some
      { text := redacted.text.take (redacted.text.length - expectedTail.length)
        counts := fun kind => redacted.counts kind - canaryContribution kind }
  else none

/-! ### Passes over two texts side by side -/

/-- The results of two texts, put one behind the other. -/
structure Beside (whole left right : RedactionResult) : Prop where
  text : whole.text = left.text ++ right.text
  counts : ∀ kind, whole.counts kind = left.counts kind + right.counts kind

theorem apply_beside {rule : Rule} {whole left right : RedactionResult}
    (beside : Beside whole left right)
    (apart : rule.search whole.text = rule.search left.text ++ rule.search right.text) :
    Beside (rule.apply whole) (rule.apply left) (rule.apply right) := by
  refine ⟨?_, fun kind => ?_⟩
  · simp only [Rule.apply, apart, marked_append]
  · simp only [Rule.apply, apart, matched_append, List.length_append, beside.counts kind]
    split <;> omega

/-- What a rule of the dictionary does around the seam. -/
structure Seams (rule : Rule) : Prop where
  avoids : ∀ u ∈ codeUnits "\n<[:]", rule.pattern.body.mayTake u = false
  /-- Nothing before the seam is seen from behind it. -/
  back : ∀ front q s, rule.pattern.first isWord ⟨q ++ [60, 10] ++ front, s⟩ =
    (rule.pattern.first isWord ⟨q ++ [60, 10], s⟩).map (Place.after front)
  /-- Every match shows a digit or an at sign. -/
  shows : ∀ m, rule.pattern.body.Spells m → ∃ u ∈ m, isDigit u = true ∨ u = 64

section Seams

variable {rule : Rule}

theorem Seams.search_append (seams : Seams rule) (left right : List Nat) :
    rule.search (left ++ 10 :: 60 :: right) =
      rule.search left ++ rule.search (10 :: 60 :: right) := by
  have newline := seams.avoids 10 (by decide)
  have angle := seams.avoids 60 (by decide)
  have unseen : rule.pattern.scan isWord 0 ([60, 10] ++ left.reverse) right =
      rule.pattern.scan isWord 0 [60, 10] right := by
    refine scan_after left.reverse [60, 10] right fun m s _ => ?_
    exact seams.back left.reverse m.reverse s
  rw [Rule.search, scan_append newline (by decide), Rule.search, Rule.search,
    scan_cons_of_avoids newline, scan_cons_of_avoids newline, scan_cons_of_avoids angle,
    scan_cons_of_avoids angle, List.append_nil]
  exact congrArg _ (congrArg _ (congrArg _ unseen))

/-- The opening of a text at the seam stays. -/
theorem Seams.opening (seams : Seams rule) (right : List Nat) :
    ∃ rest, marked (marker rule.kind) (rule.search (10 :: 60 :: right)) = 10 :: 60 :: rest := by
  rw [Rule.search, scan_cons_of_avoids (seams.avoids 10 (by decide)),
    scan_cons_of_avoids (seams.avoids 60 (by decide))]
  exact ⟨_, rfl⟩

end Seams

/-! ### The rules of the dictionary around the seam -/

def Shows (u : Nat) : Prop := isDigit u = true ∨ u = 64

theorem seams_of_plain {rule : Rule} (plain : rule.pattern.behind = none)
    (avoids : ∀ u ∈ codeUnits "\n<[:]", rule.pattern.body.mayTake u = false)
    (needs : rule.pattern.body.Needs Shows) : Seams rule := by
  refine ⟨avoids, fun front q s => ?_, fun m spells => Regex.exists_of_needs needs spells⟩
  have passed : q ++ [60, 10] ≠ [] := by simp
  refine first_map (φ := Place.after front) (x := ⟨q ++ [60, 10], s⟩) (fun r looks => ?_)
    (Regex.ends_after front _ (.inl passed))
  rw [plain] at looks
  cases looks

/-- From behind the seam the look for a label ends at the seam: the gap does not reach over the
newline, no label holds the angle, and no word ends between the two. -/
theorem label_behind_seam {label : Regex Nat} (avoids : label.mayTake 60 = false)
    (front q s : List Nat) :
    ((Regex.seq (.seq (.seq .boundary label) .boundary) labelGap).reversed.ends isWord
        ⟨s, q ++ [60, 10] ++ front⟩).isEmpty =
      ((Regex.seq (.seq (.seq .boundary label) .boundary) labelGap).reversed.ends isWord
        ⟨s, q ++ [60, 10]⟩).isEmpty := by
  let rest : Regex Nat := .seq .boundary (.seq label.reversed .boundary)
  have rest_avoids : rest.mayTake 60 = false := by simp [rest, Regex.mayTake, avoids]
  have split : ∀ front, (Regex.seq (.seq (.seq .boundary label) .boundary) labelGap).reversed.ends
      isWord ⟨s, q ++ [60, 10] ++ front⟩ =
        (labelGap.ends isWord ⟨s, q ++ [60]⟩).flatMap fun y =>
          rest.ends isWord (y.followedBy (10 :: front)) := by
    intro front
    have gap : labelGap.ends isWord (Place.followedBy (10 :: front) ⟨s, q ++ [60]⟩) =
        (labelGap.ends isWord ⟨s, q ++ [60]⟩).map (Place.followedBy (10 :: front)) :=
      Regex.ends_followedBy front _ (by decide) (by decide)
    have place : (⟨s, q ++ [60, 10] ++ front⟩ : Place Nat) =
        Place.followedBy (10 :: front) ⟨s, q ++ [60]⟩ := by
      simp [Place.followedBy]
    rw [place]
    change (labelGap.ends isWord _).flatMap (rest.ends isWord) = _
    rw [gap, List.flatMap_map]
  have empty_iff : ∀ front, ∀ y ∈ labelGap.ends isWord ⟨s, q ++ [60]⟩,
      (rest.ends isWord (y.followedBy (10 :: front))).isEmpty =
        (rest.ends isWord (y.followedBy [10])).isEmpty := by
    intro front y member
    obtain ⟨m, -, ahead, passed⟩ := Regex.walks_of_mem_ends _ _ member
    obtain ⟨before, beyond⟩ := y
    rcases List.eq_nil_or_concat beyond with rfl | ⟨a, z, rfl⟩
    · -- The gap has taken the angle, and no word ends behind it.
      obtain rfl : q ++ [60] = m := by simpa using ahead
      obtain rfl : before = (q ++ [60]).reverse ++ s := passed
      simp [rest, Regex.ends, Place.followedBy, isWord, isAlnum, isDigit, isUpper, isLower]
    · have split : q ++ [60] = (m ++ a) ++ [z] := ahead.trans (by simp)
      obtain ⟨-, last⟩ := List.append_inj' split rfl
      obtain rfl : 60 = z := by simpa using last
      have place : ∀ front, Place.followedBy (10 :: front) (⟨before, a ++ [60]⟩ : Place Nat) =
          Place.followedBy (60 :: 10 :: front) ⟨before, a⟩ := by
        intro front
        simp [Place.followedBy]
      rw [List.concat_eq_append, place, place,
        Regex.ends_followedBy (10 :: front) _ rest_avoids (by decide),
        Regex.ends_followedBy [10] _ rest_avoids (by decide), List.isEmpty_map, List.isEmpty_map]
  have plain := split []
  rw [List.append_nil] at plain
  rw [split front, plain, Bool.eq_iff_iff, List.isEmpty_iff, List.isEmpty_iff,
    List.flatMap_eq_nil_iff, List.flatMap_eq_nil_iff]
  refine forall₂_congr fun y member => ?_
  rw [← List.isEmpty_iff, ← List.isEmpty_iff, empty_iff front y member]

theorem seams_labelled (kind : RedactionKind) {label : Regex Nat} (hi : Nat)
    (avoids : label.mayTake 60 = false) : Seams (labelledRule kind label hi) := by
  have needs : (labelledRule kind label hi).pattern.body.Needs Shows :=
    .inl fun u digit => .inl digit
  refine ⟨fun u seam => ?_, fun front q s => ?_, fun m => Regex.exists_of_needs needs⟩
  · have listed : ∀ u ∈ codeUnits "\n<[:]",
        (Regex.seq Regex.digit (Regex.separatedDigits 4 0)).mayTake u = false := by decide
    exact listed u seam
  · have passed : q ++ [60, 10] ≠ [] := by simp
    refine first_map (φ := Place.after front) (x := ⟨q ++ [60, 10], s⟩) (fun r looks => ?_)
      (Regex.ends_after front _ (.inl passed))
    obtain rfl := Option.some.inj looks
    exact label_behind_seam avoids front q s

theorem seams_of_mem {rule : Rule} (member : rule ∈ redactionRules) : Seams rule := by
  simp only [redactionRules, List.mem_cons, List.not_mem_nil, or_false] at member
  rcases member with rfl | rfl | rfl | rfl | rfl | rfl | rfl | rfl | rfl | rfl | rfl
  case inr.inr.inr.inr.inr.inr.inr.inr.inr.inl => exact seams_labelled _ _ (by decide)
  case inr.inr.inr.inr.inr.inr.inr.inr.inr.inr => exact seams_labelled _ _ (by decide)
  all_goals
    refine seams_of_plain rfl (by decide) ?_
    simp +contextual [Regex.chain, Foundation.Regex.Needs, Regex.one, Regex.digits, Regex.exactly,
      Regex.digit, Shows, emailRule, ibanRule, bsbRule, cardGroupsRule, cardExpressRule,
      cardRunRule, phoneAbroadRule, phoneAreaRule, phoneHomeRule]

/-! ### Literals around the seam -/

section Literals

variable {canonicalize : Nat → Nat}

/-- The text is the literal in some case. -/
def SameLetters (canonicalize : Nat → Nat) (literal text : List Nat) : Prop :=
  text.map canonicalize = literal.map canonicalize

theorem mem_ends_spelledOut {literal : List Nat} {x y : Place Nat} :
    y ∈ (spelledOut canonicalize literal).ends isWord x ↔
      ∃ m, SameLetters canonicalize literal m ∧ x.ahead = m ++ y.ahead ∧
        y.passed = m.reverse ++ x.passed := by
  induction literal generalizing x with
  | nil =>
    simp only [spelledOut, List.foldr_nil, Regex.ends, List.mem_singleton, SameLetters, List.map_nil,
      List.map_eq_nil_iff, exists_eq_left, List.nil_append, List.reverse_nil]
    rw [Place.ext_iff]
    constructor
    · exact fun same => ⟨same.2.symm, same.1⟩
    · exact fun same => ⟨same.2, same.1.symm⟩
  | cons c literal ih =>
    obtain ⟨passed, ahead⟩ := x
    have here : (spelledOut canonicalize (c :: literal)).ends isWord ⟨passed, ahead⟩ =
        ((Foundation.Regex.set fun u => canonicalize u == canonicalize c).ends isWord
          ⟨passed, ahead⟩).flatMap ((spelledOut canonicalize literal).ends isWord) := rfl
    rw [here, List.mem_flatMap]
    constructor
    · rintro ⟨z, first, later⟩
      cases ahead with
      | nil => cases first
      | cons u ahead =>
        simp only [Regex.ends] at first
        split at first
        · next same =>
          rw [List.mem_singleton.mp first] at later
          obtain ⟨m, letters, text, back⟩ := ih.mp later
          refine ⟨u :: m, ?_, ?_, ?_⟩
          · rw [SameLetters, List.map_cons, List.map_cons, letters, eq_of_beq same]
          · exact congrArg (u :: ·) text
          · simpa using back
        · cases first
    · rintro ⟨m, letters, text, back⟩
      cases m with
      | nil => cases letters
      | cons u m =>
        obtain ⟨same, letters⟩ := List.cons.inj letters
        obtain rfl : ahead = u :: (m ++ y.ahead) := text
        refine ⟨⟨u :: passed, m ++ y.ahead⟩, ?_, ih.mpr ⟨m, letters, rfl, by simpa using back⟩⟩
        simp [Regex.ends, same]

theorem literalRule_told {literal : List Nat} {rule : Rule}
    (made : literalRule canonicalize literal = some rule) :
    rule.kind = .literal ∧ Told isWord rule.pattern (SameLetters canonicalize literal) := by
  cases literal with
  | nil => cases made
  | cons c literal =>
    obtain rfl := Option.some.inj made
    refine ⟨rfl, fun passed ahead y => ?_⟩
    have first_iff : (⟨none, spelledOut canonicalize (c :: literal), rfl⟩ : Pattern Nat).first isWord
        ⟨passed, ahead⟩ = ((spelledOut canonicalize (c :: literal)).ends isWord ⟨passed, ahead⟩).head? :=
      first_of_plain rfl _
    rw [first_iff]
    constructor
    · intro found
      exact mem_ends_spelledOut.mp (List.mem_of_head? found)
    · intro found
      have member : y ∈ (spelledOut canonicalize (c :: literal)).ends isWord ⟨passed, ahead⟩ :=
        mem_ends_spelledOut.mpr found
      -- All ends take as many letters as the literal has.
      cases all : (spelledOut canonicalize (c :: literal)).ends isWord ⟨passed, ahead⟩ with
      | nil => rw [all] at member; cases member
      | cons z zs =>
        obtain ⟨m, letters, text, back⟩ := found
        have other : z ∈ (spelledOut canonicalize (c :: literal)).ends isWord ⟨passed, ahead⟩ := by
          rw [all]
          exact List.mem_cons_self
        obtain ⟨m', letters', text', back'⟩ := mem_ends_spelledOut.mp other
        have lengths := congrArg List.length (letters.trans letters'.symm)
        rw [List.length_map, List.length_map] at lengths
        obtain ⟨rfl, ahead_eq⟩ := List.append_inj (text.symm.trans text') lengths
        rw [List.head?_cons, Option.some_inj, Place.ext_iff]
        exact ⟨back'.trans back.symm, ahead_eq.symm⟩

end Literals

/-- A literal was taken out, and no line ends behind its marker. -/
def Spoiled (text : List Nat) : Prop :=
  ∃ front back, text = front ++ marker .literal ++ back ∧ 10 ∉ back

theorem spoiled_of_taken {rule : Rule} (kind : rule.kind = .literal) {pieces : List (Piece Nat)}
    {before : List (Piece Nat)} {m rest : List Nat}
    (taken : pieces = before ++ .taken m :: rest.map .kept) (line : 10 ∉ rest) :
    Spoiled (marked (marker rule.kind) pieces) := by
  refine ⟨marked (marker rule.kind) before, rest, ?_, line⟩
  rw [taken, kind, marked_append, marked_cons, marked_kept, List.append_assoc]
  rfl

/-- What a literal takes out of a spoiled text leaves it spoiled. -/
theorem Spoiled.literal {rule : Rule} (kind : rule.kind = .literal) {text : List Nat}
    (spoiled : Spoiled text) : Spoiled (marked (marker rule.kind) (rule.search text)) := by
  have whole : letters (rule.search text) = text := letters_scan [] text
  rcases last_taken (rule.search text) with none | ⟨before, m, rest, taken⟩
  · rw [none, whole, marked_kept]
    exact spoiled
  · by_cases line : 10 ∈ rest
    · -- The last match lies before the line in which the text is spoiled.
      obtain ⟨front, back, text_eq, newline⟩ := spoiled
      rw [taken, letters_append, letters_cons, letters_kept, ← List.append_assoc] at whole
      have ends_rest : rest <:+ text := ⟨_, whole⟩
      have ends_spoiled : marker .literal ++ back <:+ text :=
        ⟨front, by rw [text_eq, List.append_assoc]⟩
      rcases List.suffix_or_suffix_of_suffix ends_rest ends_spoiled with inside | ⟨inner, later⟩
      · rcases List.mem_append.mp (inside.subset line) with marked | behind
        · exact absurd marked (by decide)
        · exact absurd behind newline
      · refine ⟨marked (marker rule.kind) (before ++ [.taken m]) ++ inner, back, ?_, newline⟩
        rw [taken, ← later, marked_append, marked_append, marked_cons, marked_cons, marked_kept]
        simp [marked]
    · exact spoiled_of_taken kind taken line

/-- What a rule of the dictionary takes out of a spoiled text leaves it spoiled. -/
theorem Spoiled.rule {rule : Rule} (seams : Seams rule) {text : List Nat}
    (spoiled : Spoiled text) : Spoiled (marked (marker rule.kind) (rule.search text)) := by
  obtain ⟨front, back, rfl, newline⟩ := spoiled
  have bracket := seams.avoids 91 (by decide)
  have colon := seams.avoids 58 (by decide)
  have closing := seams.avoids 93 (by decide)
  have plain : ∀ part ∈ [codeUnits "REDACTED", codeUnits "literal"], ∀ passed,
      rule.pattern.scan isWord 0 passed part = part.map .kept := by
    intro part among passed
    refine scan_of_no_match fun m spells inside => ?_
    obtain ⟨u, member, shows⟩ := seams.shows m spells
    have listed : ∀ part ∈ [codeUnits "REDACTED", codeUnits "literal"], ∀ u ∈ part,
        ¬ (isDigit u = true ∨ u = 64) := by decide
    exact listed part among u (inside.subset member) shows
  have apart : front ++ marker .literal ++ back =
      front ++ 91 :: (codeUnits "REDACTED" ++ 58 :: (codeUnits "literal" ++ 93 :: back)) := by
    rw [List.append_assoc]
    rfl
  have searched : ∃ qs passed, rule.search (front ++ marker .literal ++ back) =
      qs ++ (marker .literal).map .kept ++ rule.pattern.scan isWord 0 passed back := by
    refine ⟨rule.search front, 93 :: ((codeUnits "literal").reverse ++ 58 ::
      ((codeUnits "REDACTED").reverse ++ 91 :: (front.reverse ++ []))), ?_⟩
    rw [apart, Rule.search, scan_append bracket (by decide), scan_cons_of_avoids bracket,
      scan_append colon (by decide), scan_cons_of_avoids colon, scan_append closing (by decide),
      scan_cons_of_avoids closing, plain (codeUnits "REDACTED") (by simp),
      plain (codeUnits "literal") (by simp), List.append_assoc]
    rfl
  obtain ⟨qs, passed, pieces⟩ := searched
  refine ⟨marked (marker rule.kind) qs,
    marked (marker rule.kind) (rule.pattern.scan isWord 0 passed back), ?_, fun line => ?_⟩
  · rw [pieces, marked_append, marked_append, marked_kept]
  · rcases mem_marked line with marker | behind
    · revert marker
      cases rule.kind <;> decide
    · rw [letters_scan] at behind
      exact newline behind

/-! ### A whole pass around the seam -/

theorem spoiled_run {rules : List Rule} {result : RedactionResult}
    (each : ∀ rule ∈ rules, rule.kind = .literal ∨ Seams rule) (spoiled : Spoiled result.text) :
    Spoiled (run rules result).text := by
  induction rules generalizing result with
  | nil => exact spoiled
  | cons rule rules ih =>
    obtain ⟨here, later⟩ := List.forall_mem_cons.mp each
    have next : Spoiled (rule.apply result).text := by
      rcases here with literal | seams
      · exact spoiled.literal literal
      · exact spoiled.rule seams
    exact ih later next

/-- Each literal is taken out of the material alone, or the text is spoiled. -/
theorem literals_beside {rules : List Rule} {whole left : RedactionResult} {block : List Nat}
    (each : ∀ rule ∈ rules, rule.kind = .literal ∧ ∃ kind, Told isWord rule.pattern kind)
    (line : ∀ rest, rest <:+ block → rest.length < block.length → 10 ∉ rest)
    (beside : Beside whole left (untouched block)) :
    Beside (run rules whole) (run rules left) (untouched block) ∨ Spoiled (run rules whole).text := by
  induction rules generalizing whole left with
  | nil => exact .inl beside
  | cons rule rules ih =>
    obtain ⟨⟨literal, kind, told⟩, later⟩ := List.forall_mem_cons.mp each
    have text : whole.text = left.text ++ block := beside.text
    rcases scan_beside told [] left.text block with apart | ⟨before, m, rest, taken, short⟩
    · have next : Beside (rule.apply whole) (rule.apply left) (untouched block) := by
        refine ⟨?_, fun kind => ?_⟩
        · simp only [Rule.apply, Rule.search, text, apart, marked_append, marked_kept, untouched]
        · have counts := beside.counts kind
          simp only [Rule.apply, Rule.search, text, apart, matched_append, matched_kept,
            List.append_nil, untouched] at counts ⊢
          omega
      exact ih later next
    · have reaches : rest <:+ block := by
        have whole_letters : letters (rule.pattern.scan isWord 0 [] (left.text ++ block)) =
            left.text ++ block := letters_scan [] _
        rw [taken, letters_append, letters_cons, letters_kept, ← List.append_assoc] at whole_letters
        have ends_rest : rest <:+ left.text ++ block := ⟨_, whole_letters⟩
        exact List.suffix_of_suffix_length_le ends_rest (List.suffix_append ..) short.le
      have found : rule.search whole.text = before ++ .taken m :: rest.map .kept := by
        rw [Rule.search, text, taken]
      have next : Spoiled (rule.apply whole).text :=
        spoiled_of_taken literal found (line rest reaches short)
      have rest_spoiled : Spoiled (run rules (rule.apply whole)).text :=
        spoiled_run (fun r among => .inl (later r among).1) next
      exact .inr rest_spoiled

theorem rules_beside {rules : List Rule} {whole left right : RedactionResult}
    (each : ∀ rule ∈ rules, Seams rule) (beside : Beside whole left right)
    (opening : ∃ rest, right.text = 10 :: 60 :: rest) :
    Beside (run rules whole) (run rules left) (run rules right) := by
  induction rules generalizing whole left right with
  | nil => exact beside
  | cons rule rules ih =>
    obtain ⟨seams, later⟩ := List.forall_mem_cons.mp each
    obtain ⟨rest, opens⟩ := opening
    have next : Beside (rule.apply whole) (rule.apply left) (rule.apply right) := by
      refine apply_beside beside ?_
      rw [beside.text, opens]
      exact seams.search_append left.text rest
    have still : ∃ rest, (rule.apply right).text = 10 :: 60 :: rest := by
      simp only [Rule.apply, opens]
      exact seams.opening rest
    exact ih later next still

/-! ### The block alone -/

/-- The part of the block that carries the token. -/
def canaryAddress (token : List Nat) : List Nat :=
  codeUnits "ld-canary-" ++ token ++ codeUnits "@canary.invalid"

def fixedCanaries : List Nat :=
  codeUnits "DE89 3704 0044 0532 0130 00 4111 1111 1111 1111 0400 000 000 TFN 123 456 782"

theorem canaryBlock_eq (token : List Nat) :
    canaryBlock token = codeUnits "\n<<ledgerdesk-canary>>" ++
      32 :: (canaryAddress token ++ 32 :: fixedCanaries) := by
  have mark : canaryMark = codeUnits "\n<<ledgerdesk-canary>>" ++ [32] := by decide
  have fixed : fixedCanaries = codeUnits "DE89 3704 0044 0532 0130 00" ++ 32 ::
      (codeUnits "4111 1111 1111 1111" ++ 32 :: (codeUnits "0400 000 000" ++ 32 ::
        (codeUnits "TFN " ++ codeUnits "123 456 782"))) := by decide
  rw [canaryBlock, mark, fixed]
  simp [joinedBySpaces, canarySpecs, canaryAddress, List.intercalate]

/-- A run of letters is taken whole, before any shorter one is tried. -/
theorem head_many_set {word p : Nat → Bool} {m : List Nat} {c : Nat} (s passed : List Nat)
    (some_ : m ≠ []) (all : ∀ u ∈ m, p u = true) (stops : p c = false) :
    ((Regex.many (Foundation.Regex.set p)).ends word ⟨passed, m ++ c :: s⟩).head? =
      some ⟨m.reverse ++ passed, c :: s⟩ := by
  have greedy : ∀ (m : List Nat), (∀ u ∈ m, p u = true) → ∀ n, m.length ≤ n → ∀ passed,
      (Foundation.Regex.atMost ((Foundation.Regex.set p).ends word) n ⟨passed, m ++ c :: s⟩).head? =
        some ⟨m.reverse ++ passed, c :: s⟩ := by
    intro m
    induction m with
    | nil =>
      intro _ n _ passed
      cases n with
      | zero => rfl
      | succ n => simp [Foundation.Regex.atMost, Foundation.Regex.ends, stops]
    | cons u m ih =>
      intro all n enough passed
      obtain ⟨here, later⟩ := List.forall_mem_cons.mp all
      cases n with
      | zero => cases enough
      | succ n =>
        have rest := ih later n (Nat.le_of_succ_le_succ enough) (u :: passed)
        have step : Foundation.Regex.atMost ((Foundation.Regex.set p).ends word) (n + 1)
            ⟨passed, u :: (m ++ c :: s)⟩ =
              Foundation.Regex.atMost ((Foundation.Regex.set p).ends word) n
                ⟨u :: passed, m ++ c :: s⟩ ++ [⟨passed, u :: (m ++ c :: s)⟩] := by
          simp [Foundation.Regex.atMost, Foundation.Regex.ends, here]
        rw [List.cons_append, step, List.head?_append, rest, List.reverse_cons, List.append_assoc]
        rfl
  cases m with
  | nil => exact absurd rfl some_
  | cons u m =>
    obtain ⟨here, later⟩ := List.forall_mem_cons.mp all
    have rest := greedy m later (m ++ c :: s).length (by simp) (u :: passed)
    rw [List.reverse_cons, List.append_assoc]
    simp only [Regex.many, Foundation.Regex.ends, Foundation.Regex.exactly, List.cons_append, here,
      if_true, List.flatMap_cons, List.flatMap_nil, List.append_nil, Option.map_none,
      Option.getD_none]
    exact rest

theorem head_flatMap {f : Place Nat → List (Place Nat)} {l : List (Place Nat)} {y z : Place Nat}
    (first : l.head? = some y) (then_ : (f y).head? = some z) : (l.flatMap f).head? = some z := by
  cases l with
  | nil => cases first
  | cons x l =>
    obtain rfl := Option.some.inj first
    rw [List.flatMap_cons, List.head?_append, then_]
    rfl

/-- The address of the block is one match, whatever the token. -/
theorem first_address (token : CanaryToken) (passed : List Nat) :
    emailRule.pattern.first isWord ⟨passed, canaryAddress token.text ++ []⟩ =
      some ⟨(canaryAddress token.text).reverse ++ passed, []⟩ := by
  have start : codeUnits "ld-canary-" ++ token.text ≠ [] :=
    List.append_ne_nil_of_left_ne_nil (by decide) _
  have inside : ∀ u ∈ codeUnits "ld-canary-" ++ token.text, inLocalPart u = true := by
    intro u member
    rcases List.mem_append.mp member with fixed | minted
    · have listed : ∀ u ∈ codeUnits "ld-canary-", inLocalPart u = true := by decide
      exact listed u fixed
    · exact token.fits u minted
  let back := (codeUnits "ld-canary-" ++ token.text).reverse ++ passed
  have local_part : ((Regex.many (Foundation.Regex.set inLocalPart)).ends isWord ⟨passed,
      (codeUnits "ld-canary-" ++ token.text) ++ 64 :: codeUnits "canary.invalid"⟩).head? =
        some ⟨back, 64 :: codeUnits "canary.invalid"⟩ :=
    head_many_set _ passed start inside (by decide)
  have domain : ((Regex.chain [Regex.many (Foundation.Regex.set inDomain),
      Regex.many (.seq (Regex.one '.') (Regex.many (.set inDomain)))]).ends isWord
        (Place.after back ⟨[64], codeUnits "canary.invalid"⟩)).head? =
      some (Place.after back ⟨(codeUnits "@canary.invalid").reverse, []⟩) := by
    have alone : ((Regex.chain [Regex.many (Foundation.Regex.set inDomain),
        Regex.many (.seq (Regex.one '.') (Regex.many (.set inDomain)))]).ends isWord
          ⟨[64], codeUnits "canary.invalid"⟩).head? =
        some ⟨(codeUnits "@canary.invalid").reverse, []⟩ := by decide +kernel
    rw [Foundation.Regex.ends_after back _ (.inl (by simp)), List.head?_map, alone]
    rfl
  have text : canaryAddress token.text ++ [] =
      (codeUnits "ld-canary-" ++ token.text) ++ 64 :: codeUnits "canary.invalid" := by
    rw [List.append_nil]
    rfl
  have whole : (emailRule.pattern.body.ends isWord ⟨passed, canaryAddress token.text ++ []⟩).head? =
      some (Place.after back ⟨(codeUnits "@canary.invalid").reverse, []⟩) := by
    rw [text]
    refine head_flatMap local_part ?_
    exact head_flatMap (y := Place.after back ⟨[64], codeUnits "canary.invalid"⟩) rfl domain
  have place : (⟨(canaryAddress token.text).reverse ++ passed, []⟩ : Place Nat) =
      Place.after back ⟨(codeUnits "@canary.invalid").reverse, []⟩ := by
    simp [Place.after, back, canaryAddress]
  rw [place, first_of_plain rfl]
  exact whole

/-- Once the address is out of the block, no letter of the token is left in it. -/
def addressedBlock : List Nat :=
  codeUnits "\n<<ledgerdesk-canary>>" ++ 32 :: (marker .email ++ 32 :: fixedCanaries)

theorem search_block (token : CanaryToken) : emailRule.search (canaryBlock token.text) =
    (codeUnits "\n<<ledgerdesk-canary>>").map .kept ++
      .kept 32 :: .taken (canaryAddress token.text) :: .kept 32 :: fixedCanaries.map .kept := by
  have space : emailRule.pattern.body.mayTake 32 = false := by decide
  have sign : emailRule.pattern.body.Needs fun u => u = 64 := by
    simp [emailRule, Regex.chain, Foundation.Regex.Needs, Regex.one]
  have plain : ∀ part : List Nat, 64 ∉ part → ∀ passed,
      emailRule.pattern.scan isWord 0 passed part = part.map .kept := by
    intro part absent passed
    refine scan_of_no_match fun m spells inside => ?_
    obtain ⟨u, member, rfl⟩ := Foundation.Regex.exists_of_needs sign spells
    exact absent (inside.subset member)
  have address : ∀ passed, emailRule.pattern.scan isWord 0 passed (canaryAddress token.text) =
      [.taken (canaryAddress token.text)] := by
    intro passed
    have some_ : canaryAddress token.text ≠ [] :=
      List.append_ne_nil_of_right_ne_nil _ (by decide)
    have taken := scan_take some_ (first_address token passed)
    rwa [List.append_nil, scan_nil] at taken
  rw [canaryBlock_eq, Rule.search, scan_append space (by decide), scan_cons_of_avoids space,
    scan_append space (by decide), scan_cons_of_avoids space, address, plain _ (by decide),
    plain fixedCanaries (by decide)]
  rfl

/-- Two results that go on alike. -/
structure Alike (a b : RedactionResult) : Prop where
  text : a.text = b.text
  counts : ∀ kind, a.counts kind = b.counts kind

theorem Alike.run {rules : List Rule} {a b : RedactionResult} (alike : Alike a b) :
    Alike (run rules a) (run rules b) := by
  induction rules generalizing a b with
  | nil => exact alike
  | cons rule rules ih =>
    have next : Alike (rule.apply a) (rule.apply b) := by
      refine ⟨?_, fun kind => ?_⟩
      · simp only [Rule.apply, alike.text]
      · simp only [Rule.apply, alike.text, alike.counts kind]
    exact ih next

/-- The text a run of rules ends with, and how many matches each rule had. -/
def tally : List Rule → List Nat → List Nat × List (RedactionKind × Nat)
  | [], text => (text, [])
  | rule :: rules, text =>
    let pieces := rule.search text
    let later := tally rules (marked (marker rule.kind) pieces)
    (later.1, (rule.kind, (matched pieces).length) :: later.2)

theorem run_tally (rules : List Rule) (result : RedactionResult) :
    (run rules result).text = (tally rules result.text).1 ∧
      ∀ kind, (run rules result).counts kind = result.counts kind +
        ((tally rules result.text).2.map fun found => if kind = found.1 then found.2 else 0).sum := by
  induction rules generalizing result with
  | nil => exact ⟨rfl, fun kind => rfl⟩
  | cons rule rules ih =>
    obtain ⟨text, counts⟩ := ih (rule.apply result)
    refine ⟨text, fun kind => (counts kind).trans ?_⟩
    simp only [tally, List.map_cons, List.sum_cons, Rule.apply]
    omega

/-- The dictionary turns the block into the tail that is looked for, one canary a shape. -/
theorem run_block (token : CanaryToken) :
    (run redactionRules (untouched (canaryBlock token.text))).text = expectedTail ∧
      ∀ kind, (run redactionRules (untouched (canaryBlock token.text))).counts kind =
        canaryContribution kind := by
  let addressed : RedactionResult := ⟨addressedBlock, [], fun kind => if kind = .email then 1 else 0⟩
  have first : Alike (emailRule.apply (untouched (canaryBlock token.text))) addressed := by
    refine ⟨?_, fun kind => ?_⟩
    · simp only [Rule.apply, untouched, search_block, addressed]
      simp [addressedBlock, Piece.marked, emailRule]
    · simp only [Rule.apply, untouched, search_block, addressed]
      simp [emailRule]
  have starts : run redactionRules (untouched (canaryBlock token.text)) =
      run redactionRules.tail (emailRule.apply (untouched (canaryBlock token.text))) := by
    rw [run, run, redactionRules, List.foldl_cons, List.tail_cons]
  have later : Alike (run redactionRules.tail (emailRule.apply (untouched (canaryBlock token.text))))
      (run redactionRules.tail addressed) := first.run
  have closed : tally redactionRules.tail addressedBlock = (expectedTail,
      [(.account, 1), (.account, 0), (.card, 1), (.card, 0), (.card, 0), (.phone, 0), (.phone, 0),
        (.phone, 1), (.account, 0), (.id, 1)]) := by
    decide +kernel
  obtain ⟨text, counts⟩ := run_tally redactionRules.tail addressed
  rw [closed] at text counts
  refine ⟨by rw [starts, later.text, text], fun kind => ?_⟩
  rw [starts, later.counts kind, counts kind]
  cases kind <;> decide

/-! ### The material apart from the block -/

theorem not_spoiled_of_cleared {text : List Nat} (cleared : expectedTail <:+ text) :
    ¬ Spoiled text := by
  rintro ⟨front, back, rfl, newline⟩
  have ends_spoiled : marker .literal ++ back <:+ front ++ marker .literal ++ back :=
    ⟨front, by rw [List.append_assoc]⟩
  have plain : ¬ marker .literal <:+: expectedTail := by decide +kernel
  rcases List.suffix_or_suffix_of_suffix ends_spoiled cleared with inside | whole
  · exact plain ((List.prefix_append (marker .literal) back).isInfix.trans inside.isInfix)
  · have line : 10 ∈ marker .literal ++ back := whole.subset (by decide +kernel)
    rcases List.mem_append.mp line with marked | behind
    · exact absurd marked (by decide)
    · exact newline behind

/-- The block is one line, which its first letter begins. -/
theorem one_line_block (token : CanaryToken) {rest : List Nat}
    (reaches : rest <:+ canaryBlock token.text)
    (short : rest.length < (canaryBlock token.text).length) : 10 ∉ rest := by
  have minted : 10 ∉ token.text := fun member => by
    have fits := token.fits 10 member
    revert fits
    decide
  have address : 10 ∉ canaryAddress token.text := by
    rw [canaryAddress, List.mem_append, List.mem_append]
    rintro ((fixed | member) | fixed)
    · revert fixed
      decide
    · exact minted member
    · revert fixed
      decide
  have opens : canaryBlock token.text = 10 :: (codeUnits "<<ledgerdesk-canary>>" ++
      32 :: (canaryAddress token.text ++ 32 :: fixedCanaries)) := by
    rw [canaryBlock_eq]
    rfl
  rw [opens] at reaches short
  rcases List.suffix_cons_iff.mp reaches with rfl | inside
  · exact absurd short (lt_irrefl _)
  · intro line
    have listed : 10 ∉ codeUnits "<<ledgerdesk-canary>>" ∧ 10 ∉ fixedCanaries := by decide
    rcases List.mem_append.mp (inside.subset line) with mark | later
    · exact listed.1 mark
    · simp only [List.mem_cons, List.mem_append] at later
      rcases later with space | member | space | member
      · cases space
      · exact address member
      · cases space
      · exact listed.2 member

theorem literal_rules_told {canonicalize : Nat → Nat} {literals : List (List Nat)} {rule : Rule}
    (member : rule ∈ (orderedLiterals literals).filterMap (literalRule canonicalize)) :
    rule.kind = .literal ∧ ∃ kind, Told isWord rule.pattern kind := by
  obtain ⟨literal, -, made⟩ := List.mem_filterMap.mp member
  exact (literalRule_told made).imp id fun told => ⟨_, told⟩

/-- The material and the block are redacted each by itself, or the text is spoiled. -/
theorem redact_beside (canonicalize : Nat → Nat) (token : CanaryToken) (material : List Nat)
    (literals : List (List Nat)) :
    Beside (redact canonicalize (material ++ canaryBlock token.text) literals)
        (redact canonicalize material literals)
        (run redactionRules (untouched (canaryBlock token.text))) ∨
      Spoiled (run ((orderedLiterals literals).filterMap (literalRule canonicalize))
        (untouched (material ++ canaryBlock token.text))).text := by
  have start : Beside (untouched (material ++ canaryBlock token.text)) (untouched material)
      (untouched (canaryBlock token.text)) := ⟨rfl, fun kind => rfl⟩
  rw [redact_eq, redact_eq]
  refine (literals_beside (fun rule member => literal_rules_told member)
    (fun rest reaches short => one_line_block token reaches short) start).imp (fun apart => ?_) id
  exact rules_beside (fun rule member => seams_of_mem member) apart
    ⟨_, by rw [untouched, canaryBlock_eq]; rfl⟩

/-- A spoiled text does not end as a pass asks. -/
theorem beside_of_cleared {canonicalize : Nat → Nat} {token : CanaryToken} {material : List Nat}
    {literals : List (List Nat)} {published : Cleared}
    (cleared : clearedPass canonicalize token material literals = some published) :
    Beside (redact canonicalize (material ++ canaryBlock token.text) literals)
      (redact canonicalize material literals)
      (run redactionRules (untouched (canaryBlock token.text))) := by
  rw [clearedPass] at cleared
  split at cleared
  · next tail =>
    rcases redact_beside canonicalize token material literals with beside | spoiled
    · exact beside
    · have ends_tail := List.isSuffixOf_iff_suffix.mp tail
      rw [redact_eq] at ends_tail
      exact absurd (spoiled_run (fun rule member => .inr (seams_of_mem member)) spoiled)
        (not_spoiled_of_cleared ends_tail)
  · cases cleared

theorem published_of_cleared {canonicalize : Nat → Nat} {token : CanaryToken} {material : List Nat}
    {literals : List (List Nat)} {published : Cleared}
    (cleared : clearedPass canonicalize token material literals = some published) :
    published.text = (redact canonicalize material literals).text ∧
      ∀ kind, published.counts kind = (redact canonicalize material literals).counts kind := by
  have beside := beside_of_cleared cleared
  obtain ⟨block_text, block_counts⟩ := run_block token
  have text := beside.text
  rw [block_text] at text
  rw [clearedPass] at cleared
  split at cleared
  · obtain rfl := Option.some.inj cleared
    refine ⟨by simp [text], fun kind => ?_⟩
    have sum := beside.counts kind
    rw [block_counts] at sum
    change ((redact canonicalize (material ++ canaryBlock token.text) literals).counts kind : Int) -
      canaryContribution kind = _
    omega
  · cases cleared

/-- A pass that is cleared lets the redacted material on, and counts what was taken out of it: the
block is redacted by itself and so is the material. -/
theorem material_apart {canonicalize : Nat → Nat} {token : CanaryToken} {material : List Nat}
    {literals : List (List Nat)} {published : Cleared}
    (cleared : clearedPass canonicalize token material literals = some published) :
    (redact canonicalize (material ++ canaryBlock token.text) literals).text =
        (redact canonicalize material literals).text ++ expectedTail ∧
      published.text = (redact canonicalize material literals).text ∧
      (∀ kind, published.counts kind = (redact canonicalize material literals).counts kind) ∧
      ∀ kind, 0 ≤ published.counts kind := by
  obtain ⟨text, counts⟩ := published_of_cleared cleared
  refine ⟨?_, text, counts, fun kind => ?_⟩
  · rw [(beside_of_cleared cleared).text, (run_block token).1]
  · rw [counts]
    exact Int.natCast_nonneg _

/-- Where no literals are named, every pass is cleared. -/
theorem cleared_without_literals (canonicalize : Nat → Nat) (token : CanaryToken)
    (material : List Nat) : ∃ published, clearedPass canonicalize token material [] = some published := by
  have start : Beside (untouched (material ++ canaryBlock token.text)) (untouched material)
      (untouched (canaryBlock token.text)) := ⟨rfl, fun kind => rfl⟩
  have beside := rules_beside (fun rule member => seams_of_mem member) start
    ⟨_, by rw [untouched, canaryBlock_eq]; rfl⟩
  have text := beside.text
  rw [(run_block token).1] at text
  have whole : redact canonicalize (material ++ canaryBlock token.text) [] =
      run redactionRules (untouched (material ++ canaryBlock token.text)) :=
    redact_eq canonicalize _ []
  rw [clearedPass, whole, text, if_pos (List.isSuffixOf_iff_suffix.mpr (List.suffix_append ..))]
  exact ⟨_, rfl⟩

theorem material_apart_sample :
    ∃ published, clearedPass id ⟨codeUnits "0f4a", by decide⟩ (codeUnits "my account 12345") [] =
        some published ∧
      published.text = codeUnits "my account [REDACTED:account]" := by
  obtain ⟨published, cleared⟩ := cleared_without_literals id ⟨codeUnits "0f4a", by decide⟩
    (codeUnits "my account 12345")
  exact ⟨published, cleared, (material_apart cleared).2.1.trans (by decide +kernel)⟩

end LedgerDesk.Gateway
