import LedgerDesk.Foundation.Separated
import LedgerDesk.Gateway.Scans

/-!
# Excerpts in one pass

The excerpts of a call are joined, redacted once and cut again. The dictionary works line by line,
so it meets no separator. A literal may meet one; and an excerpt may end in all of a separator but
its last letter, which together with the first letter of the separator behind it makes one that is
cut at in its place.
-/
namespace LedgerDesk.Gateway.Wire

open Foundation Foundation.Pattern
open Agents (codeUnits)

/-- The separator, in code units. -/
def separator : List Nat := codeUnits excerptSeparator

/-- The letters of the separator, so that nothing below decodes its text again. -/
theorem separator_letters : separator =
    [10, 60, 60, 108, 101, 100, 103, 101, 114, 100, 101, 115, 107, 45, 115, 111, 117, 114,
      99, 101, 62, 62, 10] := by
  rw [separator, excerptSeparator, codeUnits, String.toList_ofList]
  rfl

/-! ### Cutting -/

theorem ends_literally (text : List Char) (passed ahead : List Nat) :
    (∃ rest, ahead = text.map Char.toNat ++ rest ∧
      (Regex.chain (text.map Regex.one)).ends isWord ⟨passed, ahead⟩ =
        [⟨(text.map Char.toNat).reverse ++ passed, rest⟩]) ∨
    (¬text.map Char.toNat <+: ahead ∧
      (Regex.chain (text.map Regex.one)).ends isWord ⟨passed, ahead⟩ = []) := by
  induction text generalizing passed ahead with
  | nil => exact .inl ⟨ahead, rfl, rfl⟩
  | cons c text ih =>
    have split : (Regex.chain ((c :: text).map Regex.one)).ends isWord ⟨passed, ahead⟩ =
        ((Regex.one c).ends isWord ⟨passed, ahead⟩).flatMap
          ((Regex.chain (text.map Regex.one)).ends isWord) := by
      cases text with
      | nil => simp [Regex.chain, Foundation.Regex.ends]
      | cons d text => rfl
    rw [split]
    cases ahead with
    | nil =>
      right
      exact ⟨by simp, rfl⟩
    | cons u ahead =>
      by_cases same : u = c.toNat
      · have one : (Regex.one c).ends isWord ⟨passed, u :: ahead⟩ = [⟨u :: passed, ahead⟩] := by
          simp [Regex.one, Foundation.Regex.ends, same]
        rw [one, List.flatMap_singleton]
        rcases ih (u :: passed) ahead with ⟨rest, text_eq, found⟩ | ⟨absent, none⟩
        · left
          exact ⟨rest, by rw [text_eq, same]; rfl, by rw [found, same]; simp⟩
        · right
          refine ⟨fun begins => absent ?_, none⟩
          rw [List.map_cons, List.cons_prefix_cons] at begins
          exact begins.2
      · right
        have none : (Regex.one c).ends isWord ⟨passed, u :: ahead⟩ = [] := by
          simp [Regex.one, Foundation.Regex.ends, same]
        refine ⟨fun begins => same ?_, by rw [none]; rfl⟩
        rw [List.map_cons, List.cons_prefix_cons] at begins
        exact begins.1.symm

theorem separator_spelled : separatorPattern.Spelled isWord separator := by
  intro passed ahead y
  have first : separatorPattern.first isWord ⟨passed, ahead⟩ = _ := first_of_plain rfl _
  have letters : excerptSeparator.toList.map Char.toNat = separator := by
    rw [separator_letters, excerptSeparator, String.toList_ofList]
    rfl
  have found := ends_literally excerptSeparator.toList passed ahead
  rw [letters] at found
  change separatorPattern.first isWord ⟨passed, ahead⟩ =
    ((Regex.chain (excerptSeparator.toList.map Regex.one)).ends isWord
      ⟨passed, ahead⟩).head? at first
  rw [first]
  rcases found with ⟨rest, text, ends⟩ | ⟨absent, none⟩
  · rw [ends, List.head?_cons, Option.some_inj]
    constructor
    · rintro rfl
      exact ⟨separator, rfl, text, rfl⟩
    · rintro ⟨m, rfl, text', back⟩
      rw [Place.ext_iff]
      exact ⟨back.symm, List.append_cancel_left (text.symm.trans text')⟩
  · rw [none]
    constructor
    · intro some_
      cases some_
    · rintro ⟨m, rfl, text, -⟩
      exact absurd ⟨_, text.symm⟩ absent

theorem between_kept (text : List Nat) : between (text.map .kept) = [text] := by
  induction text with
  | nil => rfl
  | cons c text ih => rw [List.map_cons, between, ih]

theorem between_taken (first m : List Nat) (pieces : List (Piece Nat)) :
    between (first.map .kept ++ .taken m :: pieces) = first :: between pieces := by
  induction first with
  | nil => rfl
  | cons c first ih => rw [List.map_cons, List.cons_append, between, ih]

theorem splitExcerpts_cases (text : List Nat) :
    (splitExcerpts text = [text] ∧ ¬separator <:+: text) ∨
    ∃ first rest, text = first ++ separator ++ rest ∧ Unbroken separator first ∧
      splitExcerpts text = first :: splitExcerpts rest := by
  rcases separator_spelled.scan_first [] text with ⟨left, absent⟩ | ⟨first, rest, cut, whole, found⟩
  · exact .inl ⟨by rw [splitExcerpts, left, between_kept], absent⟩
  · exact .inr ⟨first, rest, cut, whole, by rw [splitExcerpts, found, between_taken]; rfl⟩

theorem separator_ne_nil : separator ≠ [] := by
  rw [separator_letters]
  exact List.cons_ne_nil _ _

theorem splitExcerpts_whole {text : List Nat} (absent : ¬separator <:+: text) :
    splitExcerpts text = [text] := by
  rcases splitExcerpts_cases text with ⟨left, -⟩ | ⟨first, rest, cut, -, -⟩
  · exact left
  · exact absurd ⟨first, rest, cut.symm⟩ absent

theorem splitExcerpts_first {first rest : List Nat} (whole : Unbroken separator first) :
    splitExcerpts (first ++ separator ++ rest) = first :: splitExcerpts rest := by
  rcases splitExcerpts_cases (first ++ separator ++ rest) with
    ⟨-, absent⟩ | ⟨a, b, cut, whole', found⟩
  · exact absurd ⟨first, rest, rfl⟩ absent
  · obtain rfl := unbroken_unique cut separator_ne_nil whole whole'
    rw [List.append_assoc, List.append_assoc] at cut
    obtain rfl := List.append_cancel_left (List.append_cancel_left cut)
    exact found

theorem splitExcerpts_ne_nil (text : List Nat) : splitExcerpts text ≠ [] := by
  rcases splitExcerpts_cases text with ⟨left, -⟩ | ⟨first, rest, -, -, found⟩
  · rw [left]
    simp
  · rw [found]
    simp

/-- A joined text is cut into what was joined where none of the texts but the last makes a separator
with what is behind it, and there are as many pieces as texts. -/
theorem splitExcerpts_joined {texts : List (List Nat)} (some_ : texts ≠ [])
    (count : (splitExcerpts (separator.intercalate texts)).length = texts.length) :
    splitExcerpts (separator.intercalate texts) = texts ↔
      ∀ text ∈ texts.dropLast, Unbroken separator text := by
  induction texts with
  | nil => exact absurd rfl some_
  | cons text rest ih =>
    cases rest with
    | nil =>
      rw [List.intercalate_singleton] at count ⊢
      rcases splitExcerpts_cases text with ⟨left, -⟩ | ⟨first, rest, -, -, found⟩
      · simp [left]
      · rw [found, List.length_cons, List.length_singleton, Nat.add_eq_right] at count
        exact absurd (List.length_eq_zero_iff.mp count) (splitExcerpts_ne_nil rest)
    | cons next rest =>
      rw [List.intercalate_cons_cons] at count ⊢
      rw [List.dropLast_cons_cons, List.forall_mem_cons]
      constructor
      · intro same
        rcases splitExcerpts_cases (text ++ separator ++ separator.intercalate (next :: rest)) with
          ⟨left, -⟩ | ⟨first, behind, cut, whole, found⟩
        · rw [left] at same
          simp at same
        · obtain ⟨rfl, later⟩ := List.cons.inj (found.symm.trans same)
          rw [List.append_assoc, List.append_assoc] at cut
          obtain rfl := List.append_cancel_left (List.append_cancel_left cut)
          refine ⟨whole, (ih (by simp) ?_).mp later⟩
          rw [later]
      · rintro ⟨whole, later⟩
        rw [splitExcerpts_first whole] at count ⊢
        rw [(ih (by simp) (by simpa using count)).mpr later]

/-! ### Ending like a separator -/

/-- The text has a separator in it, or ends in all of one but its last letter. -/
def Imitates (text : List Nat) : Prop :=
  separator <:+: text ∨ separator.dropLast <:+ text

instance (text : List Nat) : Decidable (Imitates text) :=
  inferInstanceAs (Decidable (_ ∨ _))

/-- Two separators overlap in nothing but a newline. -/
theorem separator_overlaps : ∀ k < 23, 0 < k →
    separator.drop (23 - k) = separator.take k → k = 1 := by
  rw [separator_letters]
  decide

theorem unbroken_iff (text : List Nat) : Unbroken separator text ↔ ¬Imitates text := by
  have long : separator.length = 23 := by
    rw [separator_letters]
    rfl
  rw [Unbroken, not_iff_not]
  constructor
  · rintro ⟨before, after, cut⟩
    by_cases inside : before.length + 23 ≤ text.length
    · left
      have begins : before ++ separator <+: text := by
        have whole : before ++ separator <+: text ++ separator.dropLast := ⟨after, cut⟩
        refine List.prefix_of_prefix_length_le whole (List.prefix_append ..) ?_
        rw [List.length_append, long]
        exact inside
      exact (List.suffix_append before separator).isInfix.trans begins.isInfix
    · right
      -- The separator reaches beyond the end of the text by a text that it also begins with.
      have lengths := congrArg List.length cut
      simp only [List.length_append, List.length_dropLast, long] at lengths
      have begins : text <+: before ++ separator := by
        have whole : text <+: before ++ separator ++ after := ⟨_, cut.symm⟩
        refine List.prefix_of_prefix_length_le whole (List.prefix_append ..) ?_
        rw [List.length_append, long]
        omega
      obtain ⟨tail, reached⟩ := begins
      have tail_long : text.length + tail.length = before.length + 23 := by
        rw [← List.length_append, reached, List.length_append, long]
      have tail_ends : tail <:+ separator := by
        have both : tail <:+ before ++ separator := ⟨text, reached⟩
        refine List.suffix_of_suffix_length_le both (List.suffix_append ..) ?_
        omega
      have tail_begins : tail <+: separator := by
        rw [← reached, List.append_assoc] at cut
        have left := List.append_cancel_left cut
        exact (List.prefix_iff_eq_append.mpr (by rw [← left]; simp)).trans (List.dropLast_prefix _)
      have one : tail.length = 1 := by
        refine separator_overlaps tail.length (by omega) (by omega) ?_
        rw [← long, ← List.suffix_iff_eq_drop.mp tail_ends,
          ← List.prefix_iff_eq_take.mp tail_begins]
      have short : before ++ separator.dropLast <+: before ++ separator :=
        (List.prefix_append_right_inj before).mpr (List.dropLast_prefix separator)
      have same : before ++ separator.dropLast = text := by
        refine (List.prefix_of_prefix_length_le short ⟨tail, reached⟩ ?_).eq_of_length ?_
        all_goals
          rw [List.length_append, List.length_dropLast, long]
          omega
      exact ⟨before, same⟩
  · rintro (inside | ⟨before, rfl⟩)
    · exact inside.trans (List.prefix_append ..).isInfix
    · refine ⟨before, separator.dropLast.tail, ?_⟩
      have twice : separator ++ separator.dropLast.tail =
          separator.dropLast ++ separator.dropLast := by
        rw [separator_letters]
        rfl
      rw [List.append_assoc, List.append_assoc, twice]

/-! ### One rule on joined texts -/

/-- The result of joined texts is that of each of them. -/
structure EachOf (whole : RedactionResult) (parts : List RedactionResult) : Prop where
  text : whole.text = separator.intercalate (parts.map RedactionResult.text)
  counts : ∀ kind, whole.counts kind = (parts.map fun part => part.counts kind).sum

theorem marked_intercalate (mark sep : List Nat) (pieces : List (List (Piece Nat))) :
    marked mark ((sep.map .kept).intercalate pieces) =
      sep.intercalate (pieces.map (marked mark)) := by
  induction pieces with
  | nil => rfl
  | cons first rest ih =>
    cases rest with
    | nil => simp [List.intercalate_singleton]
    | cons next rest =>
      rw [List.intercalate_cons_cons, marked_append, marked_append, marked_kept, ih, List.map_cons,
        List.map_cons, List.map_cons, List.intercalate_cons_cons]

theorem matched_intercalate (sep : List Nat) (pieces : List (List (Piece Nat))) :
    (matched ((sep.map .kept).intercalate pieces)).length =
      (pieces.map fun ps => (matched ps).length).sum := by
  induction pieces with
  | nil => rfl
  | cons first rest ih =>
    cases rest with
    | nil => simp [List.intercalate_singleton]
    | cons next rest =>
      rw [List.intercalate_cons_cons, matched_append, matched_append, matched_kept,
        List.append_nil, List.length_append, ih, List.map_cons, List.map_cons, List.map_cons,
        List.sum_cons, List.sum_cons, List.sum_cons]

/-- A rule that finds in the whole what it finds in each takes from the whole what it takes from
each. -/
theorem EachOf.apply {whole : RedactionResult} {parts : List RedactionResult}
    (each : EachOf whole parts) {rule : Rule} (apart : rule.search (separator.intercalate (parts.map RedactionResult.text)) =
      (separator.map .kept).intercalate ((parts.map RedactionResult.text).map rule.search)) :
    EachOf (rule.apply whole) (parts.map rule.apply) := by
  constructor
  case text =>
    simp only [Rule.apply, each.text, apart, marked_intercalate, List.map_map, Function.comp_def]
  case counts =>
    intro kind
    simp only [Rule.apply, each.text, apart, matched_intercalate, each.counts kind, List.map_map,
      Function.comp_def]
    split
    · rw [← List.sum_map_add]
    · simp

/-! ### The dictionary, line by line -/

/-- The rule does not see what stands before a separator. -/
structure Lined (rule : Rule) : Prop where
  body : rule.pattern.body.mayTake 10 = false
  behind : ∀ front q s, rule.pattern.first isWord ⟨q ++ 10 :: 62 :: front, s⟩ =
    (rule.pattern.first isWord ⟨q, s⟩).map (Place.after (10 :: 62 :: front))
  shows : ∀ m, rule.pattern.body.Spells m → ∃ u ∈ m, Shows u

/-- The gap before a number ends with the line, and no label begins between an angle and a newline,
since no word does. -/
theorem label_behind_line {label : Regex Nat} (avoids : label.mayTake 62 = false)
    (front q s : List Nat) :
    ((Regex.seq (.seq (.seq .boundary label) .boundary) labelGap).reversed.ends isWord
        ⟨s, q ++ 10 :: 62 :: front⟩).isEmpty =
      ((Regex.seq (.seq (.seq .boundary label) .boundary) labelGap).reversed.ends isWord
        ⟨s, q⟩).isEmpty := by
  let rest : Regex Nat := .seq .boundary (.seq label.reversed .boundary)
  have gap : (Regex.seq (.seq (.seq .boundary label) .boundary) labelGap).reversed.ends isWord
      ⟨s, q ++ 10 :: 62 :: front⟩ = (labelGap.ends isWord ⟨s, q⟩).flatMap fun y =>
        rest.ends isWord (y.followedBy (10 :: 62 :: front)) := by
    have gap : labelGap.ends isWord (Place.followedBy (10 :: 62 :: front) ⟨s, q⟩) =
        (labelGap.ends isWord ⟨s, q⟩).map (Place.followedBy (10 :: 62 :: front)) :=
      Regex.ends_followedBy _ _ (by decide) (by decide)
    change (labelGap.ends isWord (Place.followedBy (10 :: 62 :: front) ⟨s, q⟩)).flatMap
      (rest.ends isWord) = _
    rw [gap, List.flatMap_map]
  have plain : (Regex.seq (.seq (.seq .boundary label) .boundary) labelGap).reversed.ends isWord
      ⟨s, q⟩ = (labelGap.ends isWord ⟨s, q⟩).flatMap (rest.ends isWord) := rfl
  have none_iff : ∀ y, rest.ends isWord (Place.followedBy (10 :: 62 :: front) y) = [] ↔
      rest.ends isWord y = [] := by
    intro y
    have near : ∀ z, Place.followedBy (10 :: 62 :: front) z ∈
        rest.ends isWord (Place.followedBy (10 :: 62 :: front) y) ↔ z ∈ rest.ends isWord y :=
      Regex.local_ends rfl (62 :: front) y
    rw [List.eq_nil_iff_forall_not_mem, List.eq_nil_iff_forall_not_mem]
    constructor
    · exact fun none z found => none _ ((near z).mpr found)
    · intro none z found
      obtain ⟨m, spells, ahead, passed⟩ := Regex.walks_of_mem_ends _ _ found
      have short : 62 ∉ m := by
        intro member
        have takes := Regex.mayTake_of_spells spells 62 member
        simp [rest, Regex.mayTake, avoids] at takes
      have inside : ∀ taken, z.ahead = taken ++ 10 :: 62 :: front → False := by
        intro taken later
        have same : z = Place.followedBy (10 :: 62 :: front) ⟨z.passed, taken⟩ :=
          Place.ext rfl later
        rw [same] at found
        exact none _ ((near _).mp found)
      rcases List.append_eq_append_iff.mp ahead with ⟨taken, whole, later⟩ | ⟨taken, -, later⟩
      · rcases taken with _ | ⟨c, _ | ⟨d, taken⟩⟩
        · exact inside [] later.symm
        · -- The last edge would lie between the newline and the angle.
          obtain ⟨rfl, beyond⟩ := List.cons.inj later
          have beyond : 62 :: front = z.ahead := beyond
          obtain ⟨w, -, edge⟩ := List.mem_flatMap.mp found
          obtain ⟨v, -, edge⟩ := List.mem_flatMap.mp edge
          have here : v = z := by
            simp only [Regex.ends] at edge
            split at edge
            · exact (List.mem_singleton.mp edge).symm
            · cases edge
          subst here
          rw [whole, List.reverse_append] at passed
          simp [Regex.ends, passed, ← beyond, isWord, isAlnum, isDigit, isUpper, isLower] at edge
        · obtain ⟨-, later⟩ := List.cons.inj later
          obtain ⟨rfl, -⟩ := List.cons.inj later
          exact short (by simp [whole])
      · exact inside taken later
  rw [gap, plain, Bool.eq_iff_iff, List.isEmpty_iff, List.isEmpty_iff, List.flatMap_eq_nil_iff,
    List.flatMap_eq_nil_iff]
  exact forall₂_congr fun y _ => none_iff y

theorem lined_of_mem {rule : Rule} (member : rule ∈ redactionRules) : Lined rule := by
  have seams := seams_of_mem member
  refine ⟨seams.avoids 10 (by decide), fun front q s => ?_, seams.shows⟩
  refine first_map (φ := Place.after (10 :: 62 :: front)) (x := ⟨q, s⟩) (fun r looks => ?_)
    (Regex.ends_after _ _ (.inr rfl))
  have labels : ∃ label : Regex Nat, label.mayTake 62 = false ∧
      r = .seq (.seq (.seq .boundary label) .boundary) labelGap := by
    simp only [redactionRules, List.mem_cons, List.not_mem_nil, or_false] at member
    rcases member with rfl | rfl | rfl | rfl | rfl | rfl | rfl | rfl | rfl | rfl | rfl
    case inr.inr.inr.inr.inr.inr.inr.inr.inr.inl =>
      exact ⟨accountLabel, by decide, (Option.some.inj looks).symm⟩
    case inr.inr.inr.inr.inr.inr.inr.inr.inr.inr =>
      exact ⟨idLabel, by decide, (Option.some.inj looks).symm⟩
    all_goals cases looks
  obtain ⟨label, avoids, rfl⟩ := labels
  exact label_behind_line avoids front q s

/-- What stands on an earlier line is not seen. -/
theorem Lined.scan_line {rule : Rule} (lined : Lined rule) (front rest : List Nat) :
    rule.pattern.scan isWord 0 (10 :: 62 :: front) rest = rule.search rest := by
  refine scan_after (10 :: 62 :: front) [] rest fun m s _ => ?_
  rw [List.append_nil]
  exact lined.behind front m.reverse s

theorem separator_lines : separator = 10 :: (codeUnits "<<ledgerdesk-source>>" ++ [10]) := by
  rw [separator_letters, codeUnits, String.toList_ofList]
  rfl

/-- Between two texts the separator stays. -/
theorem Lined.search_separator {rule : Rule} (lined : Lined rule) (text rest : List Nat) :
    rule.search (text ++ separator ++ rest) =
      rule.search text ++ separator.map .kept ++ rule.search rest := by
  have plain : ∀ passed, rule.pattern.scan isWord 0 passed (codeUnits "<<ledgerdesk-source>>") =
      (codeUnits "<<ledgerdesk-source>>").map .kept := by
    intro passed
    refine scan_of_no_match fun m spells inside => ?_
    obtain ⟨u, member, shows⟩ := lined.shows m spells
    have listed : ∀ u ∈ codeUnits "<<ledgerdesk-source>>", ¬(isDigit u = true ∨ u = 64) := by decide
    exact listed u (inside.subset member) shows
  have lines : text ++ separator ++ rest =
      text ++ 10 :: (codeUnits "<<ledgerdesk-source>>" ++ 10 :: rest) := by
    rw [separator_lines]
    simp
  have backward : (codeUnits "<<ledgerdesk-source>>").reverse ++ 10 :: (text.reverse ++ []) =
      62 :: ((codeUnits "<<ledgerdesk-source>").reverse ++ 10 :: (text.reverse ++ [])) := rfl
  rw [lines, Rule.search, scan_append lined.body rfl, scan_cons_of_avoids lined.body,
    scan_append lined.body rfl, scan_cons_of_avoids lined.body, plain, backward, lined.scan_line,
    separator_lines]
  simp [Rule.search]

theorem Lined.search_joined {rule : Rule} (lined : Lined rule) {texts : List (List Nat)}
    (some_ : texts ≠ []) : rule.search (separator.intercalate texts) =
      (separator.map .kept).intercalate (texts.map rule.search) := by
  induction texts with
  | nil => exact absurd rfl some_
  | cons text rest ih =>
    cases rest with
    | nil => simp [List.intercalate_singleton]
    | cons next rest =>
      rw [List.intercalate_cons_cons, lined.search_separator, ih (by simp), List.map_cons,
        List.map_cons, List.map_cons, List.intercalate_cons_cons]

theorem EachOf.dictionary {rules : List Rule} (lined : ∀ rule ∈ rules, Lined rule)
    {whole : RedactionResult} {parts : List RedactionResult} (some_ : parts ≠ [])
    (each : EachOf whole parts) : EachOf (run rules whole) (parts.map (run rules)) := by
  induction rules generalizing whole parts with
  | nil =>
    have same : parts.map (run []) = parts := List.map_id parts
    rw [same]
    exact each
  | cons rule rules ih =>
    obtain ⟨here, later⟩ := List.forall_mem_cons.mp lined
    have next := each.apply (here.search_joined (by simpa using some_))
    have rest := ih later (by simpa using some_) next
    rw [List.map_map] at rest
    exact rest

/-! ### Literals -/

/-- No literal takes a letter of a separator, when the texts are joined and the literals are taken
out in turn. -/
def SparesSeparators : List Rule → List (List Nat) → Prop
  | [], _ => True
  | rule :: rules, texts =>
    rule.pattern.Spares isWord separator texts ∧
      SparesSeparators rules (texts.map fun text => marked (marker rule.kind) (rule.search text))

theorem EachOf.literals {rules : List Rule}
    (told : ∀ rule ∈ rules, ∃ kind, Told isWord rule.pattern kind)
    {whole : RedactionResult} {parts : List RedactionResult} (some_ : parts ≠ [])
    (spares : SparesSeparators rules (parts.map RedactionResult.text)) (each : EachOf whole parts) :
    EachOf (run rules whole) (parts.map (run rules)) := by
  induction rules generalizing whole parts with
  | nil =>
    have same : parts.map (run []) = parts := List.map_id parts
    rw [same]
    exact each
  | cons rule rules ih =>
    obtain ⟨⟨kind, letters⟩, later⟩ := List.forall_mem_cons.mp told
    obtain ⟨here, spared⟩ := spares
    have next := each.apply (letters.scan_spared here (by simpa using some_))
    have left : SparesSeparators rules ((parts.map rule.apply).map RedactionResult.text) := by
      simpa [Rule.apply, Function.comp_def] using spared
    have rest := ih later (by simpa using some_) left next
    rw [List.map_map] at rest
    exact rest

/-- The rules of the literals of a call. -/
def literalRules (canonicalize : Nat → Nat) (literals : List (List Nat)) : List Rule :=
  (orderedLiterals literals).filterMap (literalRule canonicalize)

/-- Where no literal takes a letter of a separator, the joined texts are redacted as each of them
is. -/
theorem redact_joined {canonicalize : Nat → Nat} {literals texts : List (List Nat)}
    (some_ : texts ≠ []) (spares : SparesSeparators (literalRules canonicalize literals) texts) :
    EachOf (redact canonicalize (separator.intercalate texts) literals)
      (texts.map fun text => redact canonicalize text literals) := by
  have plain : (texts.map untouched).map RedactionResult.text = texts := by
    rw [List.map_map]
    exact List.map_id texts
  have start : EachOf (untouched (separator.intercalate texts)) (texts.map untouched) := by
    refine ⟨?_, fun kind => ?_⟩
    · rw [plain]
      rfl
    · simp [untouched, Function.comp_def]
  have taken : EachOf (run (literalRules canonicalize literals)
      (untouched (separator.intercalate texts)))
      ((texts.map untouched).map (run (literalRules canonicalize literals))) :=
    start.literals (fun rule member => (literal_rules_told member).2) (by simpa using some_)
      (by rwa [plain])
  have swept : EachOf (run redactionRules _) (List.map (run redactionRules) _) :=
    taken.dictionary (fun rule member => lined_of_mem member) (by simpa using some_)
  have parts : ∀ text, redact canonicalize text literals =
      run redactionRules (run (literalRules canonicalize literals) (untouched text)) :=
    fun text => redact_eq canonicalize text literals
  simp only [parts]
  simpa only [List.map_map, Function.comp_def] using swept

/-! ### The excerpts of a call -/

section Call

variable {tables : CaseTables} {token : CanaryToken} {call : GatewayCall} {prepared : Material}

theorem zipWith_eq_map {entries : List KbExcerpt} {pieces : List (List Nat)}
    (text : KbExcerpt → List Nat) (count : pieces.length = entries.length) :
    entries.zipWith (fun entry piece => (⟨entry.kb_id, piece⟩ : KbExcerpt)) pieces =
        entries.map (fun entry => ⟨entry.kb_id, text entry⟩) ↔ pieces = entries.map text := by
  induction entries generalizing pieces with
  | nil => simp [List.length_eq_zero_iff.mp count]
  | cons entry entries ih =>
    cases pieces with
    | nil => cases count
    | cons piece pieces =>
      rw [List.zipWith_cons_cons, List.map_cons, List.map_cons, List.cons.injEq, List.cons.injEq,
        ih (by simpa using count), KbExcerpt.mk.injEq]
      simp

/-- What a call that is let through has made of its excerpts. -/
theorem excerpts_of_material (made : material tables token call = .ok prepared)
    (some_ : call.kb_context ≠ []) : ∃ published,
      clearedPass tables.canonicalize token (joinedExcerpts call) call.literals = some published ∧
      (splitExcerpts published.text).length = call.kb_context.length ∧
      prepared.kb_context = call.kb_context.zipWith (fun entry piece => ⟨entry.kb_id, piece⟩)
        (splitExcerpts published.text) := by
  simp only [material] at made
  split at made
  · cases made
  cases first : publish tables token call call.body with
  | error code => rw [first] at made; cases made
  | ok body =>
  simp only [first, bind, Except.bind, pure, Except.pure] at made
  split at made
  · cases made
  cases second : publish tables token call (joinedExcerpts call) with
  | error code => rw [second] at made; cases made
  | ok text =>
  simp only [second] at made
  split at made
  · cases made
  next count =>
  cases made
  rw [publish] at second
  split at second
  · next published cleared =>
    cases second
    exact ⟨published, cleared, not_not.mp count, rfl⟩
  · cases second

/-- Each excerpt is what redaction makes of it alone, and what is counted of the excerpts is what
is counted of each of them. -/
structure EachAlone (tables : CaseTables) (token : CanaryToken) (call : GatewayCall)
    (prepared : Material) : Prop where
  excerpts : prepared.kb_context = call.kb_context.map fun entry =>
    ⟨entry.kb_id, (redact tables.canonicalize entry.excerpt call.literals).text⟩
  counts : ∀ published,
    clearedPass tables.canonicalize token (joinedExcerpts call) call.literals = some published →
      ∀ kind, published.counts kind = ((call.kb_context.map fun entry =>
        (redact tables.canonicalize entry.excerpt call.literals).counts kind).sum : Nat)

/-- Where no literal takes a letter of a separator, the excerpts come out as if each had been
redacted by itself exactly if none of them but the last comes out with a separator in it, or ending
in all of one but its last letter. -/
theorem excerpts_apart (made : material tables token call = .ok prepared)
    (some_ : call.kb_context ≠ [])
    (spares : SparesSeparators (literalRules tables.canonicalize call.literals)
      (call.kb_context.map KbExcerpt.excerpt)) :
    EachAlone tables token call prepared ↔ ∀ entry ∈ call.kb_context.dropLast,
      ¬Imitates (redact tables.canonicalize entry.excerpt call.literals).text := by
  obtain ⟨published, cleared, count, pieces⟩ := excerpts_of_material made some_
  obtain ⟨text, counts⟩ := published_of_cleared cleared
  have each := redact_joined (by simpa using some_) spares
  let alone : KbExcerpt → List Nat := fun entry =>
    (redact tables.canonicalize entry.excerpt call.literals).text
  have joined : published.text = separator.intercalate (call.kb_context.map alone) := by
    rw [text]
    refine each.text.trans ?_
    rw [List.map_map, List.map_map]
    rfl
  have sums : ∀ kind, published.counts kind = ((call.kb_context.map fun entry =>
      (redact tables.canonicalize entry.excerpt call.literals).counts kind).sum : Nat) := by
    intro kind
    rw [counts]
    refine congrArg _ ((each.counts kind).trans ?_)
    rw [List.map_map, List.map_map]
    rfl
  have cut : splitExcerpts published.text = call.kb_context.map alone ↔
      ∀ entry ∈ call.kb_context.dropLast, ¬Imitates (alone entry) := by
    have as_many : (splitExcerpts (separator.intercalate (call.kb_context.map alone))).length =
        (call.kb_context.map alone).length := by
      rw [← joined, count, List.length_map]
    rw [joined, splitExcerpts_joined (by simpa using some_) as_many, ← List.map_dropLast, List.forall_mem_map]
    exact forall₂_congr fun entry _ => unbroken_iff _
  rw [← cut, ← zipWith_eq_map alone count, ← pieces]
  constructor
  · exact fun each => each.excerpts
  · intro excerpts
    refine ⟨excerpts, fun other also kind => ?_⟩
    obtain rfl := Option.some.inj (cleared.symm.trans also)
    exact sums kind

end Call

/-- Two sources of which nothing is planted in the separator. -/
def plainCall : GatewayCall where
  body := codeUnits "Where is my order?"
  literals := [codeUnits "Annabel Lee"]
  kb_context := [⟨codeUnits "a", codeUnits "Ask Annabel Lee."⟩, ⟨codeUnits "b", codeUnits "Wait."⟩]
  prompt_text := codeUnits "Answer."
  model_requested := codeUnits "model"
  sampling := ⟨⟨codeUnits "0", rfl⟩, ⟨codeUnits "1", rfl⟩, ⟨codeUnits "64", rfl⟩, none⟩
  seed := none

/-- What is taken out of every pass. -/
def plantedRemovals : List Removed :=
  [⟨.email, codeUnits "ld-canary-0f4a@canary.invalid"⟩,
    ⟨.account, codeUnits "DE89 3704 0044 0532 0130 00"⟩, ⟨.card, codeUnits "4111 1111 1111 1111"⟩,
    ⟨.phone, codeUnits "0400 000 000"⟩, ⟨.id, codeUnits "123 456 782"⟩]

def plainMaterial : Material where
  body_redacted := codeUnits "Where is my order?"
  kb_context := [⟨codeUnits "a", codeUnits "Ask [REDACTED:literal]."⟩,
    ⟨codeUnits "b", codeUnits "Wait."⟩]
  canaries := canaryValues sampleToken
  removals := plantedRemovals ++ ⟨.literal, codeUnits "Annabel Lee"⟩ :: plantedRemovals

/-- The first source ends in all of a separator but its last letter. -/
def mixedCall : GatewayCall where
  body := codeUnits "Where is my order?"
  literals := []
  kb_context := [⟨codeUnits "a", codeUnits "x\n<<ledgerdesk-source>>"⟩,
    ⟨codeUnits "b", codeUnits "y"⟩]
  prompt_text := codeUnits "Answer."
  model_requested := codeUnits "model"
  sampling := ⟨⟨codeUnits "0", rfl⟩, ⟨codeUnits "1", rfl⟩, ⟨codeUnits "64", rfl⟩, none⟩
  seed := none

def mixedMaterial : Material where
  body_redacted := codeUnits "Where is my order?"
  kb_context := [⟨codeUnits "a", codeUnits "x"⟩,
    ⟨codeUnits "b", codeUnits "<<ledgerdesk-source>>\ny"⟩]
  canaries := canaryValues sampleToken
  removals := plantedRemovals ++ plantedRemovals

/-- What the two calls come to, computed at once. -/
theorem samples_made :
    material asciiTables.toCaseTables sampleToken plainCall = .ok plainMaterial ∧
      material asciiTables.toCaseTables sampleToken mixedCall = .ok mixedMaterial ∧
      mixedCall.kb_context.map (fun entry => (⟨entry.kb_id,
        (redact asciiTables.canonicalize entry.excerpt mixedCall.literals).text⟩ : KbExcerpt)) =
          mixedCall.kb_context ∧
      mixedMaterial.kb_context ≠ mixedCall.kb_context := by
  decide +kernel

theorem excerpts_apart_plain :
    EachAlone asciiTables.toCaseTables sampleToken plainCall plainMaterial := by
  have rules : literalRules asciiTables.canonicalize plainCall.literals =
      [⟨.literal, none, spelledOut asciiTables.canonicalize (codeUnits "Annabel Lee"), rfl⟩] := by
    rfl
  have spares : SparesSeparators (literalRules asciiTables.canonicalize plainCall.literals)
      (plainCall.kb_context.map KbExcerpt.excerpt) := by
    rw [rules]
    refine ⟨⟨⟨(codeUnits "Ask ").map .kept ++ [.taken (codeUnits "Annabel Lee"), .kept 46],
      (codeUnits "Wait.").map .kept, ?_, ?_⟩, trivial⟩, trivial⟩
    · decide +kernel
    · decide +kernel
  exact (excerpts_apart samples_made.1 (by decide) spares).mpr (by decide +kernel)

/-- What the first source says is sent as the second's. -/
theorem excerpts_mixed : ∃ (tables : CaseTables) (token : CanaryToken) (call : GatewayCall)
    (prepared : Material), material tables token call = .ok prepared ∧ call.kb_context ≠ [] ∧
      ¬EachAlone tables token call prepared := by
  obtain ⟨-, made, alone, different⟩ := samples_made
  refine ⟨asciiTables.toCaseTables, sampleToken, mixedCall, mixedMaterial, made, by decide, ?_⟩
  intro each
  exact different (each.excerpts.trans alone)

end LedgerDesk.Gateway.Wire
