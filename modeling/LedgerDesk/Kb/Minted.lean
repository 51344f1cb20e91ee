import LedgerDesk.Gateway.Canary
import LedgerDesk.Gateway.Shapes
import LedgerDesk.Kb.Admission

/-!
# Minted identifiers

The identifier of an article is its key and its id without the hyphens. No rule is to match in it,
and no value that is taken out of a body is to be found in it.
-/
namespace LedgerDesk.Kb

open Foundation Agents Gateway
open Admission (canonicalKeyShape)
open Ledger (isUuid)

def kbIdOf (canonicalKey articleId : String) : String :=
  canonicalKey ++ ":" ++ String.ofList (articleId.toList.filter fun c => c ≠ '-')

/-- The letters a minted id is written with. -/
def inMinted (u : Nat) : Bool := isAlnum u || u == 95 || u == 47 || u == 45 || u == 58

/-- No rule matches in the id, and nothing a rule takes out of a body is found in it. -/
def Survives (tables : CaseTables) (id : List Nat) : Prop :=
  (∀ rule ∈ redactionRules, matched (rule.search id) = []) ∧
    ∀ body, Redaction.findLeak tables id (redact tables.canonicalize body []).removed = none

/-- Five digits, at most a hyphen between two of them: `\d(?:-?\d){4}`. -/
def HasDigits (id : List Nat) : Prop := ∃ five, Loose [45] 4 five ∧ five <:+: id

/-- The head of an account number in any case: `[A-Za-z]{2}\d{2}[A-Za-z0-9]{8}`. -/
def HasAccount (id : List Nat) : Prop :=
  ∃ country check number : List Nat, country ++ check ++ number <:+: id ∧
    (country.length = 2 ∧ ∀ u ∈ country, isUpper u = true ∨ isLower u = true) ∧
    (check.length = 2 ∧ ∀ u ∈ check, isDigit u = true) ∧
    number.length = 8 ∧ ∀ u ∈ number, isAlnum u = true

/-! ### Letters -/

theorem codeUnits_of_plain {text : String} (plain : ∀ c ∈ text.toList, c.toNat < 0x10000) :
    codeUnits text = text.toList.map Char.toNat := by
  rw [codeUnits, ← List.flatMap_singleton' (text.toList.map Char.toNat), List.flatMap_map]
  refine List.flatMap_congr fun c member => ?_
  simp [plain c member]

theorem isAlnum_of_isAlphanum {c : Char} (alphanumeric : c.isAlphanum = true) :
    isAlnum c.toNat = true := by
  simp only [Char.isAlphanum, Char.isAlpha, Char.isUpper, Char.isLower, Char.isDigit,
    Bool.or_eq_true, Bool.and_eq_true, decide_eq_true_eq, ge_iff_le,
    UInt32.le_iff_toNat_le] at alphanumeric
  simp only [isAlnum, isDigit, isUpper, isLower, Bool.or_eq_true, Bool.and_eq_true, decide_eq_true_eq]
  have val : c.toNat = c.val.toNat := rfl
  have bounds : 'A'.val.toNat = 65 ∧ 'Z'.val.toNat = 90 ∧ 'a'.val.toNat = 97 ∧ 'z'.val.toNat = 122 ∧
      '0'.val.toNat = 48 ∧ '9'.val.toNat = 57 := by decide
  omega

theorem isAlnum_of_isHexDigit {c : Char} (hex : Ledger.isHexDigitAnyCase c = true) :
    isAlnum c.toNat = true := by
  simp only [Ledger.isHexDigitAnyCase, Ledger.isHexDigit, Bool.or_eq_true, Bool.and_eq_true,
    decide_eq_true_eq, Char.le_def, UInt32.le_iff_toNat_le] at hex
  have bounds : 'A'.val.toNat = 65 ∧ 'F'.val.toNat = 70 ∧ 'a'.val.toNat = 97 ∧ 'f'.val.toNat = 102 := by
    decide
  rcases hex with (digit | lower) | upper
  · exact isAlnum_of_isAlphanum (by rw [Char.isAlphanum, digit, Bool.or_true])
  all_goals
    have val : c.toNat = c.val.toNat := rfl
    simp only [isAlnum, isDigit, isUpper, isLower, Bool.or_eq_true, Bool.and_eq_true,
      decide_eq_true_eq]
    omega

theorem filter_intercalate {groups : List (List Char)} (apart : ∀ g ∈ groups, '-' ∉ g) :
    (['-'].intercalate groups).filter (fun c => c ≠ '-') = groups.flatten := by
  have whole : ∀ g ∈ groups, g.filter (fun c => c ≠ '-') = g := by
    intro g member
    refine List.filter_eq_self.mpr fun c inside => ?_
    have other : c ≠ '-' := by
      rintro rfl
      exact apart g member inside
    simpa using other
  induction groups with
  | nil => rfl
  | cons g groups ih =>
    obtain ⟨here, later⟩ := List.forall_mem_cons.mp whole
    have rest := ih (List.forall_mem_cons.mp apart).2 later
    cases groups with
    | nil => simpa [List.intercalate] using here
    | cons h groups =>
      rw [List.intercalate] at rest ⊢
      simp only [List.intersperse_cons_cons, List.flatten_cons, List.filter_append, here, rest]
      simp

/-- What is left of an id without its hyphens: 32 hex digits. -/
theorem unhyphened {article : String} (uuid : isUuid article = true) :
    (article.toList.filter fun c => c ≠ '-').length = 32 ∧
      ∀ c ∈ article.toList.filter fun c => c ≠ '-', Ledger.isHexDigitAnyCase c = true := by
  simp only [isUuid, Bool.and_eq_true, beq_iff_eq, List.all_eq_true] at uuid
  obtain ⟨lengths, hex⟩ := uuid
  have apart : ∀ g ∈ article.toList.splitOn '-', '-' ∉ g := by
    intro g member hyphen
    have listed := hex g member '-' hyphen
    revert listed
    decide
  have joined : (article.toList.filter fun c => c ≠ '-') = (article.toList.splitOn '-').flatten := by
    rw [← filter_intercalate apart, List.intercalate_splitOn]
  rw [joined]
  refine ⟨by rw [List.length_flatten, lengths]; rfl, fun c member => ?_⟩
  obtain ⟨g, among, inside⟩ := List.mem_flatten.mp member
  exact hex g among c inside

theorem minted_letter {key article : String} (shaped : canonicalKeyShape key = true)
    (uuid : isUuid article = true) : ∀ c ∈ (kbIdOf key article).toList, inMinted c.toNat = true := by
  intro c member
  simp only [kbIdOf, String.toList_append, String.toList_ofList, List.mem_append] at member
  rcases member with (among | colon) | among
  · simp only [canonicalKeyShape, Bool.and_eq_true, List.all_eq_true, Bool.or_eq_true,
      decide_eq_true_eq] at shaped
    rcases shaped.2 c among with ((alphanumeric | rfl) | rfl) | rfl
    · simp [inMinted, isAlnum_of_isAlphanum alphanumeric]
    all_goals decide
  · have colon : c = ':' := by simpa using colon
    subst colon
    decide
  · simp [inMinted, isAlnum_of_isHexDigit ((unhyphened uuid).2 c among)]

/-- A letter that has only one case is told by its lower case. -/
theorem eq_of_lowerUnit_eq {u v : Nat} (same : lowerUnit u = lowerUnit v) (caseless : isUpper v = false)
    (caseless' : isLower v = false) : u = v := by
  simp only [lowerUnit, isUpper, isLower, Bool.and_eq_true, decide_eq_true_eq, Bool.and_eq_false_iff,
    decide_eq_false_iff_not] at *
  split at same <;> split at same <;> omega

theorem eq_of_map_lowerUnit {text other : List Nat} (same : text.map lowerUnit = other.map lowerUnit)
    (caseless : ∀ u ∈ other, isUpper u = false ∧ isLower u = false) : text = other := by
  induction other generalizing text with
  | nil => simpa using same
  | cons v other ih =>
    cases text with
    | nil => cases same
    | cons u text =>
      obtain ⟨first, later⟩ := List.cons.inj same
      obtain ⟨here, rest⟩ := List.forall_mem_cons.mp caseless
      rw [eq_of_lowerUnit_eq first here.1 here.2, ih later rest]

/-! ### What is found in an id is one of the two shapes -/

section Found

variable {id m : List Nat}

/-- A value found in the folded id is a part of the id in some case. -/
theorem part_of_folded {part : List Nat} (inside : part <:+: trim m)
    (found : (trim m).map lowerUnit <:+: id.map lowerUnit) :
    ∃ written, written <:+: id ∧ written.map lowerUnit = part.map lowerUnit := by
  obtain ⟨written, lies, same⟩ := List.infix_map_iff.mp ((inside.map lowerUnit).trans found)
  exact ⟨written, lies, same.symm⟩

theorem letter_of_lowerUnit_eq {u v : Nat} (same : lowerUnit u = lowerUnit v) :
    (isUpper v = true → isUpper u = true ∨ isLower u = true) ∧ (isDigit v = true → isDigit u = true) ∧
      (isAlnum v = true → isAlnum u = true) := by
  simp only [lowerUnit, isAlnum, isDigit, isUpper, isLower, Bool.and_eq_true, Bool.or_eq_true,
    decide_eq_true_eq] at *
  split at same <;> split at same <;> omega

/-- Two texts of one lower case are of one length, and each letter has one like it. -/
theorem letters_of_map_eq {text other : List Nat} (same : text.map lowerUnit = other.map lowerUnit) :
    text.length = other.length ∧ ∀ u ∈ text, ∃ v ∈ other, lowerUnit u = lowerUnit v := by
  refine ⟨by simpa using congrArg List.length same, fun u member => ?_⟩
  have there := List.mem_map_of_mem (f := lowerUnit) member
  rw [same] at there
  obtain ⟨v, among, equal⟩ := List.mem_map.mp there
  exact ⟨v, among, equal.symm⟩

variable (minted : ∀ u ∈ id, inMinted u = true)
include minted

theorem hasDigits_of_found (loose : LooseIn 4 m)
    (found : (trim m).map lowerUnit <:+: id.map lowerUnit) : HasDigits id := by
  obtain ⟨five, digits, inside⟩ := loose
  obtain ⟨⟨u, rest, begins, first⟩, rest', v, ends, last⟩ := digits.ends
  have trimmed := trim_inside inside begins (isDigit_caseless first).2.2 ends
    (isDigit_caseless last).2.2
  obtain ⟨written, lies, same⟩ := part_of_folded trimmed found
  have caseless : ∀ u ∈ five, isUpper u = false ∧ isLower u = false := by
    intro u member
    rcases digits.letters u member with digit | separator
    · exact ⟨(isDigit_caseless digit).1, (isDigit_caseless digit).2.1⟩
    · have listed : ∀ u ∈ spaceOrHyphen, isUpper u = false ∧ isLower u = false := by decide
      exact listed u separator
  obtain rfl := eq_of_map_lowerUnit same caseless
  refine ⟨written, digits.without fun s listed present => ?_, lies⟩
  rcases List.mem_cons.mp listed with rfl | hyphen
  · exact absurd (minted 32 (lies.subset present)) (by decide)
  · exact hyphen

theorem no_address_found (sign : 64 ∈ m)
    (found : (trim m).map lowerUnit <:+: id.map lowerUnit) : False := by
  have present := found.subset (List.mem_map_of_mem (f := lowerUnit) (mem_trim sign (by decide)))
  obtain ⟨u, member, same⟩ := List.mem_map.mp present
  obtain rfl : u = 64 := eq_of_lowerUnit_eq same (by decide) (by decide)
  exact absurd (minted 64 member) (by decide)

theorem hasAccount_of_found {head : List Nat} (shaped : IbanHead head) (begins : head <+: m)
    (found : (trim m).map lowerUnit <:+: id.map lowerUnit) : HasAccount id := by
  obtain ⟨country, check, g₁, g₂, s₁, s₂, text, ⟨two, capitals⟩, ⟨two', figures⟩, ⟨four, group⟩,
    ⟨four', group'⟩, apart, apart'⟩ := shaped
  have trimmed : head <:+: trim m := by
    match country, two with
    | [c, c'], _ =>
      obtain ⟨rest', v, ends⟩ : ∃ rest' v, g₂ = rest' ++ [v] := by
        obtain none | some_ := List.eq_nil_or_concat g₂
        · rw [none] at four'
          cases four'
        · obtain ⟨rest', v, rfl⟩ := some_
          exact ⟨rest', v, List.concat_eq_append ..⟩
      have capital := capitals c (by simp)
      have shown : isSpace c = false :=
        isAlnum_shown (by rw [isAlnum, capital, Bool.or_true, Bool.true_or])
      have shown' : isSpace v = false := isAlnum_shown (group' v (by rw [ends]; simp))
      have opens : head = c :: (c' :: (check ++ s₁ ++ g₁ ++ s₂ ++ g₂)) := by
        rw [text]
        simp
      have closes : head = ([c, c'] ++ check ++ s₁ ++ g₁ ++ s₂ ++ rest') ++ [v] := by
        rw [text, ends]
        simp
      exact trim_inside begins.isInfix opens shown closes shown'
  obtain ⟨written, lies, same⟩ := part_of_folded trimmed found
  have no_space : ∀ s, (s = [] ∨ s = [32]) → (∀ u ∈ s, u ∈ head) → s = [] := by
    rintro s (none | rfl) inside
    · exact none
    · have there := List.mem_map_of_mem (f := lowerUnit) (inside 32 List.mem_cons_self)
      rw [← same] at there
      obtain ⟨u, member, equal⟩ := List.mem_map.mp there
      obtain rfl : u = 32 := eq_of_lowerUnit_eq equal (by decide) (by decide)
      exact absurd (minted 32 (lies.subset member)) (by decide)
  obtain rfl := no_space s₁ apart fun u member => by rw [text]; simp [member]
  obtain rfl := no_space s₂ apart' fun u member => by rw [text]; simp [member]
  rw [text, List.append_nil, List.append_nil, List.append_assoc _ g₁, List.map_append,
    List.map_append] at same
  obtain ⟨front, number, rfl, front_eq, number_eq⟩ := List.map_eq_append_iff.mp same
  obtain ⟨country', check', rfl, country_eq, check_eq⟩ := List.map_eq_append_iff.mp front_eq
  obtain ⟨long, letters⟩ := letters_of_map_eq country_eq
  obtain ⟨long', letters'⟩ := letters_of_map_eq check_eq
  obtain ⟨long'', letters''⟩ := letters_of_map_eq number_eq
  refine ⟨country', check', number, lies, ⟨long.trans two, fun u member => ?_⟩,
    ⟨long'.trans two', fun u member => ?_⟩, ?_, fun u member => ?_⟩
  · obtain ⟨v, among, equal⟩ := letters u member
    exact (letter_of_lowerUnit_eq equal).1 (capitals v among)
  · obtain ⟨v, among, equal⟩ := letters' u member
    exact (letter_of_lowerUnit_eq equal).2.1 (figures v among)
  · rw [long'', List.length_append, four, four']
  · obtain ⟨v, among, equal⟩ := letters'' u member
    refine (letter_of_lowerUnit_eq equal).2.2 ?_
    exact (List.mem_append.mp among).elim (group v) (group' v)

/-- A match that is found in the folded id shows one of the two shapes in it. -/
theorem shape_of_found {rule : Rule} (listed : rule ∈ redactionRules)
    (spells : rule.pattern.body.Spells m)
    (found : (trim m).map lowerUnit <:+: id.map lowerUnit) : HasDigits id ∨ HasAccount id := by
  rcases shape_of_match listed spells with sign | ⟨head, shaped, begins⟩ | loose
  · exact (no_address_found minted sign found).elim
  · exact .inr (hasAccount_of_found minted shaped begins found)
  · exact .inl (hasDigits_of_found minted loose found)

end Found

/-! ### Each shape is taken out of some body -/

section Taken

open Foundation.Regex

theorem digit_ascii {u : Nat} (digit : isDigit u = true) : u < 128 := by
  simp only [isDigit, Bool.and_eq_true, decide_eq_true_eq] at digit
  omega

/-- A separator, perhaps, and a digit lead on in one way. -/
theorem ends_part {part : List Nat} (shaped : ∃ u, isDigit u = true ∧
    (part = [u] ∨ ∃ s ∈ [45], part = [s, u])) (passed rest : List Nat) :
    (seq (Regex.optional (Regex.oneOf " -")) Regex.digit).ends isWord ⟨passed, part ++ rest⟩ =
      [⟨part.reverse ++ passed, rest⟩] := by
  have separators : codeUnits " -" = [32, 45] := by decide
  obtain ⟨u, digit, rfl | ⟨s, hyphen, rfl⟩⟩ := shaped
  · have apart : ¬ (u = 32 ∨ u = 45) := by
      rintro (rfl | rfl)
      · exact absurd digit (by decide)
      · exact absurd digit (by decide)
    simp [ends, Regex.optional, Regex.oneOf, Regex.digit, exactly, atMost, separators, apart, digit]
  · obtain rfl : s = 45 := by simpa using hyphen
    have sign : isDigit 45 = false := by decide
    simp [ends, Regex.optional, Regex.oneOf, Regex.digit, exactly, atMost, separators, digit, sign]

/-- Five digits are taken whole by the labelled rules. -/
theorem ends_five {five : List Nat} (loose : Loose [45] 4 five) (hi : Nat) (passed : List Nat) :
    (seq Regex.digit (Regex.separatedDigits 4 hi)).ends isWord ⟨passed, five⟩ =
      [⟨five.reverse ++ passed, []⟩] := by
  obtain ⟨d, digit, parts, long, all, rfl⟩ := loose
  have parts_straight := exactly_straight (fun part member => ends_part (all part member))
    (d :: passed) []
  rw [long, List.append_nil] at parts_straight
  have first : Regex.digit.ends isWord ⟨passed, d :: parts.flatten⟩ =
      [⟨d :: passed, parts.flatten⟩] := ends_letter digit passed parts.flatten
  rw [ends, first, List.flatMap_singleton, Regex.separatedDigits, ends, parts_straight,
    List.flatMap_singleton, atMost_end _ _ rfl, List.reverse_cons, List.append_assoc]
  rfl

/-- Behind the word and a blank any digit is labelled. -/
theorem behind_account {d : Nat} (digit : isDigit d = true) (more : List Nat) :
    ((seq (seq (seq boundary accountLabel) boundary) labelGap).reversed.ends isWord
      ⟨d :: more, (codeUnits "account ").reverse⟩).isEmpty = false := by
  have digits : d ∈ List.range' 48 10 := by
    simp only [isDigit, Bool.and_eq_true, decide_eq_true_eq] at digit
    rw [List.mem_range'_1]
    omega
  have listed : ∀ d ∈ List.range' 48 10,
      ((seq (seq (seq boundary accountLabel) boundary) labelGap).reversed.ends isWord
        ⟨[d], (codeUnits "account ").reverse⟩).isEmpty = false := by decide +kernel
  have place : (⟨d :: more, (codeUnits "account ").reverse⟩ : Place Nat) =
      Place.after more ⟨[d], (codeUnits "account ").reverse⟩ := rfl
  rw [place, ends_after more _ (.inl (List.cons_ne_nil d [])), List.isEmpty_map]
  exact listed d digits

theorem search_labelled {five : List Nat} (loose : Loose [45] 4 five) :
    accountLabelRule.search (codeUnits "account " ++ five) =
      (codeUnits "account ").map .kept ++ [.taken five] := by
  have never : ∀ c ∈ codeUnits "account ", ∀ passed ahead,
      accountLabelRule.pattern.first isWord ⟨passed, c :: ahead⟩ = none := by
    intro c member passed ahead
    have letter : ∀ c ∈ codeUnits "account ", isDigit c = false := by decide
    have no_end : accountLabelRule.pattern.body.ends isWord ⟨passed, c :: ahead⟩ = [] := by
      simp [accountLabelRule, labelledRule, ends, Regex.digit, letter c member]
    rw [Pattern.first, no_end]
    rfl
  obtain ⟨⟨d, more, begins, digit⟩, -⟩ := loose.ends
  have found : accountLabelRule.pattern.first isWord ⟨(codeUnits "account ").reverse, five ++ []⟩ =
      some ⟨five.reverse ++ (codeUnits "account ").reverse, []⟩ := by
    have body : accountLabelRule.pattern.body.ends isWord ⟨(codeUnits "account ").reverse, five⟩ =
        [⟨five.reverse ++ (codeUnits "account ").reverse, []⟩] := ends_five loose 18 _
    have behind := behind_account digit more
    rw [← begins] at behind
    rw [List.append_nil, Pattern.first, body]
    simp [accountLabelRule, labelledRule, Place.flip, behind]
  have some_ : five ≠ [] := by
    rw [begins]
    exact List.cons_ne_nil d more
  rw [Rule.search, Pattern.scan_letters [] five never, List.append_nil]
  have taken := Pattern.scan_take some_ found
  rw [List.append_nil] at taken
  rw [taken, Pattern.scan_nil]

theorem countP_loose {separators : List Nat} {more : Nat} {text : List Nat}
    (loose : Loose separators more text) (plain : ∀ s ∈ separators, isDigit s = false) :
    text.countP isDigit = more + 1 := by
  obtain ⟨d, digit, parts, rfl, all, rfl⟩ := loose
  rw [List.countP_cons_of_pos digit, Nat.add_right_cancel_iff]
  induction parts with
  | nil => rfl
  | cons part parts ih =>
    obtain ⟨⟨u, digit', shaped⟩, later⟩ := List.forall_mem_cons.mp all
    have one : part.countP isDigit = 1 := by
      rcases shaped with rfl | ⟨s, listed, rfl⟩
      · simp [digit']
      · simp [digit', plain s listed]
    rw [List.flatten_cons, List.countP_append, one, ih later, List.length_cons, Nat.add_comm]

/-- The rules before the labelled ones find nothing behind the word. -/
theorem quiet_before_label {five : List Nat} (loose : Loose [45] 4 five) :
    ∀ rule ∈ emailRule :: ibanRule :: digitRules,
      matched (rule.search (codeUnits "account " ++ five)) = [] := by
  intro rule listed
  refine quiet_of_no_match fun m spells inside => ?_
  have letters : ∀ u ∈ codeUnits "account " ++ five, u ≠ 64 ∧ isUpper u = false := by
    intro u member
    rcases List.mem_append.mp member with word | among
    · have listed : ∀ u ∈ codeUnits "account ", u ≠ 64 ∧ isUpper u = false := by decide
      exact listed u word
    · rcases loose.letters u among with digit | hyphen
      · refine ⟨?_, (isDigit_caseless digit).1⟩
        rintro rfl
        cases digit
      · rw [List.mem_singleton.mp hyphen]
        decide
  rw [List.mem_cons, List.mem_cons] at listed
  rcases listed with rfl | rfl | digits
  · exact (letters 64 (inside.subset (at_of_email spells))).1 rfl
  · obtain ⟨head, ⟨country, check, g₁, g₂, s₁, s₂, rfl, ⟨two, capitals⟩, -⟩, begins⟩ :=
      head_of_iban spells
    cases country with
    | nil => cases two
    | cons c country =>
      have there := (begins.isInfix.trans inside).subset (a := c) (by simp)
      have capital := capitals c List.mem_cons_self
      rw [(letters c there).2] at capital
      cases capital
  · -- Six digits do not fit into a text that has five.
    obtain ⟨six, digits, lies⟩ := six_of_digitRule digits spells
    have count := (lies.trans inside).sublist.countP_le (p := isDigit)
    have word : (codeUnits "account ").countP isDigit = 0 := by decide
    rw [countP_loose digits (by decide), List.countP_append, word,
      countP_loose loose (by decide)] at count
    omega

theorem taken_of_hasDigits {five : List Nat} (loose : Loose [45] 4 five) (canonicalize : Nat → Nat) :
    (⟨.account, five⟩ : Removed) ∈ (redact canonicalize (codeUnits "account " ++ five) []).removed := by
  let body := codeUnits "account " ++ five
  have order : redactionRules =
      (emailRule :: ibanRule :: digitRules) ++ accountLabelRule :: [idLabelRule] := rfl
  have start : redact canonicalize body [] = run redactionRules (untouched body) :=
    redact_eq canonicalize body []
  have same : (run (emailRule :: ibanRule :: digitRules) (untouched body)).text = body :=
    text_run_of_quiet (quiet_before_label loose)
  have found : (⟨.account, five⟩ : Removed) ∈
      (matched (accountLabelRule.search body)).map fun m => ⟨accountLabelRule.kind, m⟩ := by
    rw [search_labelled loose, matched_append, matched_kept]
    simp [accountLabelRule, labelledRule]
  rw [start, order, run_append, run_cons]
  apply mem_removed_run
  simp only [Rule.apply, same]
  exact List.mem_append_right _ found

/-- The value, in capitals where it begins with letters. -/
def capital (u : Nat) : Nat := if isLower u then u - 32 else u

theorem isUpper_capital {u : Nat} (letter : isUpper u = true ∨ isLower u = true) :
    isUpper (capital u) = true ∧ lowerUnit (capital u) = lowerUnit u := by
  simp only [capital, lowerUnit, isUpper, isLower, Bool.and_eq_true, decide_eq_true_eq] at *
  constructor
  · split <;> omega
  · grind

theorem isWord_of_isAlnum {u : Nat} (letter : isAlnum u = true) : isWord u = true := by
  rw [isWord, letter, Bool.true_or]

theorem ends_exactly {n : Nat} {p : Nat → Bool} {m : List Nat} (long : m.length = n)
    (all : ∀ u ∈ m, p u = true) (passed rest : List Nat) :
    (Regex.exactly n (set p)).ends isWord ⟨passed, m ++ rest⟩ = [⟨m.reverse ++ passed, rest⟩] := by
  rw [Gateway.Regex.exactly, ← long, ends_exactly_set all]

/-- A group of four leads on in one way, without a blank before it. -/
theorem ends_group {g : List Nat} (shaped : g.length = 4 ∧ ∀ u ∈ g, isAlnum u = true)
    (passed rest : List Nat) :
    (seq (Regex.optional (Regex.one ' ')) (Regex.exactly 4 (set isAlnum))).ends isWord
      ⟨passed, g ++ rest⟩ = [⟨g.reverse ++ passed, rest⟩] := by
  have skipped : (Regex.optional (Regex.one ' ')).ends isWord ⟨passed, g ++ rest⟩ =
      [⟨passed, g ++ rest⟩] := by
    match g, shaped with
    | u :: g, ⟨_, letters⟩ =>
      have other : u ≠ 32 := by
        rintro rfl
        exact absurd (letters 32 List.mem_cons_self) (by decide)
      simp [ends, Regex.optional, Regex.one, exactly, atMost, other]
  rw [ends, skipped, List.flatMap_singleton, ends_exactly shaped.1 shaped.2]

/-- An account number that is all a body has is taken whole. -/
theorem ends_account {country check g₁ g₂ : List Nat}
    (capitals : country.length = 2 ∧ ∀ u ∈ country, isUpper u = true)
    (figures : check.length = 2 ∧ ∀ u ∈ check, isDigit u = true)
    (first : g₁.length = 4 ∧ ∀ u ∈ g₁, isAlnum u = true)
    (second : g₂.length = 4 ∧ ∀ u ∈ g₂, isAlnum u = true) :
    ibanRule.pattern.body.ends isWord ⟨[], country ++ (check ++ (g₁ ++ g₂))⟩ =
      [⟨(country ++ (check ++ (g₁ ++ g₂))).reverse, []⟩] := by
  have opens : boundary.ends isWord ⟨[], country ++ (check ++ (g₁ ++ g₂))⟩ =
      [⟨[], country ++ (check ++ (g₁ ++ g₂))⟩] := by
    match country, capitals with
    | c :: country, ⟨_, upper⟩ =>
      have word : isWord c = true :=
        isWord_of_isAlnum (by rw [isAlnum, upper c List.mem_cons_self, Bool.or_true, Bool.true_or])
      simp [ends, word]
  have groups : exactly ((seq (Regex.optional (Regex.one ' '))
      (Regex.exactly 4 (set isAlnum))).ends isWord) 2
        ⟨check.reverse ++ (country.reverse ++ []), g₁ ++ g₂⟩ =
      [⟨g₂.reverse ++ (g₁.reverse ++ (check.reverse ++ (country.reverse ++ []))), []⟩] := by
    have step : ∀ part ∈ [g₁, g₂], ∀ passed rest, (seq (Regex.optional (Regex.one ' '))
        (Regex.exactly 4 (set isAlnum))).ends isWord ⟨passed, part ++ rest⟩ =
          [⟨part.reverse ++ passed, rest⟩] := by
      intro part member
      rcases List.mem_cons.mp member with rfl | last
      · exact ends_group first
      · rw [List.mem_singleton.mp last]
        exact ends_group second
    have straight := exactly_straight step (check.reverse ++ (country.reverse ++ [])) []
    simpa using straight
  have closes : ∀ passed, boundary.ends isWord ⟨g₂.reverse ++ passed, []⟩ =
      [⟨g₂.reverse ++ passed, []⟩] := by
    intro passed
    obtain ⟨rest, v, ends_v⟩ : ∃ rest v, g₂ = rest ++ [v] := by
      rcases List.eq_nil_or_concat g₂ with rfl | ⟨rest, v, rfl⟩
      · cases second.1
      · exact ⟨rest, v, List.concat_eq_append ..⟩
    have word : isWord v = true := isWord_of_isAlnum (second.2 v (by rw [ends_v]; simp))
    simp [ends, ends_v, word]
  have tail : ∀ passed, (Regex.optional (seq (Regex.optional (Regex.one ' '))
      (times 1 (some 3) (set isAlnum)))).ends isWord ⟨passed, []⟩ = [⟨passed, []⟩] := by
    intro passed
    rw [Regex.optional, ends, exactly, List.flatMap_singleton, atMost_end _ _ rfl]
  simp only [ibanRule, Regex.chain]
  rw [ends, opens, List.flatMap_singleton, ends, ends_exactly capitals.1 capitals.2,
    List.flatMap_singleton, ends, Regex.digits, Regex.digit, ends_exactly figures.1 figures.2,
    List.flatMap_singleton, ends, ends, groups, List.flatMap_singleton, atMost_end _ _ rfl,
    List.flatMap_singleton, ends, tail, List.flatMap_singleton, closes]
  simp

theorem taken_of_account {country check g₁ g₂ : List Nat}
    (capitals : country.length = 2 ∧ ∀ u ∈ country, isUpper u = true)
    (figures : check.length = 2 ∧ ∀ u ∈ check, isDigit u = true)
    (first : g₁.length = 4 ∧ ∀ u ∈ g₁, isAlnum u = true)
    (second : g₂.length = 4 ∧ ∀ u ∈ g₂, isAlnum u = true) (canonicalize : Nat → Nat) :
    (⟨.account, country ++ (check ++ (g₁ ++ g₂))⟩ : Removed) ∈
      (redact canonicalize (country ++ (check ++ (g₁ ++ g₂))) []).removed := by
  let value := country ++ (check ++ (g₁ ++ g₂))
  have start : redact canonicalize value [] = run redactionRules (untouched value) :=
    redact_eq canonicalize value []
  have letters : ∀ u ∈ value, isAlnum u = true := by
    intro u member
    simp only [value, List.mem_append] at member
    rcases member with capital | figure | letter | letter
    · rw [isAlnum, capitals.2 u capital, Bool.or_true, Bool.true_or]
    · rw [isAlnum, figures.2 u figure, Bool.true_or, Bool.true_or]
    · exact first.2 u letter
    · exact second.2 u letter
  have no_address : matched (emailRule.search value) = [] := by
    refine quiet_of_no_match fun m spells inside => ?_
    exact absurd (letters 64 (inside.subset (at_of_email spells))) (by decide)
  have same : (run [emailRule] (untouched value)).text = value :=
    text_run_of_quiet (List.forall_mem_singleton.mpr no_address)
  have some_ : value ≠ [] := by
    intro none
    have long := congrArg List.length none
    simp [value, capitals.1, figures.1] at long
  have found : ibanRule.pattern.first isWord ⟨[], value ++ []⟩ = some ⟨value.reverse ++ [], []⟩ := by
    rw [List.append_nil, List.append_nil, Pattern.first_of_plain rfl,
      ends_account capitals figures first second]
    rfl
  have taken := Pattern.scan_take some_ found
  rw [List.append_nil, Pattern.scan_nil] at taken
  have among : (⟨.account, value⟩ : Removed) ∈
      (matched (ibanRule.search value)).map fun m => ⟨ibanRule.kind, m⟩ := by
    rw [Rule.search, taken]
    exact List.mem_cons_self
  have order : redactionRules = [emailRule] ++ ibanRule :: (digitRules ++
      [accountLabelRule, idLabelRule]) := rfl
  rw [start, order, run_append, run_cons]
  apply mem_removed_run
  simp only [Rule.apply, same]
  exact List.mem_append_right _ among

end Taken

/-! ### When an id survives -/

section Survival

variable {tables : CaseTables} {id : List Nat}

theorem minted_ascii {u : Nat} (minted : inMinted u = true) : u < 128 := by
  simp only [inMinted, isAlnum, isDigit, isUpper, isLower, Bool.or_eq_true, Bool.and_eq_true,
    decide_eq_true_eq, beq_iff_eq] at minted
  omega

theorem minted_shown {u : Nat} (minted : inMinted u = true) : isSpace u = false := by
  simp only [inMinted, Bool.or_eq_true, beq_iff_eq] at minted
  rcases minted with (((letter | rfl) | rfl) | rfl) | rfl
  · exact isAlnum_shown letter
  all_goals rfl

/-- A value without spaces around it is found in the id when its letters stand there. -/
theorem leaks_of_inside {removal : Removed} (minted : ∀ u ∈ id, inMinted u = true)
    (some_ : trim removal.literal ≠ [])
    (long : removal.kind = .literal → minLiteralLength ≤ (trim removal.literal).length)
    (ascii : ∀ u ∈ trim removal.literal, u < 128)
    (inside : (trim removal.literal).map lowerUnit <:+: id.map lowerUnit) :
    Redaction.leaks tables (tables.toLowerCase id) removal = true := by
  have folded : tables.toLowerCase id = id.map lowerUnit :=
    tables.toLowerCase_ascii id fun u member => minted_ascii (minted u member)
  rw [folded]
  refine Redaction.leaks_iff.mpr ⟨some_, long, ?_⟩
  rwa [tables.toLowerCase_ascii _ ascii]

/-- A dictionary match that the leak search finds is found in the folded id. -/
theorem inside_of_leaks {removal : Removed} (minted : ∀ u ∈ id, inMinted u = true)
    (ascii : ∀ u ∈ removal.literal, u < 128)
    (found : Redaction.leaks tables (tables.toLowerCase id) removal = true) :
    (trim removal.literal).map lowerUnit <:+: id.map lowerUnit := by
  have folded : tables.toLowerCase id = id.map lowerUnit :=
    tables.toLowerCase_ascii id fun u member => minted_ascii (minted u member)
  rw [folded] at found
  have inside := (Redaction.leaks_iff.mp found).2.2
  rwa [tables.toLowerCase_ascii _ fun u member => ascii u ((trim_isInfix _).subset member)] at inside

/-- The rules take letters of the first half of the byte alone. -/
theorem ascii_of_mayTake {rule : Rule} (listed : rule ∈ redactionRules) {u : Nat}
    (takes : rule.pattern.body.mayTake u = true) : u < 128 := by
  by_contra high
  have digit : isDigit u = false := by
    by_contra among
    exact high (digit_ascii (by simpa using among))
  have upper : isUpper u = false := by
    simp only [isUpper, Bool.and_eq_false_iff, decide_eq_false_iff_not]
    omega
  have lower : isLower u = false := by
    simp only [isLower, Bool.and_eq_false_iff, decide_eq_false_iff_not]
    omega
  have other : ∀ k < 128, (u == k) = false := by
    intro k small
    rw [beq_eq_false_iff_ne]
    omega
  have listed_in : ∀ text ∈ ["._%+-", " -"], u ∉ codeUnits text := by
    intro text among member
    have small : ∀ text ∈ ["._%+-", " -"], ∀ u ∈ codeUnits text, u < 128 := by decide
    exact high (small text among u member)
  have local_part := listed_in "._%+-" (by simp)
  have separator := listed_in " -" (by simp)
  have never : rule.pattern.body.mayTake u = false := by
    simp only [redactionRules, List.mem_cons, List.not_mem_nil, or_false] at listed
    rcases listed with rfl | rfl | rfl | rfl | rfl | rfl | rfl | rfl | rfl | rfl | rfl
    all_goals
      simp [emailRule, ibanRule, bsbRule, cardGroupsRule, cardExpressRule, cardRunRule,
        phoneAbroadRule, phoneAreaRule, phoneHomeRule, accountLabelRule, idLabelRule, labelledRule,
        Regex.chain, Regex.many, Gateway.Regex.exactly, Regex.optional, Regex.digits, Regex.digit,
        Regex.one, Regex.oneOf, Regex.separatedDigits, Foundation.Regex.mayTake, inLocalPart,
        inDomain, isAlnum, digit, upper, lower, other, local_part, separator]
  rw [never] at takes
  cases takes

theorem ascii_of_spells {rule : Rule} (listed : rule ∈ redactionRules) {m : List Nat}
    (spells : rule.pattern.body.Spells m) : ∀ u ∈ m, u < 128 :=
  fun u member => ascii_of_mayTake listed (Foundation.Regex.mayTake_of_spells spells u member)

/-- An id in which neither shape stands survives. -/
theorem survives_of_neither (minted : ∀ u ∈ id, inMinted u = true) (digits : ¬ HasDigits id)
    (account : ¬ HasAccount id) : Survives tables id := by
  have never : ∀ rule ∈ redactionRules, ∀ m, rule.pattern.body.Spells m →
      ¬ (trim m).map lowerUnit <:+: id.map lowerUnit := by
    intro rule listed m spells found
    exact (shape_of_found minted listed spells found).elim digits account
  refine ⟨fun rule listed => quiet_of_no_match fun m spells inside => ?_, fun body => ?_⟩
  · exact never rule listed m spells (((trim_isInfix m).trans inside).map lowerUnit)
  · rw [Redaction.findLeak, List.find?_eq_none]
    intro removal member found
    have start : redact tables.canonicalize body [] = run redactionRules (untouched body) :=
      redact_eq tables.canonicalize body []
    rw [start] at member
    rcases of_mem_removed_run member with before | ⟨rule, listed, -, spells⟩
    · cases before
    · exact never rule listed _ spells
        (inside_of_leaks minted (ascii_of_spells listed spells) found)

theorem trim_of_all_shown {text : List Nat} (shown : ∀ u ∈ text, isSpace u = false) :
    trim text = text := by
  cases text with
  | nil => rfl
  | cons u rest =>
    obtain none | ⟨rest', v, ends⟩ := List.eq_nil_or_concat (u :: rest)
    · cases none
    · rw [List.concat_eq_append] at ends
      exact trim_of_shown rfl (shown u List.mem_cons_self) ends (shown v (by rw [ends]; simp))

/-- An id in which a value stands that is taken out of a body does not survive. -/
theorem not_survives_of_taken {body : List Nat}
    {removal : Removed} (taken : removal ∈ (redact tables.canonicalize body []).removed)
    (leaks : Redaction.leaks tables (tables.toLowerCase id) removal = true) :
    ¬ Survives tables id := by
  rintro ⟨-, none⟩
  have missed := List.find?_eq_none.mp (none body) removal taken
  exact missed leaks

theorem not_survives_of_hasDigits (minted : ∀ u ∈ id, inMinted u = true) (digits : HasDigits id) :
    ¬ Survives tables id := by
  obtain ⟨five, loose, inside⟩ := digits
  obtain ⟨⟨u, rest, begins, first⟩, rest', v, ends, last⟩ := loose.ends
  have trimmed := trim_of_shown begins (isDigit_caseless first).2.2 ends (isDigit_caseless last).2.2
  refine not_survives_of_taken (taken_of_hasDigits loose tables.canonicalize)
    (leaks_of_inside minted ?_ (by simp) ?_ ?_)
  · rw [trimmed, begins]
    exact List.cons_ne_nil u rest
  · rw [trimmed]
    exact fun u member => minted_ascii (minted u (inside.subset member))
  · rw [trimmed]
    exact inside.map lowerUnit

theorem not_survives_of_hasAccount (minted : ∀ u ∈ id, inMinted u = true) (account : HasAccount id) :
    ¬ Survives tables id := by
  obtain ⟨country, check, number, inside, ⟨two, letters⟩, figures, eight, alnum⟩ := account
  have capitals : (country.map capital).length = 2 ∧ ∀ u ∈ country.map capital, isUpper u = true := by
    refine ⟨by rw [List.length_map, two], fun u member => ?_⟩
    obtain ⟨v, among, rfl⟩ := List.mem_map.mp member
    exact (isUpper_capital (letters v among)).1
  have first : (number.take 4).length = 4 ∧ ∀ u ∈ number.take 4, isAlnum u = true :=
    ⟨by simp [eight], fun u member => alnum u (List.mem_of_mem_take member)⟩
  have second : (number.drop 4).length = 4 ∧ ∀ u ∈ number.drop 4, isAlnum u = true :=
    ⟨by simp [eight], fun u member => alnum u (List.mem_of_mem_drop member)⟩
  have taken := taken_of_account capitals figures first second tables.canonicalize
  rw [List.take_append_drop] at taken
  have letters_alnum : ∀ u ∈ country.map capital ++ (check ++ number), isAlnum u = true := by
    intro u member
    simp only [List.mem_append] at member
    rcases member with upper | figure | letter
    · rw [isAlnum, capitals.2 u upper, Bool.or_true, Bool.true_or]
    · rw [isAlnum, figures.2 u figure, Bool.true_or, Bool.true_or]
    · exact alnum u letter
  have trimmed := trim_of_all_shown fun u member => isAlnum_shown (letters_alnum u member)
  have same : (country.map capital ++ (check ++ number)).map lowerUnit =
      (country ++ check ++ number).map lowerUnit := by
    have folded : (country.map capital).map lowerUnit = country.map lowerUnit := by
      rw [List.map_map]
      exact List.map_congr_left fun u member => (isUpper_capital (letters u member)).2
    rw [List.map_append, folded, ← List.map_append, List.append_assoc]
  refine not_survives_of_taken taken (leaks_of_inside minted ?_ (by simp) ?_ ?_)
  · rw [trimmed]
    intro none
    have long := congrArg List.length none
    simp [two] at long
  · rw [trimmed]
    intro u member
    have letter := letters_alnum u member
    exact minted_ascii (by rw [inMinted, letter, Bool.true_or, Bool.true_or, Bool.true_or, Bool.true_or])
  · rw [trimmed, same]
    exact inside.map lowerUnit

/-- A literal without spaces around it is taken out of a body that it is all of. -/
theorem taken_of_literal {value : List Nat} (some_ : value ≠ []) (trimmed : trim value = value)
    (canonicalize : Nat → Nat) :
    (⟨.literal, value⟩ : Removed) ∈ (redact canonicalize value [value]).removed := by
  have ordered : orderedLiterals [value] = [value] := by
    have positive := List.length_pos_iff.mpr some_
    simp [orderedLiterals, trimmed, positive, List.eraseDups_cons]
  obtain ⟨rule, made⟩ : ∃ rule, literalRule canonicalize value = some rule := by
    cases value with
    | nil => exact absurd rfl some_
    | cons c value => exact ⟨_, rfl⟩
  obtain ⟨literal, told⟩ := literalRule_told made
  have found : rule.pattern.first isWord ⟨[], value ++ []⟩ = some ⟨value.reverse ++ [], []⟩ :=
    (told _ _ _).mpr ⟨value, rfl, rfl, rfl⟩
  have taken := Pattern.scan_take some_ found
  rw [List.append_nil, Pattern.scan_nil] at taken
  have among : (⟨.literal, value⟩ : Removed) ∈
      (matched (rule.search value)).map fun m => ⟨rule.kind, m⟩ := by
    rw [Rule.search, taken, literal]
    exact List.mem_cons_self
  have rules : [value].filterMap (literalRule canonicalize) = [rule] := by
    rw [List.filterMap_cons_some made, List.filterMap_nil]
  rw [redact_eq, ordered, rules]
  apply mem_removed_run
  exact List.mem_append_right _ among

end Survival

/-- A minted id survives exactly when neither shape stands in it; and a value that a caller names is
found in each. -/
theorem minted_survives_iff {key article : String} (shaped : canonicalKeyShape key = true)
    (uuid : isUuid article = true) (tables : CaseTables) :
    (Survives tables (codeUnits (kbIdOf key article)) ↔
      ¬ HasDigits (codeUnits (kbIdOf key article)) ∧
        ¬ HasAccount (codeUnits (kbIdOf key article))) ∧
    ∃ body literal, minLiteralLength ≤ (trim literal).length ∧
      Redaction.findLeak tables (codeUnits (kbIdOf key article))
        (redact tables.canonicalize body [literal]).removed ≠ none := by
  have letters := minted_letter shaped uuid
  have plain : codeUnits (kbIdOf key article) = (kbIdOf key article).toList.map Char.toNat := by
    refine codeUnits_of_plain fun c member => ?_
    exact (minted_ascii (letters c member)).trans (by decide)
  have minted : ∀ u ∈ codeUnits (kbIdOf key article), inMinted u = true := by
    rw [plain]
    exact List.forall_mem_map.mpr letters
  constructor
  · constructor
    · intro survives
      exact ⟨fun digits => not_survives_of_hasDigits minted digits survives,
        fun account => not_survives_of_hasAccount minted account survives⟩
    · rintro ⟨digits, account⟩
      exact survives_of_neither minted digits account
  · -- The id itself is long enough to be named.
    have long : minLiteralLength ≤ (codeUnits (kbIdOf key article)).length := by
      have digits := (unhyphened uuid).1
      rw [plain]
      simp only [List.length_map, kbIdOf, String.toList_append, String.toList_ofList,
        List.length_append, digits, minLiteralLength]
      omega
    have trimmed := trim_of_all_shown fun u member => minted_shown (minted u member)
    have some_ : codeUnits (kbIdOf key article) ≠ [] := by
      intro none
      rw [none] at long
      cases long
    have taken := taken_of_literal some_ trimmed tables.canonicalize
    refine ⟨codeUnits (kbIdOf key article), codeUnits (kbIdOf key article),
      by rw [trimmed]; exact long, fun none => ?_⟩
    refine List.find?_eq_none.mp none _ taken (leaks_of_inside minted ?_ (fun _ => ?_) ?_ ?_)
    · rwa [trimmed]
    · rwa [trimmed]
    · rw [trimmed]
      exact fun u member => minted_ascii (minted u member)
    · rw [trimmed]

theorem map_lowerUnit_ascii : ∀ text : List Nat, (∀ u ∈ text, u < 128) →
    List.map lowerUnit text = text.map lowerUnit := by
  intro text _
  rfl

/-- The lower case of a text without letters beyond the first half of the byte. -/
def asciiTables : CaseTables := ⟨id, List.map lowerUnit, map_lowerUnit_ascii⟩

/-- An article whose id has digits enough. -/
def numberedId : String := kbIdOf "access" "1a2b3c4d-0000-4000-8000-00000000000a"

theorem numberedId_hasDigits : HasDigits (codeUnits numberedId) := by
  refine ⟨codeUnits "00004", ⟨48, by decide, [[48], [48], [48], [52]], rfl, ?_, by decide⟩,
    by decide +kernel⟩
  intro part member
  have digits : ∀ part ∈ [[48], [48], [48], [52]], ∃ u ∈ [48, 52], isDigit u = true ∧ part = [u] := by
    decide
  obtain ⟨u, -, digit, alone⟩ := digits part member
  exact ⟨u, digit, .inl alone⟩

theorem minted_survives_iff_numbered :
    canonicalKeyShape "access" = true ∧ isUuid "1a2b3c4d-0000-4000-8000-00000000000a" = true ∧
      ¬ Survives asciiTables (codeUnits numberedId) := by
  have shaped : canonicalKeyShape "access" = true := by decide
  have uuid : isUuid "1a2b3c4d-0000-4000-8000-00000000000a" = true := by decide
  refine ⟨shaped, uuid, fun survives => ?_⟩
  exact ((minted_survives_iff shaped uuid asciiTables).1.mp survives).1 numberedId_hasDigits

/-- A body that reads "account 00004" loses what stands in a minted id. -/
theorem minted_id_found : ¬ ∀ (tables : CaseTables) (key article : String),
    canonicalKeyShape key = true → isUuid article = true →
      Survives tables (codeUnits (kbIdOf key article)) := by
  intro always
  have minted : ∀ u ∈ codeUnits numberedId, inMinted u = true := by decide +kernel
  exact not_survives_of_hasDigits minted numberedId_hasDigits
    (always asciiTables "access" "1a2b3c4d-0000-4000-8000-00000000000a" (by decide) (by decide))

end LedgerDesk.Kb
