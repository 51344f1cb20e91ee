import LedgerDesk.Foundation.Replace
import LedgerDesk.Gateway.Call

/-!
# Redaction

The dictionary, in the order of its rules, and the pass that takes out the literals a caller names
and then whatever a rule finds. Texts are lists of code units.
-/
namespace LedgerDesk.Gateway

open Foundation Agents

/-! ### Classes of code units -/

def isDigit (u : Nat) : Bool := 48 ≤ u && u ≤ 57

def isUpper (u : Nat) : Bool := 65 ≤ u && u ≤ 90

def isLower (u : Nat) : Bool := 97 ≤ u && u ≤ 122

def isAlnum (u : Nat) : Bool := isDigit u || isUpper u || isLower u

/-- `\w`, by which `\b` goes. -/
def isWord (u : Nat) : Bool := isAlnum u || u == 95

/-- `\s`, and what `trim` takes off. -/
def isSpace (u : Nat) : Bool :=
  (9 ≤ u && u ≤ 13) || u == 32 || u == 0xA0 || u == 0x1680 || (0x2000 ≤ u && u ≤ 0x200A) ||
    u == 0x2028 || u == 0x2029 || u == 0x202F || u == 0x205F || u == 0x3000 || u == 0xFEFF

namespace Regex

open Foundation.Regex

def one (c : Char) : Regex Nat := set fun u => u == c.toNat

def oneOf (text : String) : Regex Nat := set fun u => (codeUnits text).contains u

/-- One after the other. -/
def chain : List (Regex Nat) → Regex Nat
  | [] => empty
  | [r] => r
  | r :: rs => seq r (chain rs)

def choice : List (Regex Nat) → Regex Nat
  | [] => empty
  | [r] => r
  | r :: rs => alt r (choice rs)

def optional (r : Regex Nat) : Regex Nat := times 0 (some 1) r

def exactly (n : Nat) (r : Regex Nat) : Regex Nat := times n (some n) r

def many (r : Regex Nat) : Regex Nat := times 1 none r

def digit : Regex Nat := set isDigit

def digits (n : Nat) : Regex Nat := exactly n digit

/-- A text in either case. -/
def caseless (text : String) : Regex Nat :=
  chain (text.toList.map fun c => set fun u => u == c.toNat || u == c.toUpper.toNat)

/-- `(?:[ -]?\d){lo,hi}`. -/
def separatedDigits (lo hi : Nat) : Regex Nat :=
  times lo (some hi) (seq (optional (oneOf " -")) digit)

end Regex

/-! ### The dictionary -/

structure Rule where
  kind : RedactionKind
  pattern : Pattern Nat

section Rules

open Foundation.Regex Regex

def inLocalPart (u : Nat) : Bool := isAlnum u || (codeUnits "._%+-").contains u

def inDomain (u : Nat) : Bool := isAlnum u || u == 45

/-- `[A-Za-z0-9._%+-]+@[A-Za-z0-9-]+(?:\.[A-Za-z0-9-]+)+`. -/
def emailRule : Rule :=
  ⟨.email, none, chain [many (set inLocalPart), one '@', many (set inDomain),
    many (seq (one '.') (many (set inDomain)))], rfl⟩

/-- `\b[A-Z]{2}\d{2}(?:[ ]?[A-Za-z0-9]{4}){2,7}(?:[ ]?[A-Za-z0-9]{1,3})?\b`. -/
def ibanRule : Rule :=
  ⟨.account, none, chain [boundary, exactly 2 (set isUpper), digits 2,
    times 2 (some 7) (seq (optional (one ' ')) (exactly 4 (set isAlnum))),
    optional (seq (optional (one ' ')) (times 1 (some 3) (set isAlnum))), boundary], rfl⟩

/-- `\b\d{3}-\d{3}[ ]+\d{6,10}\b`. -/
def bsbRule : Rule :=
  ⟨.account, none, chain [boundary, digits 3, one '-', digits 3, many (one ' '),
    times 6 (some 10) digit, boundary], rfl⟩

/-- `\b\d{4}[ -]\d{4}[ -]\d{4}(?:[ -]\d{1,4})?\b`. -/
def cardGroupsRule : Rule :=
  ⟨.card, none, chain [boundary, digits 4, oneOf " -", digits 4, oneOf " -", digits 4,
    optional (seq (oneOf " -") (times 1 (some 4) digit)), boundary], rfl⟩

/-- `\b\d{4}[ -]\d{6}[ -]\d{5}\b`. -/
def cardExpressRule : Rule :=
  ⟨.card, none, chain [boundary, digits 4, oneOf " -", digits 6, oneOf " -", digits 5, boundary],
    rfl⟩

/-- `\b\d{13,19}\b`. -/
def cardRunRule : Rule :=
  ⟨.card, none, chain [boundary, times 13 (some 19) digit, boundary], rfl⟩

/-- `\+\d{1,3}[ -]?\d(?:[ -]?\d){6,13}\b`. -/
def phoneAbroadRule : Rule :=
  ⟨.phone, none, chain [one '+', times 1 (some 3) digit, optional (oneOf " -"), digit,
    separatedDigits 6 13, boundary], rfl⟩

/-- `\(\d{2}\)[ ]?\d{4}[ -]?\d{4}\b`. -/
def phoneAreaRule : Rule :=
  ⟨.phone, none, chain [one '(', digits 2, one ')', optional (one ' '), digits 4,
    optional (oneOf " -"), digits 4, boundary], rfl⟩

/-- `\b0\d(?:[ -]?\d){7,9}\b`. -/
def phoneHomeRule : Rule :=
  ⟨.phone, none, chain [boundary, one '0', digit, separatedDigits 7 9, boundary], rfl⟩

/-- `[^\d\n]{0,16}`. -/
def labelGap : Regex Nat := times 0 (some 16) (set fun u => !isDigit u && u != 10)

/-- `(?<=\b(?:label)\b[^\d\n]{0,16})\d(?:[ -]?\d){4,hi}`. -/
def labelledRule (kind : RedactionKind) (label : Regex Nat) (hi : Nat) : Rule :=
  ⟨kind, some (seq (seq (seq boundary label) boundary) labelGap), seq digit (separatedDigits 4 hi), rfl⟩

def accountLabel : Regex Nat :=
  choice [caseless "account", caseless "acct", caseless "a/c", caseless "bsb", caseless "iban",
    caseless "bank"]

def idLabel : Regex Nat :=
  choice [caseless "tfn", caseless "abn", caseless "acn", caseless "medicare", caseless "licence",
    caseless "license", caseless "passport",
    chain [caseless "customer", many (set isSpace), caseless "id"],
    chain [caseless "member", many (set isSpace), caseless "id"]]

def accountLabelRule : Rule := labelledRule .account accountLabel 18

def idLabelRule : Rule := labelledRule .id idLabel 15

end Rules

/-- `RULES`, in their order. -/
def redactionRules : List Rule :=
  [emailRule, ibanRule, bsbRule, cardGroupsRule, cardExpressRule, cardRunRule, phoneAbroadRule,
    phoneAreaRule, phoneHomeRule, accountLabelRule, idLabelRule]

/-! ### A pass -/

def kindName : RedactionKind → String
  | .literal => "literal"
  | .email => "email"
  | .card => "card"
  | .account => "account"
  | .phone => "phone"
  | .id => "id"

def marker (kind : RedactionKind) : List Nat := codeUnits ("[REDACTED:" ++ kindName kind ++ "]")

/-- A value that was taken out, in code units. -/
structure Removed where
  kind : RedactionKind
  literal : List Nat
  deriving DecidableEq, Repr

structure RedactionResult where
  text : List Nat
  removed : List Removed
  counts : RedactionKind → Nat

namespace Rule

variable (rule : Rule)

/-- What the rule finds in a text. -/
def search (text : List Nat) : List (Piece Nat) := rule.pattern.scan isWord 0 [] text

/-- `current.replace(pattern, …)`. -/
def apply (result : RedactionResult) : RedactionResult :=
  let pieces := rule.search result.text
  { text := marked (marker rule.kind) pieces
    removed := result.removed ++ (matched pieces).map fun m => ⟨rule.kind, m⟩
    counts := fun kind =>
      result.counts kind + if kind = rule.kind then (matched pieces).length else 0 }

end Rule

def trim (text : List Nat) : List Nat :=
  ((text.dropWhile isSpace).reverse.dropWhile isSpace).reverse

/-- The literals as they are taken out: each once, trimmed, the longest first. -/
def orderedLiterals (literals : List (List Nat)) : List (List Nat) :=
  ((literals.eraseDups.map trim).filter fun literal => 0 < literal.length).insertionSort
    fun a b => b.length ≤ a.length

section Literals

open Foundation.Regex

/-- Each letter of the literal in turn, in any case. -/
def spelledOut (canonicalize : Nat → Nat) (literal : List Nat) : Regex Nat :=
  literal.foldr (fun c r => seq (set fun u => canonicalize u == canonicalize c) r) empty

def literalRule (canonicalize : Nat → Nat) : List Nat → Option Rule
  | [] => none
  | c :: literal => some ⟨.literal, none, spelledOut canonicalize (c :: literal), rfl⟩

end Literals

/-- `redact`, over the case folding of regular expressions. -/
def redact (canonicalize : Nat → Nat) (text : List Nat) (literals : List (List Nat)) :
    RedactionResult :=
  ((orderedLiterals literals).filterMap (literalRule canonicalize) ++ redactionRules).foldl
    (fun result rule => rule.apply result) ⟨text, [], fun _ => 0⟩

/-! ### Trimmed values -/

theorem isDigit_caseless {u : Nat} (digit : isDigit u = true) :
    isUpper u = false ∧ isLower u = false ∧ isSpace u = false := by
  simp only [isDigit, isUpper, isLower, isSpace, Bool.and_eq_true, decide_eq_true_eq,
    Bool.and_eq_false_iff, decide_eq_false_iff_not, Bool.or_eq_false_iff, beq_eq_false_iff_ne] at *
  omega

theorem isAlnum_shown {u : Nat} (letter : isAlnum u = true) : isSpace u = false := by
  simp only [isAlnum, isDigit, isUpper, isLower, isSpace, Bool.and_eq_true, decide_eq_true_eq,
    Bool.or_eq_true, Bool.and_eq_false_iff, decide_eq_false_iff_not, Bool.or_eq_false_iff,
    beq_eq_false_iff_ne] at *
  omega

theorem mem_trim {text : List Nat} {u : Nat} (member : u ∈ text) (shown : isSpace u = false) :
    u ∈ trim text := by
  have kept : ∀ l : List Nat, u ∈ l → u ∈ l.dropWhile isSpace := by
    intro l among
    rw [← List.takeWhile_append_dropWhile (p := isSpace) (l := l), List.mem_append] at among
    rcases among with dropped | left
    · rw [List.mem_takeWhile_imp dropped] at shown
      cases shown
    · exact left
  rw [trim, List.mem_reverse]
  exact kept _ (List.mem_reverse.mpr (kept text member))

theorem trim_isInfix (text : List Nat) : trim text <:+: text := by
  rw [trim, ← List.reverse_infix, List.reverse_reverse]
  refine (List.dropWhile_suffix isSpace).isInfix.trans ?_
  rw [List.reverse_infix]
  exact (List.dropWhile_suffix isSpace).isInfix

theorem dropWhile_append_shown (front : List Nat) {u : Nat} (back : List Nat)
    (shown : isSpace u = false) :
    ∃ front', (front ++ u :: back).dropWhile isSpace = front' ++ u :: back := by
  induction front with
  | nil => exact ⟨[], by simp [shown]⟩
  | cons c front ih =>
    by_cases space : isSpace c = true
    · simpa [space] using ih
    · exact ⟨c :: front, by simp [space]⟩

/-- What begins and ends with a letter that is no space survives the trimming. -/
theorem trim_inside {part text rest rest' : List Nat} {u v : Nat} (inside : part <:+: text)
    (begins : part = u :: rest) (shown : isSpace u = false)
    (ends : part = rest' ++ [v]) (shown' : isSpace v = false) : part <:+: trim text := by
  obtain ⟨front, back, rfl⟩ := inside
  obtain ⟨front', left⟩ := dropWhile_append_shown front (rest ++ back) shown
  have first : (front ++ part ++ back).dropWhile isSpace = front' ++ part ++ back := by
    simpa [begins] using left
  obtain ⟨back', right⟩ :=
    dropWhile_append_shown back.reverse (rest'.reverse ++ front'.reverse) shown'
  have second : (front' ++ part ++ back).reverse.dropWhile isSpace =
      back' ++ part.reverse ++ front'.reverse := by
    simpa [ends] using right
  rw [trim, first, second]
  exact ⟨front', back'.reverse, by simp⟩

theorem trim_of_shown {text rest rest' : List Nat} {u v : Nat} (begins : text = u :: rest)
    (shown : isSpace u = false) (ends : text = rest' ++ [v]) (shown' : isSpace v = false) :
    trim text = text := by
  have inside := trim_inside (List.infix_refl text) begins shown ends shown'
  exact (trim_isInfix text).eq_of_length_le inside.length_le

theorem ends_of_trim {text : List Nat} (some_ : trim text ≠ []) : ∃ u rest rest' v,
    trim text = u :: rest ∧ isSpace u = false ∧
      trim text = rest' ++ [v] ∧ isSpace v = false := by
  have shown : ∀ {l rest : List Nat} {u : Nat}, l.dropWhile isSpace = u :: rest →
      isSpace u = false := by
    intro l rest u opens
    have first := List.head?_dropWhile_not isSpace l
    rw [opens] at first
    simpa using first
  obtain ⟨u, rest, opens⟩ := List.exists_cons_of_ne_nil some_
  cases back : (text.dropWhile isSpace).reverse.dropWhile isSpace with
  | nil =>
    rw [trim, back] at some_
    exact absurd rfl some_
  | cons v rest' =>
    have closes : trim text = rest'.reverse ++ [v] := by rw [trim, back, List.reverse_cons]
    refine ⟨u, rest, rest'.reverse, v, opens, ?_, closes, shown back⟩
    -- What is trimmed at the end leaves the first letter where it is.
    have whole := List.takeWhile_append_dropWhile (p := isSpace)
      (l := (text.dropWhile isSpace).reverse)
    have turned : text.dropWhile isSpace = trim text ++
        ((text.dropWhile isSpace).reverse.takeWhile isSpace).reverse := by
      rw [trim, ← List.reverse_append, whole, List.reverse_reverse]
    rw [opens, List.cons_append] at turned
    exact shown turned

theorem mem_orderedLiterals {literals : List (List Nat)} {literal : List Nat}
    (member : literal ∈ orderedLiterals literals) : ∃ named ∈ literals, trim named = literal := by
  have kept := (List.mem_filter.mp ((List.mem_insertionSort _).mp member)).1
  obtain ⟨named, among, rfl⟩ := List.mem_map.mp kept
  exact ⟨named, List.mem_eraseDups.mp among, rfl⟩

/-! ### What a run of rules takes out -/

/-- The text alone, with nothing taken out of it yet. -/
def untouched (text : List Nat) : RedactionResult := ⟨text, [], fun _ => 0⟩

def run (rules : List Rule) (result : RedactionResult) : RedactionResult :=
  rules.foldl (fun result rule => rule.apply result) result

theorem redact_eq (canonicalize : Nat → Nat) (text : List Nat) (literals : List (List Nat)) :
    redact canonicalize text literals = run redactionRules
      (run ((orderedLiterals literals).filterMap (literalRule canonicalize)) (untouched text)) := by
  rw [redact, List.foldl_append]
  rfl

section Run

variable {rules : List Rule} {result : RedactionResult}

theorem run_append (first later : List Rule) (result : RedactionResult) :
    run (first ++ later) result = run later (run first result) := List.foldl_append

theorem run_cons (rule : Rule) (rules : List Rule) (result : RedactionResult) :
    run (rule :: rules) result = run rules (rule.apply result) := rfl

theorem mem_removed_run {value : Removed} (member : value ∈ result.removed) :
    value ∈ (run rules result).removed := by
  induction rules generalizing result with
  | nil => exact member
  | cons rule rules ih =>
    have next : value ∈ (rule.apply result).removed := List.mem_append_left _ member
    exact ih next

/-- Every value taken out is a match of one of the rules. -/
theorem of_mem_removed_run {value : Removed} (member : value ∈ (run rules result).removed) :
    value ∈ result.removed ∨
      ∃ rule ∈ rules, value.kind = rule.kind ∧ rule.pattern.body.Spells value.literal := by
  induction rules generalizing result with
  | nil => exact .inl member
  | cons rule rules ih =>
    have next : value ∈ (run rules (rule.apply result)).removed := member
    rcases ih next with here | ⟨other, among, found⟩
    · rcases List.mem_append.mp here with before | new
      · exact .inl before
      · obtain ⟨m, matches_, rfl⟩ := List.mem_map.mp new
        exact .inr ⟨rule, List.mem_cons_self, rfl, Pattern.spells_of_mem_matched matches_⟩
    · exact .inr ⟨other, List.mem_cons_of_mem rule among, found⟩

/-- Rules that find nothing leave the text. -/
theorem text_run_of_quiet (quiet : ∀ rule ∈ rules, matched (rule.search result.text) = []) :
    (run rules result).text = result.text := by
  induction rules generalizing result with
  | nil => rfl
  | cons rule rules ih =>
    obtain ⟨here, later⟩ := List.forall_mem_cons.mp quiet
    have same : (rule.apply result).text = result.text := by
      have whole : letters (rule.search result.text) = result.text := Pattern.letters_scan [] _
      rcases last_taken (rule.search result.text) with none | ⟨before, m, back, taken⟩
      · simp only [Rule.apply]
        rw [none, marked_kept, whole]
      · rw [taken] at here
        simp at here
    have next : (run rules (rule.apply result)).text = (rule.apply result).text :=
      ih (by rwa [same])
    exact next.trans same

/-- A rule of which no match lies in the text finds nothing. -/
theorem quiet_of_no_match {rule : Rule} {text : List Nat}
    (never : ∀ m, rule.pattern.body.Spells m → ¬ m <:+: text) : matched (rule.search text) = [] := by
  rw [Rule.search, Pattern.scan_of_no_match never, matched_kept]

end Run

/-! ### The leak search -/

def lowerUnit (u : Nat) : Nat := if isUpper u then u + 32 else u

/-- What follows the Unicode tables: the folding of regular expressions, and the lower case. -/
structure CaseTables where
  canonicalize : Nat → Nat
  toLowerCase : List Nat → List Nat
  toLowerCase_ascii : ∀ text, (∀ u ∈ text, u < 128) → toLowerCase text = text.map lowerUnit

namespace Redaction

variable (tables : CaseTables)

/-- Whether the folded text still has the value. -/
def leaks (folded : List Nat) (removal : Removed) : Bool :=
  let literal := trim removal.literal
  !literal.isEmpty &&
    !(removal.kind == .literal && literal.length < minLiteralLength) &&
    decide (tables.toLowerCase literal <:+: folded)

def findLeak (haystack : List Nat) (removed : List Removed) : Option Removed :=
  removed.find? (leaks tables (tables.toLowerCase haystack))

variable {tables}

theorem leaks_iff {folded : List Nat} {removal : Removed} : leaks tables folded removal = true ↔
    trim removal.literal ≠ [] ∧
      (removal.kind = .literal → minLiteralLength ≤ (trim removal.literal).length) ∧
      tables.toLowerCase (trim removal.literal) <:+: folded := by
  by_cases literal : removal.kind = .literal
  all_goals simp [leaks, literal, and_assoc]

end Redaction

end LedgerDesk.Gateway
