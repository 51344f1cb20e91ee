import LedgerDesk.Gateway.Redaction

/-!
# What the rules can take

Every rule but two takes five digits with at most one letter between them. The others take an
address and an account number that begins with a country.
-/
namespace LedgerDesk.Gateway

open Foundation Agents

/-- A digit and `more` further ones, at most one of the separators before each. -/
def Loose (separators : List Nat) (more : Nat) (text : List Nat) : Prop :=
  ∃ d, isDigit d = true ∧ ∃ parts : List (List Nat), parts.length = more ∧
    (∀ part ∈ parts, ∃ u, isDigit u = true ∧
      (part = [u] ∨ ∃ s ∈ separators, part = [s, u])) ∧ text = d :: parts.flatten

section Loose

variable {separators : List Nat} {more : Nat} {text : List Nat}

/-- The digits are followed by others, with one separator or none between. -/
theorem Loose.append {further : Nat} {between text' : List Nat} (first : Loose separators more text)
    (then_ : Loose separators further text')
    (apart : between = [] ∨ ∃ s ∈ separators, between = [s]) :
    Loose separators (more + further + 1) (text ++ between ++ text') := by
  obtain ⟨d, digit, parts, long, all, rfl⟩ := first
  obtain ⟨d', digit', parts', long', all', rfl⟩ := then_
  refine ⟨d, digit, parts ++ (between ++ [d']) :: parts', ?_, ?_, ?_⟩
  · rw [List.length_append, List.length_cons, long, long', Nat.add_assoc]
  · refine List.forall_mem_append.mpr ⟨all, List.forall_mem_cons.mpr ⟨⟨d', digit', ?_⟩, all'⟩⟩
    rcases apart with rfl | ⟨s, listed, rfl⟩
    · exact .inl rfl
    · exact .inr ⟨s, listed, rfl⟩
  · simp

theorem Loose.take (loose : Loose separators more text) {fewer : Nat} (le : fewer ≤ more) :
    ∃ begins, Loose separators fewer begins ∧ begins <+: text := by
  obtain ⟨d, digit, parts, long, all, rfl⟩ := loose
  refine ⟨d :: (parts.take fewer).flatten, ⟨d, digit, parts.take fewer, ?_, ?_, rfl⟩, ?_⟩
  · rw [List.length_take, long, Nat.min_eq_left le]
  · exact fun part member => all part (List.mem_of_mem_take member)
  · refine (List.prefix_cons_inj d).mpr ⟨(parts.drop fewer).flatten, ?_⟩
    rw [← List.flatten_append, List.take_append_drop]

theorem Loose.letters (loose : Loose separators more text) :
    ∀ u ∈ text, isDigit u = true ∨ u ∈ separators := by
  obtain ⟨d, digit, parts, -, all, rfl⟩ := loose
  intro u member
  rcases List.mem_cons.mp member with rfl | later
  · exact .inl digit
  · obtain ⟨part, among, inside⟩ := List.mem_flatten.mp later
    obtain ⟨v, digit', rfl | ⟨s, listed, rfl⟩⟩ := all part among
    · rw [List.mem_singleton.mp inside]
      exact .inl digit'
    · rcases List.mem_cons.mp inside with rfl | last
      · exact .inr listed
      · rw [List.mem_singleton.mp last]
        exact .inl digit'

/-- A separator that is not there is not one. -/
theorem Loose.without {fewer : List Nat} (loose : Loose separators more text)
    (absent : ∀ s ∈ separators, s ∈ text → s ∈ fewer) : Loose fewer more text := by
  obtain ⟨d, digit, parts, long, all, rfl⟩ := loose
  refine ⟨d, digit, parts, long, fun part member => ?_, rfl⟩
  obtain ⟨u, digit', alone | ⟨s, listed, rfl⟩⟩ := all part member
  · exact ⟨u, digit', .inl alone⟩
  · refine ⟨u, digit', .inr ⟨s, absent s listed (List.mem_cons_of_mem d ?_), rfl⟩⟩
    exact List.mem_flatten.mpr ⟨_, member, List.mem_cons_self⟩

theorem Loose.ends (loose : Loose separators more text) :
    (∃ u rest, text = u :: rest ∧ isDigit u = true) ∧
      ∃ rest u, text = rest ++ [u] ∧ isDigit u = true := by
  obtain ⟨d, digit, parts, -, all, rfl⟩ := loose
  refine ⟨⟨d, _, rfl, digit⟩, ?_⟩
  rcases List.eq_nil_or_concat parts with rfl | ⟨parts, part, rfl⟩
  · exact ⟨[], d, rfl, digit⟩
  · obtain ⟨u, digit', last⟩ := all part (by simp)
    rcases last with rfl | ⟨s, -, rfl⟩
    · exact ⟨d :: parts.flatten, u, by simp, digit'⟩
    · exact ⟨d :: parts.flatten ++ [s], u, by simp, digit'⟩

end Loose

/-! ### The parts of the rules -/

section Parts

open Foundation.Regex Regex

variable {m : List Nat}

theorem spells_of_set {p : Nat → Bool} {parts : List (List Nat)}
    (all : ∀ part ∈ parts, (set p).Spells part) :
    parts.flatten.length = parts.length ∧ ∀ u ∈ parts.flatten, p u = true := by
  induction parts with
  | nil => exact ⟨rfl, nofun⟩
  | cons part parts ih =>
    obtain ⟨⟨u, accepted, rfl⟩, later⟩ := List.forall_mem_cons.mp all
    obtain ⟨long, inside⟩ := ih later
    refine ⟨?_, List.forall_mem_cons.mpr ⟨accepted, inside⟩⟩
    rw [List.flatten_cons, List.length_append, long, List.length_cons, Nat.add_comm]
    rfl

theorem spells_exactly_set {n : Nat} {p : Nat → Bool} (spells : (Regex.exactly n (set p)).Spells m) :
    m.length = n ∧ ∀ u ∈ m, p u = true := by
  obtain ⟨parts, least, most, all, rfl⟩ := spells
  obtain ⟨long, inside⟩ := spells_of_set all
  have most := most n rfl
  exact ⟨by omega, inside⟩

theorem spells_one {c : Char} (spells : (one c).Spells m) : m = [c.toNat] := by
  obtain ⟨u, same, rfl⟩ := spells
  rw [eq_of_beq same]

theorem spells_optional {r : Regex Nat} (spells : (optional r).Spells m) : m = [] ∨ r.Spells m := by
  obtain ⟨parts, -, most, all, rfl⟩ := spells
  have most := most 1 rfl
  match parts with
  | [] => exact .inl rfl
  | [part] => exact .inr (by simpa using all)
  | _ :: _ :: _ => simp at most

theorem spells_oneOf {text : String} (spells : (oneOf text).Spells m) :
    ∃ s ∈ codeUnits text, m = [s] := by
  obtain ⟨u, listed, rfl⟩ := spells
  exact ⟨u, by simpa using listed, rfl⟩

theorem loose_of_digits (separators : List Nat) (some_ : m ≠ []) (all : ∀ u ∈ m, isDigit u = true) :
    Loose separators (m.length - 1) m := by
  cases m with
  | nil => exact absurd rfl some_
  | cons d rest =>
    obtain ⟨digit, later⟩ := List.forall_mem_cons.mp all
    refine ⟨d, digit, rest.map fun u => [u], by simp, ?_, ?_⟩
    rotate_left
    · rw [← List.flatMap_def, List.flatMap_singleton']
    intro part member
    obtain ⟨u, among, rfl⟩ := List.mem_map.mp member
    exact ⟨u, later u among, .inl rfl⟩

/-- The separators of the rules. -/
def spaceOrHyphen : List Nat := [32, 45]

theorem loose_of_separated {lo hi : Nat} (spells : (seq digit (separatedDigits lo hi)).Spells m) :
    ∃ more, lo ≤ more ∧ Loose spaceOrHyphen more m := by
  obtain ⟨first, later, ⟨d, accepted, rfl⟩, ⟨parts, least, -, all, rfl⟩, rfl⟩ := spells
  refine ⟨parts.length, least, d, accepted, parts, rfl, fun part member => ?_, rfl⟩
  obtain ⟨between, last, may, ⟨u, accepted', rfl⟩, rfl⟩ := all part member
  refine ⟨u, accepted', ?_⟩
  rcases spells_optional may with rfl | sep
  · exact .inl rfl
  · obtain ⟨s, listed, rfl⟩ := spells_oneOf sep
    exact .inr ⟨s, listed, rfl⟩

end Parts

/-- Such digits stand in the text, at most a space or a hyphen between two of them. -/
def LooseIn (more : Nat) (text : List Nat) : Prop :=
  ∃ part, Loose spaceOrHyphen more part ∧ part <:+: text

theorem Loose.fewer {more fewer : Nat} {part text : List Nat} (loose : Loose spaceOrHyphen more part)
    (enough : fewer ≤ more) (inside : part <:+: text) : LooseIn fewer text := by
  obtain ⟨begins, short, first⟩ := loose.take enough
  exact ⟨begins, short, first.isInfix.trans inside⟩

theorem LooseIn.mono {more fewer : Nat} {text : List Nat} (loose : LooseIn more text)
    (enough : fewer ≤ more) : LooseIn fewer text := by
  obtain ⟨part, digits, inside⟩ := loose
  exact digits.fewer enough inside

section Shapes

open Foundation.Regex Regex

variable {m : List Nat}

/-- Two groups of digits side by side. -/
theorem six_of_groups {i j : Nat} {a between b : List Nat} (first : (digits (i + 1)).Spells a)
    (second : (digits (j + 1)).Spells b) (apart : between = [] ∨ ∃ s ∈ spaceOrHyphen, between = [s])
    (enough : 5 ≤ i + j + 1) (inside : a ++ between ++ b <:+: m) : LooseIn 5 m := by
  obtain ⟨long, digits_a⟩ := spells_exactly_set first
  obtain ⟨long', digits_b⟩ := spells_exactly_set second
  have loose := (loose_of_digits spaceOrHyphen (by rintro rfl; cases long) digits_a).append
    (loose_of_digits spaceOrHyphen (by rintro rfl; cases long') digits_b) apart
  exact loose.fewer (by omega) inside

theorem six_of_bsb (spells : bsbRule.pattern.body.Spells m) : LooseIn 5 m := by
  obtain ⟨-, -, rfl, ⟨a, -, first, ⟨s, -, hyphen, ⟨b, back, second, -, rfl⟩, rfl⟩, rfl⟩, rfl⟩ := spells
  obtain rfl := spells_one hyphen
  refine six_of_groups first second (.inr ⟨45, by decide, rfl⟩) (by omega) ⟨[], back, ?_⟩
  simp

theorem six_of_cardGroups (spells : cardGroupsRule.pattern.body.Spells m) : LooseIn 5 m := by
  obtain ⟨-, -, rfl, ⟨a, -, first, ⟨s, -, sep, ⟨b, back, second, -, rfl⟩, rfl⟩, rfl⟩, rfl⟩ := spells
  refine six_of_groups first second (.inr (spells_oneOf sep)) (by omega) ⟨[], back, ?_⟩
  simp

theorem six_of_cardExpress (spells : cardExpressRule.pattern.body.Spells m) : LooseIn 5 m := by
  obtain ⟨-, -, rfl, ⟨a, -, first, ⟨s, -, sep, ⟨b, back, second, -, rfl⟩, rfl⟩, rfl⟩, rfl⟩ := spells
  refine six_of_groups first second (.inr (spells_oneOf sep)) (by omega) ⟨[], back, ?_⟩
  simp

theorem six_of_cardRun (spells : cardRunRule.pattern.body.Spells m) : LooseIn 5 m := by
  obtain ⟨-, -, rfl, ⟨a, -, ⟨parts, least, -, all, rfl⟩, rfl, rfl⟩, rfl⟩ := spells
  obtain ⟨long, inside⟩ := spells_of_set all
  refine (loose_of_digits spaceOrHyphen ?_ inside).fewer (by omega) ⟨[], [], by simp⟩
  intro none
  rw [none] at long
  simp only [List.length_nil] at long
  omega

theorem six_of_phoneAbroad (spells : phoneAbroadRule.pattern.body.Spells m) : LooseIn 5 m := by
  obtain ⟨p, -, plus, ⟨a, -, -, ⟨s, -, -, ⟨d, -, digit, ⟨rest, -, separated, rfl, rfl⟩, rfl⟩, rfl⟩,
    rfl⟩, rfl⟩ := spells
  obtain rfl := spells_one plus
  obtain ⟨more, enough, loose⟩ := loose_of_separated ⟨d, rest, digit, separated, rfl⟩
  exact loose.fewer (by omega) ⟨[43] ++ a ++ s, [], by simp⟩

theorem six_of_phoneArea (spells : phoneAreaRule.pattern.body.Spells m) : LooseIn 5 m := by
  obtain ⟨p, -, -, ⟨a, -, -, ⟨c, -, -, ⟨s, -, -, ⟨g, -, first, ⟨t, -, sep, ⟨h, -, second, rfl, rfl⟩,
    rfl⟩, rfl⟩, rfl⟩, rfl⟩, rfl⟩, rfl⟩ := spells
  have apart : t = [] ∨ ∃ s ∈ spaceOrHyphen, t = [s] := (spells_optional sep).imp id spells_oneOf
  exact six_of_groups first second apart (by omega) ⟨p ++ a ++ c ++ s, [], by simp⟩

theorem six_of_phoneHome (spells : phoneHomeRule.pattern.body.Spells m) : LooseIn 5 m := by
  obtain ⟨-, -, rfl, ⟨z, -, zero, ⟨d, -, digit, ⟨rest, -, separated, rfl, rfl⟩, rfl⟩, rfl⟩, rfl⟩ := spells
  obtain ⟨more, enough, loose⟩ := loose_of_separated ⟨d, rest, digit, separated, rfl⟩
  exact loose.fewer (by omega) ⟨z, [], by simp⟩

theorem five_of_labelled {kind : RedactionKind} {label : Regex Nat} {hi : Nat}
    (spells : (labelledRule kind label hi).pattern.body.Spells m) : LooseIn 4 m := by
  obtain ⟨more, enough, loose⟩ := loose_of_separated spells
  exact loose.fewer enough (List.infix_refl _)

/-- The head of an account number that begins with a country: two capitals, two digits and eight
letters or digits, the groups of four apart by a space or not. -/
def IbanHead (text : List Nat) : Prop :=
  ∃ country check g₁ g₂ : List Nat, ∃ s₁ s₂ : List Nat, text = country ++ check ++ s₁ ++ g₁ ++ s₂ ++ g₂ ∧
    (country.length = 2 ∧ ∀ u ∈ country, isUpper u = true) ∧
    (check.length = 2 ∧ ∀ u ∈ check, isDigit u = true) ∧
    (g₁.length = 4 ∧ ∀ u ∈ g₁, isAlnum u = true) ∧ (g₂.length = 4 ∧ ∀ u ∈ g₂, isAlnum u = true) ∧
    (s₁ = [] ∨ s₁ = [32]) ∧ (s₂ = [] ∨ s₂ = [32])

theorem head_of_iban (spells : ibanRule.pattern.body.Spells m) :
    ∃ head, IbanHead head ∧ head <+: m := by
  obtain ⟨-, -, rfl, ⟨country, -, capitals, ⟨check, -, figures, ⟨groups, back, ⟨parts, least, -, all, rfl⟩,
    -, rfl⟩, rfl⟩, rfl⟩, rfl⟩ := spells
  match parts with
  | [] => simp at least
  | [_] => simp at least
  | p₁ :: p₂ :: parts =>
    have group : ∀ part ∈ p₁ :: p₂ :: parts, ∃ s g : List Nat, part = s ++ g ∧ (s = [] ∨ s = [32]) ∧
        g.length = 4 ∧ ∀ u ∈ g, isAlnum u = true := by
      intro part member
      obtain ⟨s, g, may, four, rfl⟩ := all part member
      exact ⟨s, g, rfl, (spells_optional may).imp id spells_one, spells_exactly_set four⟩
    obtain ⟨s₁, g₁, rfl, apart₁, four₁⟩ := group p₁ (by simp)
    obtain ⟨s₂, g₂, rfl, apart₂, four₂⟩ := group p₂ (by simp)
    refine ⟨country ++ check ++ s₁ ++ g₁ ++ s₂ ++ g₂, ⟨country, check, g₁, g₂, s₁, s₂, rfl,
      spells_exactly_set capitals, spells_exactly_set figures, four₁, four₂, apart₁, apart₂⟩,
      parts.flatten ++ back, by simp⟩

theorem at_of_email (spells : emailRule.pattern.body.Spells m) : 64 ∈ m := by
  have sign : emailRule.pattern.body.Needs fun u => u = 64 := by
    simp [emailRule, Regex.chain, Needs, Regex.one]
  obtain ⟨u, member, rfl⟩ := exists_of_needs sign spells
  exact member

/-- The rules between the account number of a country and the labelled numbers. -/
def digitRules : List Rule :=
  [bsbRule, cardGroupsRule, cardExpressRule, cardRunRule, phoneAbroadRule, phoneAreaRule,
    phoneHomeRule]

theorem six_of_digitRule {rule : Rule} (listed : rule ∈ digitRules)
    (spells : rule.pattern.body.Spells m) : LooseIn 5 m := by
  simp only [digitRules, List.mem_cons, List.not_mem_nil, or_false] at listed
  rcases listed with rfl | rfl | rfl | rfl | rfl | rfl | rfl
  · exact six_of_bsb spells
  · exact six_of_cardGroups spells
  · exact six_of_cardExpress spells
  · exact six_of_cardRun spells
  · exact six_of_phoneAbroad spells
  · exact six_of_phoneArea spells
  · exact six_of_phoneHome spells

theorem redactionRules_eq : redactionRules =
    emailRule :: ibanRule :: (digitRules ++ [accountLabelRule, idLabelRule]) := rfl

/-- What a match of the dictionary shows. -/
theorem shape_of_match {rule : Rule} (listed : rule ∈ redactionRules)
    (spells : rule.pattern.body.Spells m) :
    64 ∈ m ∨ (∃ head, IbanHead head ∧ head <+: m) ∨ LooseIn 4 m := by
  rw [redactionRules_eq, List.mem_cons, List.mem_cons, List.mem_append] at listed
  rcases listed with rfl | rfl | digits | labels
  · exact .inl (at_of_email spells)
  · exact .inr (.inl (head_of_iban spells))
  · exact .inr (.inr ((six_of_digitRule digits spells).mono (by decide)))
  · simp only [List.mem_cons, List.not_mem_nil, or_false] at labels
    rcases labels with rfl | rfl
    · exact .inr (.inr (five_of_labelled spells))
    · exact .inr (.inr (five_of_labelled spells))

end Shapes

end LedgerDesk.Gateway
