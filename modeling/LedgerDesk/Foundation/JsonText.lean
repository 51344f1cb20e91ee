import LedgerDesk.Foundation.Delimited

/-!
# Texts of trees

A tree is written without whitespace: its strings quoted, its arrays and objects bracketed,
their items separated by commas. What numbers are, how they and the strings are written, and
the order of the keys are parameters. Two trees of one text are one tree; of trees written with
their keys in order, that is so up to the order of the keys.
-/
namespace Foundation

namespace JsonText

variable {ν : Type*}

inductive Tree (ν : Type*) where
  | null
  | boolean (value : Bool)
  | text (value : String)
  | number (value : ν)
  | array (items : List (Tree ν))
  | object (members : List (String × Tree ν))

/-- What can follow a tree: nothing, a comma or a closing bracket. -/
def Ends (c : Char) : Prop := c = ',' ∨ c = ']' ∨ c = '\x7d'

/-- A number begins with a digit or with its sign. -/
def opensNumber (c : Char) : Bool := c.isDigit || c == '-'

/-- How strings and numbers are written, so that each can be told from what follows. -/
structure Tokens (ν : Type*) where
  quoted : String → List Char
  quoted_opens : ∀ s, ∃ tail, quoted s = '"' :: tail
  quoted_told : ∀ {s t rest rest'}, quoted s ++ rest = quoted t ++ rest' → s = t ∧ rest = rest'
  number : ν → List Char
  number_opens : ∀ n, ∃ c tail, number n = c :: tail ∧ opensNumber c = true
  inNumber : Char → Bool
  number_within : ∀ n, ∀ c ∈ number n, inNumber c = true
  number_closed : ∀ c, Ends c → inNumber c = false
  number_injective : ∀ m n, number m = number n → m = n

variable (tokens : Tokens ν) (order : String → String → Bool)

def memberText (m : String × List Char) : List Char := tokens.quoted m.1 ++ ':' :: m.2

mutual

/-- The tree as it stands, its keys in their own order. -/
def plain : Tree ν → List Char
  | .null => "null".toList
  | .boolean value => if value then "true".toList else "false".toList
  | .text value => tokens.quoted value
  | .number value => tokens.number value
  | .array items => '[' :: [','].intercalate (plainItems items) ++ [']']
  | .object members => '\x7b' :: [','].intercalate (plainMembers members) ++ ['\x7d']

def plainItems : List (Tree ν) → List (List Char)
  | [] => []
  | item :: items => plain item :: plainItems items

def plainMembers : List (String × Tree ν) → List (List Char)
  | [] => []
  | (key, value) :: members => memberText tokens (key, plain value) :: plainMembers members

end

mutual

/-- The text with the keys of every object in order. -/
def canonical : Tree ν → List Char
  | .null => "null".toList
  | .boolean value => if value then "true".toList else "false".toList
  | .text value => tokens.quoted value
  | .number value => tokens.number value
  | .array items => '[' :: [','].intercalate (canonicalItems items) ++ [']']
  | .object members =>
    let texts := (canonicalMembers members).insertionSort fun a b => order a.1 b.1
    '\x7b' :: [','].intercalate (texts.map (memberText tokens)) ++ ['\x7d']

def canonicalItems : List (Tree ν) → List (List Char)
  | [] => []
  | item :: items => canonical item :: canonicalItems items

def canonicalMembers : List (String × Tree ν) → List (String × List Char)
  | [] => []
  | (key, value) :: members => (key, canonical value) :: canonicalMembers members

end

mutual

/-- The tree with the keys of every object in order. -/
def Tree.sorted : Tree ν → Tree ν
  | .array items => .array (sortedItems items)
  | .object members => .object ((sortedMembers members).insertionSort fun a b => order a.1 b.1)
  | tree => tree

def Tree.sortedItems : List (Tree ν) → List (Tree ν)
  | [] => []
  | item :: items => item.sorted :: sortedItems items

def Tree.sortedMembers : List (String × Tree ν) → List (String × Tree ν)
  | [] => []
  | (key, value) :: members => (key, value.sorted) :: sortedMembers members

end

theorem plainItems_eq_map (items : List (Tree ν)) :
    plainItems tokens items = items.map (plain tokens) := by
  induction items with
  | nil => simp [plainItems]
  | cons item items ih => simp [plainItems, ih]

def plainMember (m : String × Tree ν) : List Char := memberText tokens (m.1, plain tokens m.2)

theorem plainMembers_eq_map (members : List (String × Tree ν)) :
    plainMembers tokens members = members.map (plainMember tokens) := by
  induction members with
  | nil => simp [plainMembers]
  | cons m members ih =>
    obtain ⟨key, value⟩ := m
    simp [plainMembers, plainMember, ih]

theorem sortedItems_eq_map (items : List (Tree ν)) :
    Tree.sortedItems order items = items.map (Tree.sorted order) := by
  induction items with
  | nil => simp [Tree.sortedItems]
  | cons item items ih => simp [Tree.sortedItems, ih]

theorem sortedMembers_eq_map (members : List (String × Tree ν)) :
    Tree.sortedMembers order members = members.map fun m => (m.1, m.2.sorted order) := by
  induction members with
  | nil => simp [Tree.sortedMembers]
  | cons m members ih =>
    obtain ⟨key, value⟩ := m
    simp [Tree.sortedMembers, ih]

/-! ### The order of the keys -/

mutual

/-- To sort the texts of the members is to write the sorted members. -/
theorem canonical_eq : ∀ tree : Tree ν,
    canonical tokens order tree = plain tokens (tree.sorted order)
  | .null | .boolean _ | .text _ | .number _ => by
    simp [canonical, Tree.sorted, plain]
  | .array items => by
    rw [canonical, Tree.sorted, plain, canonicalItems_eq items]
  | .object members => by
    rw [canonical, Tree.sorted, plain, canonicalMembers_eq members, plainMembers_eq_map]
    have commute := List.map_insertionSort (fun a b : String × Tree ν => order a.1 b.1)
      (fun a b : String × List Char => order a.1 b.1)
      (fun m : String × Tree ν => (m.1, plain tokens m.2)) (Tree.sortedMembers order members)
      (fun _ _ _ _ => Iff.rfl)
    rw [← commute, List.map_map]
    rfl

theorem canonicalItems_eq : ∀ items : List (Tree ν),
    canonicalItems tokens order items = plainItems tokens (Tree.sortedItems order items)
  | [] => by simp [canonicalItems, Tree.sortedItems, plainItems]
  | item :: items => by
    rw [canonicalItems, Tree.sortedItems, plainItems, canonical_eq item, canonicalItems_eq items]

theorem canonicalMembers_eq : ∀ members : List (String × Tree ν),
    canonicalMembers tokens order members =
      (Tree.sortedMembers order members).map fun m => (m.1, plain tokens m.2)
  | [] => by simp [canonicalMembers, Tree.sortedMembers]
  | (key, value) :: members => by
    rw [canonicalMembers, Tree.sortedMembers, List.map_cons, canonical_eq value,
      canonicalMembers_eq members]

end

/-! ### One text, one tree -/

def Tree.kind : Tree ν → Nat
  | .null => 0
  | .boolean _ => 1
  | .text _ => 2
  | .number _ => 3
  | .array _ => 4
  | .object _ => 5

/-- The kind of the trees whose text begins so; none is of kind 6. -/
def kindOf (c : Char) : Nat :=
  if c = 'n' then 0 else if c = 't' ∨ c = 'f' then 1 else if c = '"' then 2
  else if c = '[' then 4 else if c = '\x7b' then 5 else if opensNumber c then 3 else 6

theorem kindOf_opensNumber {c : Char} (opens : opensNumber c = true) : kindOf c = 3 := by
  have other : c ≠ 'n' ∧ c ≠ 't' ∧ c ≠ 'f' ∧ c ≠ '"' ∧ c ≠ '[' ∧ c ≠ '\x7b' := by
    refine ⟨?_, ?_, ?_, ?_, ?_, ?_⟩
    all_goals
      rintro rfl
      exact absurd opens (by decide)
  simp [kindOf, other, opens]

/-- The first character of a text tells what kind of tree it is of. -/
theorem plain_opens (tree : Tree ν) :
    ∃ c tail, plain tokens tree = c :: tail ∧ kindOf c = tree.kind := by
  cases tree with
  | null => exact ⟨'n', _, rfl, rfl⟩
  | boolean value => cases value <;> exact ⟨_, _, rfl, rfl⟩
  | text value =>
    obtain ⟨tail, text⟩ := tokens.quoted_opens value
    exact ⟨'"', tail, by rw [plain, text], rfl⟩
  | number value =>
    obtain ⟨c, tail, text, opens⟩ := tokens.number_opens value
    exact ⟨c, tail, by rw [plain, text], kindOf_opensNumber opens⟩
  | array items => exact ⟨'[', _, by rw [plain]; rfl, rfl⟩
  | object members => exact ⟨'\x7b', _, by rw [plain]; rfl, rfl⟩

theorem plain_not_closing {close : Char} (closing : Ends close) (tree : Tree ν) :
    ∃ c tail, plain tokens tree = c :: tail ∧ c ≠ close := by
  obtain ⟨c, tail, text, kind⟩ := plain_opens tokens tree
  refine ⟨c, tail, text, ?_⟩
  rintro rfl
  have outside : kindOf c = 6 := by rcases closing with rfl | rfl | rfl <;> rfl
  rw [outside] at kind
  cases tree <;> cases kind

theorem same_kind {v w : Tree ν} {rest rest' : List Char}
    (same : plain tokens v ++ rest = plain tokens w ++ rest') : v.kind = w.kind := by
  obtain ⟨c, tail, text_v, kind_v⟩ := plain_opens tokens v
  obtain ⟨d, tail', text_w, kind_w⟩ := plain_opens tokens w
  rw [text_v, text_w] at same
  simp only [List.cons_append, List.cons.injEq] at same
  rw [← kind_v, same.1, kind_w]

theorem plainMember_opens (m : String × Tree ν) :
    ∃ c tail, plainMember tokens m = c :: tail ∧ c ≠ '\x7d' := by
  obtain ⟨tail, text⟩ := tokens.quoted_opens m.1
  exact ⟨'"', _, by rw [plainMember, memberText, text]; rfl, by decide⟩

theorem plainMember_told {m : String × Tree ν} (told : Told Ends (plain tokens) m.2) :
    Told Ends (plainMember tokens) m := by
  intro m' rest rest' stops stops' same
  simp only [plainMember, memberText, List.append_assoc] at same
  obtain ⟨key, later⟩ := tokens.quoted_told same
  simp only [List.cons_append, List.cons.injEq, true_and] at later
  obtain ⟨value, rest_eq⟩ := told m'.2 rest rest' stops stops' later
  exact ⟨Prod.ext key value, rest_eq⟩

mutual

theorem plain_told : ∀ tree : Tree ν, Told Ends (plain tokens) tree
  | .null => by
    intro w rest rest' _ _ same
    have kind := same_kind tokens same
    cases w with
    | null => exact ⟨rfl, List.append_cancel_left same⟩
    | _ => cases kind
  | .boolean b => by
    intro w rest rest' _ _ same
    have kind := same_kind tokens same
    cases w with
    | boolean b' =>
      cases b <;> cases b'
      case false.false => exact ⟨rfl, List.append_cancel_left same⟩
      case true.true => exact ⟨rfl, List.append_cancel_left same⟩
      all_goals simp [plain] at same
    | _ => cases kind
  | .text s => by
    intro w rest rest' _ _ same
    have kind := same_kind tokens same
    cases w with
    | text s' =>
      simp only [plain] at same
      obtain ⟨rfl, later⟩ := tokens.quoted_told same
      exact ⟨rfl, later⟩
    | _ => cases kind
  | .number n => by
    intro w rest rest' stops stops' same
    have kind := same_kind tokens same
    cases w with
    | number n' =>
      -- a number goes on as far as its characters do
      have numeral : Told Ends tokens.number n :=
        told_of_inside tokens.inNumber tokens.number_within tokens.number_closed
          tokens.number_injective n
      simp only [plain] at same
      obtain ⟨rfl, later⟩ := numeral n' rest rest' stops stops' same
      exact ⟨rfl, later⟩
    | _ => cases kind
  | .array items => by
    intro w rest rest' _ _ same
    have kind := same_kind tokens same
    cases w with
    | array items' =>
      simp only [plain, plainItems_eq_map, List.cons_append, List.append_assoc,
        List.cons.injEq, true_and] at same
      have comma : Ends ',' := .inl rfl
      have bracket : Ends ']' := .inr (.inl rfl)
      obtain ⟨rfl, later⟩ := list_told comma bracket (by decide)
        (plain_not_closing tokens (.inr (.inl rfl))) (plainItems_told items) same
      exact ⟨rfl, later⟩
    | _ => cases kind
  | .object members => by
    intro w rest rest' _ _ same
    have kind := same_kind tokens same
    cases w with
    | object members' =>
      simp only [plain, plainMembers_eq_map, List.cons_append, List.append_assoc,
        List.cons.injEq, true_and] at same
      have comma : Ends ',' := .inl rfl
      have brace : Ends '\x7d' := .inr (.inr rfl)
      obtain ⟨rfl, later⟩ := list_told comma brace (by decide) (plainMember_opens tokens)
        (fun m member => plainMember_told tokens (plainMembers_told members m member)) same
      exact ⟨rfl, later⟩
    | _ => cases kind

theorem plainItems_told : ∀ (items : List (Tree ν)), ∀ item ∈ items,
    Told Ends (plain tokens) item
  | [] => nofun
  | item :: items => by
    intro v member
    rcases List.mem_cons.mp member with first | later
    · rw [first]
      exact plain_told item
    · exact plainItems_told items v later

theorem plainMembers_told : ∀ (members : List (String × Tree ν)), ∀ m ∈ members,
    Told Ends (plain tokens) m.2
  | [] => nofun
  | (key, value) :: members => by
    intro m member
    rcases List.mem_cons.mp member with first | later
    · rw [first]
      exact plain_told value
    · exact plainMembers_told members m later

end

/-- Followed by what cannot belong to a tree, one text is of one tree up to the order of its keys. -/
theorem canonical_told {v w : Tree ν} {rest rest' : List Char} (stops : Stops Ends rest)
    (stops' : Stops Ends rest')
    (same : canonical tokens order v ++ rest = canonical tokens order w ++ rest') :
    v.sorted order = w.sorted order ∧ rest = rest' := by
  rw [canonical_eq, canonical_eq] at same
  exact plain_told tokens (v.sorted order) (w.sorted order) rest rest' stops stops' same

theorem canonical_inj {v w : Tree ν} :
    canonical tokens order v = canonical tokens order w ↔ v.sorted order = w.sorted order := by
  constructor
  · intro same
    have closed : canonical tokens order v ++ [] = canonical tokens order w ++ [] := by rw [same]
    exact (canonical_told tokens order stops_nil stops_nil closed).1
  · intro same
    rw [canonical_eq, canonical_eq, same]

end JsonText

/-- Members of the same distinct keys in the same order, each of them among the others. -/
theorem eq_of_same_keys {κ β : Type*} {l l' : List (κ × β)}
    (keys : l.map Prod.fst = l'.map Prod.fst) (distinct : (l.map Prod.fst).Nodup)
    (members : ∀ m ∈ l, m ∈ l') : l = l' := by
  induction l generalizing l' with
  | nil =>
    cases l' with
    | nil => rfl
    | cons m l' => cases keys
  | cons m l ih =>
    cases l' with
    | nil => cases keys
    | cons m' l' =>
      simp only [List.map_cons, List.cons.injEq] at keys
      simp only [List.map_cons, List.nodup_cons] at distinct
      have head : m = m' := by
        rcases List.mem_cons.mp (members m (by simp)) with same | later
        · exact same
        · have key : m.1 ∈ l'.map Prod.fst := List.mem_map_of_mem later
          rw [← keys.2] at key
          exact absurd key distinct.1
      subst head
      have tail : l = l' := by
        refine ih keys.2 distinct.2 fun n member => ?_
        rcases List.mem_cons.mp (members n (by simp [member])) with rfl | later
        · exact absurd (List.mem_map_of_mem member) distinct.1
        · exact later
      rw [tail]

end Foundation
