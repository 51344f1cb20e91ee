import LedgerDesk.Agents.Text

/-!
# Canonical values

`canonicalValue` writes a value without whitespace and its keys in scalar order. Two values
of one text differ in the order of their keys at most.
-/
namespace LedgerDesk.Access

open Agents (quoteChar)
open Foundation

/-- What `canonicalValue` takes without throwing, once its integers are safe and not negative. -/
inductive Value where
  | null
  | boolean (value : Bool)
  | text (value : String)
  | integer (value : Int)
  | array (items : List Value)
  | object (members : List (String × Value))
  deriving Repr

/-- Unicode scalar order. -/
def scalarOrder (a b : String) : Bool := decide (a.toList.map Char.toNat ≤ b.toList.map Char.toNat)

def quoted (text : String) : List Char := '"' :: text.toList.flatMap quoteChar ++ ['"']

def memberText (m : String × List Char) : List Char := quoted m.1 ++ ':' :: m.2

mutual

def canonicalChars : Value → List Char
  | .null => "null".toList
  | .boolean value => if value then "true".toList else "false".toList
  | .text value => quoted value
  | .integer value => (toString value).toList
  | .array items => '[' :: [','].intercalate (canonicalItems items) ++ [']']
  | .object members =>
    let texts := (canonicalMembers members).insertionSort fun a b => scalarOrder a.1 b.1
    '\x7b' :: [','].intercalate (texts.map memberText) ++ ['\x7d']

def canonicalItems : List Value → List (List Char)
  | [] => []
  | item :: items => canonicalChars item :: canonicalItems items

def canonicalMembers : List (String × Value) → List (String × List Char)
  | [] => []
  | (key, value) :: members => (key, canonicalChars value) :: canonicalMembers members

end

def canonicalValue (value : Value) : String := String.ofList (canonicalChars value)

/-! ### The order of the keys -/

mutual

/-- The value with the keys of every object in scalar order. -/
def Value.sorted : Value → Value
  | .array items => .array (sortedItems items)
  | .object members => .object ((sortedMembers members).insertionSort fun a b => scalarOrder a.1 b.1)
  | value => value

def Value.sortedItems : List Value → List Value
  | [] => []
  | item :: items => item.sorted :: sortedItems items

def Value.sortedMembers : List (String × Value) → List (String × Value)
  | [] => []
  | (key, value) :: members => (key, value.sorted) :: sortedMembers members

end

mutual

/-- The value as it stands, its keys in their own order. -/
def plainChars : Value → List Char
  | .null => "null".toList
  | .boolean value => if value then "true".toList else "false".toList
  | .text value => quoted value
  | .integer value => (toString value).toList
  | .array items => '[' :: [','].intercalate (plainItems items) ++ [']']
  | .object members => '\x7b' :: [','].intercalate (plainMembers members) ++ ['\x7d']

def plainItems : List Value → List (List Char)
  | [] => []
  | item :: items => plainChars item :: plainItems items

def plainMembers : List (String × Value) → List (List Char)
  | [] => []
  | (key, value) :: members => memberText (key, plainChars value) :: plainMembers members

end

/-! ### One text, one value -/

open JsonText in
/-- Strings quoted as in JSON, integers in decimal. -/
def tokens : JsonText.Tokens Int where
  quoted := quoted
  quoted_opens text := ⟨_, List.cons_append⟩
  quoted_told same := Agents.quote_told (by rw [Agents.quote_toList, Agents.quote_toList]; exact same)
  number value := (toString value).toList
  number_opens := Agents.integer_opens
  inNumber := Agents.inNumeral
  number_within := Agents.integer_inside
  number_closed c ending := by rcases ending with rfl | rfl | rfl <;> rfl
  number_injective := Agents.integer_injective

mutual

def Value.ofTree : JsonText.Tree Int → Value
  | .null => .null
  | .boolean value => .boolean value
  | .text value => .text value
  | .number value => .integer value
  | .array items => .array (ofItems items)
  | .object members => .object (ofMembers members)

def Value.ofItems : List (JsonText.Tree Int) → List Value
  | [] => []
  | item :: items => ofTree item :: ofItems items

def Value.ofMembers : List (String × JsonText.Tree Int) → List (String × Value)
  | [] => []
  | (key, value) :: members => (key, ofTree value) :: ofMembers members

end

theorem Value.ofMembers_eq_map (members : List (String × JsonText.Tree Int)) :
    ofMembers members = members.map fun m => (m.1, ofTree m.2) := by
  induction members with
  | nil => rw [ofMembers, List.map_nil]
  | cons m members ih =>
    obtain ⟨key, value⟩ := m
    rw [ofMembers, List.map_cons, ih]

mutual

theorem Value.exists_tree : ∀ value : Value, ∃ tree, ofTree tree = value
  | .null => ⟨.null, by rw [ofTree]⟩
  | .boolean value => ⟨.boolean value, by rw [ofTree]⟩
  | .text value => ⟨.text value, by rw [ofTree]⟩
  | .integer value => ⟨.number value, by rw [ofTree]⟩
  | .array items => by
    obtain ⟨trees, same⟩ := exists_items items
    exact ⟨.array trees, by rw [ofTree, same]⟩
  | .object members => by
    obtain ⟨trees, same⟩ := exists_members members
    exact ⟨.object trees, by rw [ofTree, same]⟩

theorem Value.exists_items : ∀ items : List Value, ∃ trees, ofItems trees = items
  | [] => ⟨[], by rw [ofItems]⟩
  | item :: items => by
    obtain ⟨tree, first⟩ := exists_tree item
    obtain ⟨trees, rest⟩ := exists_items items
    exact ⟨tree :: trees, by rw [ofItems, first, rest]⟩

theorem Value.exists_members : ∀ members : List (String × Value),
    ∃ trees, ofMembers trees = members
  | [] => ⟨[], by rw [ofMembers]⟩
  | (key, value) :: members => by
    obtain ⟨tree, first⟩ := exists_tree value
    obtain ⟨trees, rest⟩ := exists_members members
    exact ⟨(key, tree) :: trees, by rw [ofMembers, first, rest]⟩

end

mutual

theorem canonicalChars_ofTree : ∀ tree : JsonText.Tree Int,
    canonicalChars (.ofTree tree) = JsonText.canonical tokens scalarOrder tree
  | .null | .boolean _ | .text _ | .number _ => by
    simp [Value.ofTree, canonicalChars, JsonText.canonical, tokens]
  | .array items => by
    rw [Value.ofTree, canonicalChars, JsonText.canonical, canonicalItems_ofTree items]
  | .object members => by
    rw [Value.ofTree, canonicalChars, JsonText.canonical, canonicalMembers_ofTree members]
    rfl

theorem canonicalItems_ofTree : ∀ items : List (JsonText.Tree Int),
    canonicalItems (Value.ofItems items) = JsonText.canonicalItems tokens scalarOrder items
  | [] => by rw [Value.ofItems, canonicalItems, JsonText.canonicalItems]
  | item :: items => by
    rw [Value.ofItems, canonicalItems, JsonText.canonicalItems, canonicalChars_ofTree item,
      canonicalItems_ofTree items]

theorem canonicalMembers_ofTree : ∀ members : List (String × JsonText.Tree Int),
    canonicalMembers (Value.ofMembers members) = JsonText.canonicalMembers tokens scalarOrder members
  | [] => by rw [Value.ofMembers, canonicalMembers, JsonText.canonicalMembers]
  | (key, value) :: members => by
    rw [Value.ofMembers, canonicalMembers, JsonText.canonicalMembers, canonicalChars_ofTree value,
      canonicalMembers_ofTree members]

end

mutual

theorem sorted_ofTree : ∀ tree : JsonText.Tree Int,
    (Value.ofTree tree).sorted = .ofTree (tree.sorted scalarOrder)
  | .null | .boolean _ | .text _ | .number _ => by
    simp [Value.ofTree, Value.sorted, JsonText.Tree.sorted]
  | .array items => by
    rw [Value.ofTree, Value.sorted, JsonText.Tree.sorted, Value.ofTree, sortedItems_ofTree items]
  | .object members => by
    rw [Value.ofTree, Value.sorted, JsonText.Tree.sorted, Value.ofTree,
      sortedMembers_ofTree members, Value.ofMembers_eq_map, Value.ofMembers_eq_map]
    exact congrArg Value.object (List.map_insertionSort
      (fun a b : String × JsonText.Tree Int => scalarOrder a.1 b.1)
      (fun a b : String × Value => scalarOrder a.1 b.1) (fun m => (m.1, Value.ofTree m.2))
      (JsonText.Tree.sortedMembers scalarOrder members) (fun _ _ _ _ => Iff.rfl)).symm

theorem sortedItems_ofTree : ∀ items : List (JsonText.Tree Int),
    Value.sortedItems (Value.ofItems items) =
      Value.ofItems (JsonText.Tree.sortedItems scalarOrder items)
  | [] => by simp [Value.ofItems, Value.sortedItems, JsonText.Tree.sortedItems]
  | item :: items => by
    rw [Value.ofItems, Value.sortedItems, JsonText.Tree.sortedItems, Value.ofItems,
      sorted_ofTree item, sortedItems_ofTree items]

theorem sortedMembers_ofTree : ∀ members : List (String × JsonText.Tree Int),
    Value.sortedMembers (Value.ofMembers members) =
      Value.ofMembers (JsonText.Tree.sortedMembers scalarOrder members)
  | [] => by simp [Value.ofMembers, Value.sortedMembers, JsonText.Tree.sortedMembers]
  | (key, value) :: members => by
    rw [Value.ofMembers, Value.sortedMembers, JsonText.Tree.sortedMembers, Value.ofMembers,
      sorted_ofTree value, sortedMembers_ofTree members]

end

/-- Values of one canonical text differ in the order of their keys at most. -/
theorem sorted_of_canonicalValue {v w : Value} (same : canonicalValue v = canonicalValue w) :
    v.sorted = w.sorted := by
  obtain ⟨tree, rfl⟩ := v.exists_tree
  obtain ⟨tree', rfl⟩ := w.exists_tree
  rw [canonicalValue, canonicalValue, String.ofList_inj, canonicalChars_ofTree,
    canonicalChars_ofTree, JsonText.canonical_inj] at same
  rw [sorted_ofTree, sorted_ofTree, same]

/-! ### Objects of the same keys -/

theorem Value.sortedItems_eq_map (items : List Value) : sortedItems items = items.map sorted := by
  induction items with
  | nil => simp [sortedItems]
  | cons item items ih => simp [sortedItems, ih]

theorem Value.sortedMembers_eq_map (members : List (String × Value)) :
    sortedMembers members = members.map fun m => (m.1, m.2.sorted) := by
  induction members with
  | nil => simp [sortedMembers]
  | cons m members ih =>
    obtain ⟨key, value⟩ := m
    simp [sortedMembers, ih]

/-- Objects of the same distinct keys in the same order are told by their sorted values. -/
theorem members_of_sorted_object {l l' : List (String × Value)}
    (keys : l.map Prod.fst = l'.map Prod.fst) (distinct : (l.map Prod.fst).Nodup)
    (same : (Value.object l).sorted = (Value.object l').sorted) :
    (l.map fun m => (m.1, m.2.sorted)) = l'.map fun m => (m.1, m.2.sorted) := by
  simp only [Value.sorted, Value.object.injEq, Value.sortedMembers_eq_map] at same
  have firsts : ∀ k : List (String × Value),
      (k.map fun m => (m.1, m.2.sorted)).map Prod.fst = k.map Prod.fst := by
    intro k
    rw [List.map_map]
    rfl
  refine eq_of_same_keys (by rw [firsts, firsts, keys]) (by rwa [firsts]) fun m member => ?_
  rw [← List.mem_insertionSort (fun a b : String × Value => scalarOrder a.1 b.1 = true), ← same,
    List.mem_insertionSort]
  exact member

theorem items_of_sorted_array {items items' : List Value}
    (same : (Value.array items).sorted = (Value.array items').sorted) :
    items.map Value.sorted = items'.map Value.sorted := by
  simpa [Value.sorted, Value.sortedItems_eq_map] using same

end LedgerDesk.Access
