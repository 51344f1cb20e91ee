import LedgerDesk.Foundation.JsonReader

/-!
# Values

What a JSON text stands for. Numbers are those of the language: how they are read and printed is its
own, and what holds of the two is stated where they are introduced. Members of an object keep the order
they came in; `sorted` forgets it.
-/
namespace Foundation.JsonUnits

/-! ### Decimal digits -/

def decimal (digits : List Nat) : Nat := digits.foldl (fun n c => 10 * n + (c - 48)) 0

theorem decimal_append (digits : List Nat) (c : Nat) :
    decimal (digits ++ [c]) = 10 * decimal digits + (c - 48) := by
  rw [decimal, List.foldl_append]
  rfl

theorem units_digitChar {n : Nat} (small : n < 10) : n.digitChar.toNat = 48 + n := by
  interval_cases n <;> rfl

theorem indexUnits_eq (n : Nat) :
    indexUnits n = if n < 10 then [48 + n] else indexUnits (n / 10) ++ [48 + n % 10] := by
  have digits : ∀ n, indexUnits n = (Nat.toDigits 10 n).map Char.toNat := fun n => by
    rw [indexUnits, units]
    exact congrArg (List.map Char.toNat) Nat.toList_repr
  rw [digits, digits, Nat.toDigits_eq_if (by decide)]
  split
  · next small => rw [List.map_singleton, units_digitChar small]
  · rw [List.map_append, List.map_singleton, units_digitChar (Nat.mod_lt n (by decide))]

theorem indexUnits_small {n : Nat} (small : n < 10) : indexUnits n = [48 + n] := by
  rw [indexUnits_eq, if_pos small]

theorem indexUnits_large {n : Nat} (large : ¬n < 10) :
    indexUnits n = indexUnits (n / 10) ++ [48 + n % 10] := by
  rw [indexUnits_eq, if_neg large]

theorem decimal_indexUnits (n : Nat) : decimal (indexUnits n) = n := by
  induction n using Nat.strong_induction_on with
  | _ n ih =>
    by_cases small : n < 10
    · rw [indexUnits_small small]
      simp [decimal]
    · rw [indexUnits_large small, decimal_append, ih (n / 10) (by omega)]
      omega

theorem digits_indexUnits (n : Nat) : ∀ c ∈ indexUnits n, isDigit c = true := by
  induction n using Nat.strong_induction_on with
  | _ n ih =>
    have digit : ∀ k, k < 10 → isDigit (48 + k) = true := by
      intro k small
      simp only [isDigit, Bool.and_eq_true, decide_eq_true_eq]
      omega
    intro c member
    by_cases small : n < 10
    · rw [indexUnits_small small, List.mem_singleton] at member
      exact member ▸ digit n small
    · rw [indexUnits_large small, List.mem_append, List.mem_singleton] at member
      rcases member with front | rfl
      · exact ih (n / 10) (by omega) c front
      · exact digit _ (Nat.mod_lt n (by decide))

/-- No leading zero, unless the number is zero. -/
theorem indexUnits_opens (n : Nat) :
    ∃ c rest, indexUnits n = c :: rest ∧ (c = 48 → n = 0 ∧ rest = []) := by
  induction n using Nat.strong_induction_on with
  | _ n ih =>
    by_cases small : n < 10
    · exact ⟨48 + n, [], indexUnits_small small, fun zero => ⟨by omega, rfl⟩⟩
    · obtain ⟨c, rest, opened, zero⟩ := ih (n / 10) (by omega)
      refine ⟨c, rest ++ [48 + n % 10], by rw [indexUnits_large small, opened, List.cons_append], ?_⟩
      intro leading
      have none := (zero leading).1
      omega

theorem isInteger_indexUnits (n : Nat) : isInteger (indexUnits n) = true := by
  obtain ⟨c, rest, opened, zero⟩ := indexUnits_opens n
  have digits := digits_indexUnits n
  rw [opened] at digits ⊢
  rw [isInteger]
  split
  · next leading => simp [(zero leading).2]
  · simp only [Bool.and_eq_true, List.all_eq_true]
    exact ⟨digits c (List.mem_cons_self ..), fun d member => digits d (List.mem_cons_of_mem _ member)⟩

theorem digits_of_isInteger {text : List Nat} (integer : isInteger text = true) :
    ∀ c ∈ text, isDigit c = true := by
  cases text with
  | nil => simp
  | cons d ds =>
    rw [isInteger] at integer
    split at integer
    · next zero =>
      rw [List.isEmpty_iff.mp integer, zero]
      simp [isDigit]
    · obtain ⟨first, others⟩ := (Bool.and_eq_true ..).mp integer
      intro c member
      rcases List.mem_cons.mp member with rfl | member
      · exact first
      · exact List.all_eq_true.mp others c member

theorem isNumber_of_isInteger {text : List Nat} (integer : isInteger text = true) :
    isNumber text = true := by
  have digits := digits_of_isInteger integer
  have whole : text.takeWhile isDigit = text := List.takeWhile_eq_self_iff.mpr digits
  have left : text.dropWhile isDigit = [] := List.dropWhile_eq_nil_iff.mpr digits
  cases text with
  | nil => cases integer
  | cons c rest =>
    have unsigned : ¬c = '-'.toNat := by
      rintro rfl
      exact absurd (digits _ (List.mem_cons_self ..)) (by decide)
    simp only [isNumber, if_neg unsigned, whole, left, integer]
    rfl

/-! ### Numbers and values -/

/-- The largest integer below which every integer has its own number. -/
def maxSafe : Nat := 9007199254740991

/-- The numbers of the language, as they are read and printed. -/
structure Numbers (ν : Type) where
  /-- `Number(text)` of a numeral. -/
  ofText : List Nat → ν
  /-- `String(n)`. -/
  toText : ν → List Nat
  isFinite : ν → Bool
  /-- The safe integer a number is, unless it is negative or `-0`. -/
  natural : ν → Option Nat
  natural_safe : ∀ {n k}, natural n = some k → k ≤ maxSafe
  natural_injective : ∀ {m n k}, natural m = some k → natural n = some k → m = n
  natural_ofText : ∀ {text}, isInteger text = true →
    natural (ofText text) = if decimal text ≤ maxSafe then some (decimal text) else none
  natural_finite : ∀ {n k}, natural n = some k → isFinite n = true
  toText_natural : ∀ {n k}, natural n = some k → toText n = indexUnits k

/-- The safe integers, with every other number taken for one. -/
def Numbers.safe : Numbers (Option (Fin (maxSafe + 1))) where
  ofText text :=
    if small : isInteger text = true ∧ decimal text ≤ maxSafe then
      some ⟨decimal text, Nat.lt_succ_of_le small.2⟩
    else none
  toText n := match n with
    | some k => indexUnits k
    | none => units "NaN"
  isFinite n := n.isSome
  natural n := n.map Fin.val
  natural_safe := by
    rintro (_ | m) k natural
    · cases natural
    · cases natural
      exact Nat.le_of_lt_succ m.isLt
  natural_injective := by
    rintro (_ | m) (_ | n) k first second
    · cases first
    · cases first
    · cases second
    · exact congrArg some (Fin.ext (Option.some_inj.mp (first.trans second.symm)))
  natural_ofText := by
    intro text integer
    by_cases small : decimal text ≤ maxSafe <;> simp [integer, small]
  natural_finite := by
    rintro (_ | m) k natural
    · cases natural
    · rfl
  toText_natural := by
    rintro (_ | m) k natural
    · cases natural
    · cases natural
      rfl

inductive Value (ν : Type) where
  | null
  | boolean (value : Bool)
  | text (units : List Nat)
  | number (value : ν)
  | array (items : List (Value ν))
  | object (members : List (List Nat × Value ν))

section Values

variable {ν : Type} (N : Numbers ν)

mutual

/-- Every string of a value, the names of its members among them. -/
def Value.strings : Value ν → List (List Nat)
  | .text string => [string]
  | .array items => Value.stringsOfItems items
  | .object members => Value.stringsOfMembers members
  | _ => []

def Value.stringsOfItems : List (Value ν) → List (List Nat)
  | [] => []
  | item :: items => item.strings ++ stringsOfItems items

def Value.stringsOfMembers : List (List Nat × Value ν) → List (List Nat)
  | [] => []
  | (key, value) :: members => key :: value.strings ++ stringsOfMembers members

end

mutual

/-- How many containers the values deepest within a value are nested in. -/
def Value.height : Value ν → Nat
  | .array items => heightOfItems items
  | .object members => heightOfMembers members
  | _ => 0

def heightOfItems : List (Value ν) → Nat
  | [] => 0
  | item :: items => max (item.height + 1) (heightOfItems items)

def heightOfMembers : List (List Nat × Value ν) → Nat
  | [] => 0
  | (_, value) :: members => max (value.height + 1) (heightOfMembers members)

end

mutual

/-- An object has one member of a name. -/
def Value.OneOfAName : Value ν → Prop
  | .array items => OneOfANameItems items
  | .object members => (members.map Prod.fst).Nodup ∧ OneOfANameMembers members
  | _ => True

def OneOfANameItems : List (Value ν) → Prop
  | [] => True
  | item :: items => item.OneOfAName ∧ OneOfANameItems items

def OneOfANameMembers : List (List Nat × Value ν) → Prop
  | [] => True
  | (_, value) :: members => value.OneOfAName ∧ OneOfANameMembers members

end

theorem Numbers.ofText_natural {n : ν} {k : Nat} (natural : N.natural n = some k) :
    N.ofText (indexUnits k) = n := by
  have safe := N.natural_safe natural
  have back := N.natural_ofText (isInteger_indexUnits k)
  rw [decimal_indexUnits, if_pos safe] at back
  exact N.natural_injective back natural

mutual

/-- `JSON.parse`, once the text has been taken apart. -/
def Json.value : Json → Value ν
  | .null => .null
  | .boolean value => .boolean value
  | .text string => .text string
  | .number numeral => .number (N.ofText numeral.lexeme)
  | .array items => .array (valueItems items)
  | .object members => .object (valueMembers members)

def valueItems : List Json → List (Value ν)
  | [] => []
  | item :: items => item.value :: valueItems items

def valueMembers : List (List Nat × Json) → List (List Nat × Value ν)
  | [] => []
  | (key, value) :: members => (key, value.value) :: valueMembers members

end

theorem valueMembers_eq_map (members : List (List Nat × Json)) :
    valueMembers N members = members.map fun m => (m.1, m.2.value N) := by
  induction members with
  | nil => rfl
  | cons m members ih =>
    obtain ⟨key, value⟩ := m
    rw [valueMembers, ih, List.map_cons]

theorem valueItems_eq_map (items : List Json) :
    valueItems N items = items.map fun item => item.value N := by
  induction items with
  | nil => rfl
  | cons item items ih => rw [valueItems, ih, List.map_cons]

end Values

/-! ### Where the values of a text stand -/

/-- A value within another: the containers around it, and the keys and indices that lead to it. -/
structure Place where
  containers : Nat
  path : List (List Nat)
  json : Json

mutual

/-- Every value within a value, itself among them. -/
def Json.places (containers : Nat) (path : List (List Nat)) : Json → List Place
  | .array items => ⟨containers, path, .array items⟩ :: itemsPlaces containers path 0 items
  | .object members => ⟨containers, path, .object members⟩ :: membersPlaces containers path members
  | json => [⟨containers, path, json⟩]

def itemsPlaces (containers : Nat) (path : List (List Nat)) : Nat → List Json → List Place
  | _, [] => []
  | index, item :: items =>
    item.places (containers + 1) (path ++ [indexUnits index]) ++
      itemsPlaces containers path (index + 1) items

def membersPlaces (containers : Nat) (path : List (List Nat)) :
    List (List Nat × Json) → List Place
  | [] => []
  | (key, value) :: members =>
    value.places (containers + 1) (path ++ [key]) ++ membersPlaces containers path members

end

section Places

variable {H : Checks}

/-- The strings of a value itself, and not of what is within it. -/
def Place.strings (place : Place) : List (List Nat) :=
  match place.json with
  | .text string => [string]
  | .object members => members.map Prod.fst
  | _ => []

/-- The value passes the checks at a place, whatever is within it. -/
def Place.Passes (H : Checks) (place : Place) : Prop :=
  H.depth place.containers = true ∧
    match place.json with
    | .text string => H.string string = true
    | .number numeral => H.number place.path numeral.lexeme = true
    | .object members =>
      (∀ m ∈ members, H.string m.1 = true) ∧ (H.distinct = true → (members.map Prod.fst).Nodup)
    | _ => True

/-- No key of the members is a repetition, of an earlier one among them or of these. -/
def FreshKeys (H : Checks) (keys : List (List Nat)) (members : List (List Nat × Json)) : Prop :=
  H.distinct = true → (members.map Prod.fst).Nodup ∧ ∀ m ∈ members, m.1 ∉ keys

theorem mem_membersPlaces {members : List (List Nat × Json)} {containers : Nat}
    {path : List (List Nat)} {place : Place} :
    place ∈ membersPlaces containers path members ↔
      ∃ m ∈ members, place ∈ m.2.places (containers + 1) (path ++ [m.1]) := by
  induction members with
  | nil => simp [membersPlaces]
  | cons m members ih =>
    obtain ⟨key, value⟩ := m
    simp [membersPlaces, ih]

theorem mem_itemsPlaces {items : List Json} {containers index : Nat} {path : List (List Nat)}
    {place : Place} (member : place ∈ itemsPlaces containers path index items) :
    ∃ item ∈ items, ∃ path', place ∈ item.places (containers + 1) path' := by
  induction items generalizing index with
  | nil => cases member
  | cons item items ih =>
    rw [itemsPlaces, List.mem_append] at member
    rcases member with first | others
    · exact ⟨item, List.mem_cons_self .., _, first⟩
    · obtain ⟨item', among, path', there⟩ := ih others
      exact ⟨item', List.mem_cons_of_mem _ among, path', there⟩

mutual

theorem Json.fits_iff : ∀ (json : Json) (containers : Nat) (path : List (List Nat)),
    json.Fits H containers path ↔ ∀ place ∈ json.places containers path, place.Passes H
  | .null, containers, path => by simp [Json.Fits, Json.places, Place.Passes]
  | .boolean _, containers, path => by simp [Json.Fits, Json.places, Place.Passes]
  | .text _, containers, path => by simp [Json.Fits, Json.places, Place.Passes]
  | .number _, containers, path => by simp [Json.Fits, Json.places, Place.Passes]
  | .array items, containers, path => by
    rw [Json.Fits, Json.places, List.forall_mem_cons, itemsFit_iff items containers path 0]
    simp [Place.Passes]
  | .object members, containers, path => by
    rw [Json.Fits, Json.places, List.forall_mem_cons, membersFit_iff members containers path []]
    simp [Place.Passes, FreshKeys, and_assoc]

theorem itemsFit_iff : ∀ (items : List Json) (containers : Nat) (path : List (List Nat))
    (index : Nat), ItemsFit H containers path index items ↔
      ∀ place ∈ itemsPlaces containers path index items, place.Passes H
  | [], _, _, _ => by simp [ItemsFit, itemsPlaces]
  | item :: items, containers, path, index => by
    rw [ItemsFit, itemsPlaces, List.forall_mem_append, item.fits_iff, itemsFit_iff items]

theorem membersFit_iff : ∀ (members : List (List Nat × Json)) (containers : Nat)
    (path keys : List (List Nat)), MembersFit H containers path keys members ↔
      ((∀ m ∈ members, H.string m.1 = true) ∧ FreshKeys H keys members) ∧
        ∀ place ∈ membersPlaces containers path members, place.Passes H
  | [], _, _, _ => by simp [MembersFit, membersPlaces, FreshKeys]
  | (key, value) :: members, containers, path, keys => by
    rw [MembersFit, membersPlaces, List.forall_mem_append, value.fits_iff, membersFit_iff members]
    -- A key is fresh behind those before it exactly if those behind it differ from it.
    have fresh : FreshKeys H keys ((key, value) :: members) ↔
        (H.distinct = true → key ∉ keys) ∧ FreshKeys H (keys ++ [key]) members := by
      simp only [FreshKeys, List.map_cons, List.nodup_cons, List.forall_mem_cons, List.mem_append,
        List.mem_singleton, not_or, List.mem_map, not_exists, not_and]
      constructor
      · intro distinct
        refine ⟨fun checked => (distinct checked).2.1, fun checked => ?_⟩
        obtain ⟨⟨differ, nodup⟩, -, others⟩ := distinct checked
        exact ⟨nodup, fun m member => ⟨others m member, differ m member⟩⟩
      · rintro ⟨first, others⟩ checked
        obtain ⟨nodup, differ⟩ := others checked
        exact ⟨⟨fun m member => (differ m member).2, nodup⟩, first checked,
          fun m member => (differ m member).1⟩
    rw [fresh, List.forall_mem_cons]
    tauto

end

end Places

end Foundation.JsonUnits
