import LedgerDesk.Contracts.Scalars
import LedgerDesk.Foundation.JsonText

/-!
# Retention

A JSON value is kept as a tree of tagged objects, and made again from one. What is kept has no bound on
its width; what is made again has, on arrays and on objects, so that a value comes back exactly if none of
its containers has more entries than that. Whatever tree is made into a value is the one kept of it, up to
the order of entries.
-/
namespace LedgerDesk.Contracts

open Foundation Foundation.JsonUnits Foundation.Surrogates

/-! ### Numbers and objects of the language -/

/-- Numbers that come back from their text, `-0` told from `0`. -/
structure PrintedNumbers (ν : Type) extends Numbers ν where
  /-- `-0`. -/
  negativeZero : ν
  negativeZero_finite : isFinite negativeZero = true
  /-- `Number('-0')`. -/
  ofText_negativeZero : ofText (units "-0") = negativeZero
  /-- `Number(String(n))`. -/
  ofText_toText : ∀ {n}, isFinite n = true → n ≠ negativeZero → ofText (toText n) = n
  toText_short : ∀ {n}, isFinite n = true → (toText n).length ≤ 64
  toText_ascii : ∀ n, ∀ c ∈ toText n, c < 128

/-- The place of an array index among the keys of an object. -/
def arrayIndex (key : List Nat) : Option Nat :=
  if isInteger key = true ∧ decimal key < 4294967295 then some (decimal key) else none

/-- The members of an object in the order the language gives them: array indices first, by size, the
others as they came. -/
def ownOrder {α : Type} (members : List (List Nat × α)) : List (List Nat × α) :=
  ((members.filter fun m => (arrayIndex m.1).isSome).insertionSort fun a b =>
    decide (decimal a.1 ≤ decimal b.1)) ++ members.filter fun m => (arrayIndex m.1).isNone

/-- `{kind:'null'}|{kind:'boolean';…}|…`. -/
inductive Retained where
  | null
  | boolean (value : Bool)
  | string (value : List Nat)
  | number (value : List Nat)
  | array (items : List Retained)
  | object (entries : List (List Nat × Retained))

section Shapes

variable {ν : Type}

/-- The member of a name. -/
def field (members : List (List Nat × Value ν)) (name : List Nat) : Option (Value ν) :=
  (members.find? fun m => m.1 == name).map Prod.snd

/-- `closed(required)`: these members and no others. -/
def closed (required : List (List Nat × (Value ν → Bool))) : Value ν → Bool
  | .object members =>
    (required.all fun rule => (field members rule.1).any rule.2) &&
      members.all fun m => required.any fun rule => rule.1 == m.1
  | _ => false

/-- `choice(…)` of one text. -/
def isText (text : String) : Value ν → Bool
  | .text value => value == units text
  | _ => false

def isBoolean : Value ν → Bool
  | .boolean _ => true
  | _ => false

/-- `text(max)`, with any length without a bound. -/
def isScalar (bound : Option Nat) : Value ν → Bool
  | .text value => scalarText value && bound.all fun most => decide (value.length ≤ most)
  | _ => false

/-- `array(item,max)`. -/
def isArray (item : Value ν → Bool) (most : Nat) : Value ν → Bool
  | .array items => decide (items.length ≤ most) && items.all item
  | _ => false

def isEntry : Value ν → Bool :=
  closed [(units "key", isScalar none), (units "value", fun _ => true)]

/-- An array or an object has no more entries than this. -/
def mostEntries : Nat := 100000

def entryKey : Value ν → List Nat
  | .object members =>
    match field members (units "key") with
    | some (.text key) => key
    | _ => []
  | _ => []

def entryValue : Value ν → Value ν
  | .object members => (field members (units "value")).getD .null
  | _ => .null

/-! ### What a shape says of an object -/

/-- The object has these members and no others. -/
def Exactly (members wanted : List (List Nat × Value ν)) : Prop :=
  (∀ m ∈ wanted, field members m.1 = some m.2) ∧ ∀ m ∈ members, m.1 ∈ wanted.map Prod.fst

theorem exactly_one {members : List (List Nat × Value ν)} {a : List Nat} {x : Value ν} :
    Exactly members [(a, x)] ↔ field members a = some x ∧ ∀ m ∈ members, m.1 = a := by
  simp [Exactly]

theorem exactly_two {members : List (List Nat × Value ν)} {a b : List Nat} {x y : Value ν} :
    Exactly members [(a, x), (b, y)] ↔ (field members a = some x ∧ field members b = some y) ∧
      ∀ m ∈ members, m.1 = a ∨ m.1 = b := by
  simp [Exactly]

theorem closed_one {members : List (List Nat × Value ν)} {a : List Nat} {p : Value ν → Bool} :
    closed [(a, p)] (.object members) = true ↔ ∃ x, Exactly members [(a, x)] ∧ p x = true := by
  simp only [closed, exactly_one, List.all_cons, List.all_nil, Bool.and_true, Bool.and_eq_true,
    Option.any_eq_true, List.all_eq_true, List.any_cons, List.any_nil, Bool.or_false, beq_iff_eq]
  constructor
  · rintro ⟨⟨x, there, passes⟩, names⟩
    exact ⟨x, ⟨there, fun m member => (names m member).symm⟩, passes⟩
  · rintro ⟨x, ⟨there, names⟩, passes⟩
    exact ⟨⟨x, there, passes⟩, fun m member => (names m member).symm⟩

theorem closed_two {members : List (List Nat × Value ν)} {a b : List Nat} {p q : Value ν → Bool} :
    closed [(a, p), (b, q)] (.object members) = true ↔
      ∃ x y, Exactly members [(a, x), (b, y)] ∧ p x = true ∧ q y = true := by
  simp only [closed, exactly_two, List.all_cons, List.all_nil, Bool.and_true, Bool.and_eq_true,
    Option.any_eq_true, List.all_eq_true, List.any_cons, List.any_nil, Bool.or_false, beq_iff_eq,
    Bool.or_eq_true]
  constructor
  · rintro ⟨⟨⟨x, first, passes⟩, y, second, passes'⟩, names⟩
    exact ⟨x, y, ⟨⟨first, second⟩, fun m member => (names m member).imp Eq.symm Eq.symm⟩, passes,
      passes'⟩
  · rintro ⟨x, y, ⟨⟨first, second⟩, names⟩, passes, passes'⟩
    exact ⟨⟨⟨x, first, passes⟩, y, second, passes'⟩,
      fun m member => (names m member).imp Eq.symm Eq.symm⟩

/-- An object of another kind has not this shape. -/
theorem not_closed {members : List (List Nat × Value ν)} {kind other : String}
    {others : List (List Nat × (Value ν → Bool))}
    (known : field members (units "kind") = some (.text (units kind)))
    (differs : units kind ≠ units other) :
    closed ((units "kind", isText other) :: others) (.object members) = false := by
  simp [closed, known, isText, differs]

theorem isText_iff {text : String} {v : Value ν} : isText text v = true ↔ v = .text (units text) := by
  cases v <;> simp [isText]

theorem isBoolean_iff {v : Value ν} : isBoolean v = true ↔ ∃ b, v = .boolean b := by
  cases v <;> simp [isBoolean]

theorem isScalar_iff {bound : Option Nat} {v : Value ν} : isScalar bound v = true ↔
    ∃ s, v = .text s ∧ scalarText s = true ∧ ∀ most, bound = some most → s.length ≤ most := by
  constructor
  · intro scalar
    cases v with
    | text s =>
      obtain ⟨passes, short⟩ := (Bool.and_eq_true ..).mp scalar
      refine ⟨s, rfl, passes, ?_⟩
      rintro most rfl
      exact of_decide_eq_true short
    | _ => cases scalar
  · rintro ⟨s, rfl, passes, short⟩
    cases bound with
    | none => simp [isScalar, passes]
    | some most => simp [isScalar, passes, short most rfl]

theorem isArray_iff {item : Value ν → Bool} {most : Nat} {v : Value ν} : isArray item most v = true ↔
    ∃ items, v = .array items ∧ items.length ≤ most ∧ ∀ i ∈ items, item i = true := by
  cases v <;> simp [isArray]

/-- An entry of an object that is kept. -/
def EntryOf (e : Value ν) (pair : List Nat × Value ν) : Prop :=
  (∃ members, e = .object members ∧
    Exactly members [(units "key", .text pair.1), (units "value", pair.2)]) ∧ scalarText pair.1 = true

theorem isEntry_iff {e : Value ν} : isEntry e = true ↔ EntryOf e (entryKey e, entryValue e) := by
  constructor
  · intro entry
    cases e with
    | object members =>
      obtain ⟨x, y, form, key, -⟩ := closed_two.mp entry
      obtain ⟨s, rfl, scalar, -⟩ := isScalar_iff.mp key
      obtain ⟨⟨there, value_there⟩, -⟩ := exactly_two.mp form
      simp only [EntryOf, entryKey, entryValue, there, value_there, Option.getD_some]
      exact ⟨⟨members, rfl, form⟩, scalar⟩
    | _ => cases entry
  · rintro ⟨⟨members, rfl, form⟩, scalar⟩
    exact closed_two.mpr ⟨_, _, form, isScalar_iff.mpr ⟨_, rfl, scalar, by simp⟩, rfl⟩

theorem EntryOf.told {e : Value ν} {pair : List Nat × Value ν} (entry : EntryOf e pair) :
    entryKey e = pair.1 ∧ entryValue e = pair.2 := by
  obtain ⟨⟨members, rfl, form⟩, -⟩ := entry
  obtain ⟨⟨key, value⟩, -⟩ := exactly_two.mp form
  simp [entryKey, entryValue, key, value]

/-- The pairs that entries are the entries of. -/
theorem entries_iff {entries : List (Value ν)} {pairs : List (List Nat × Value ν)} :
    List.Forall₂ EntryOf entries pairs ↔ (∀ e ∈ entries, isEntry e = true) ∧
      pairs = entries.map fun e => (entryKey e, entryValue e) := by
  induction entries generalizing pairs with
  | nil => cases pairs <;> simp
  | cons e entries ih =>
    rw [List.forall₂_cons_left_iff, List.forall_mem_cons, List.map_cons]
    constructor
    · rintro ⟨pair, others, first, later, rfl⟩
      obtain ⟨key, value⟩ := first.told
      obtain ⟨all, rfl⟩ := ih.mp later
      refine ⟨⟨isEntry_iff.mpr ?_, all⟩, by rw [key, value]⟩
      rw [key, value]
      exact first
    · rintro ⟨⟨first, all⟩, rfl⟩
      exact ⟨_, _, isEntry_iff.mp first, ih.mpr ⟨all, rfl⟩, rfl⟩

theorem Exactly.first {members : List (List Nat × Value ν)} {m : List Nat × Value ν}
    {others : List (List Nat × Value ν)} (form : Exactly members (m :: others)) :
    field members m.1 = some m.2 := form.1 m (List.mem_cons_self ..)

theorem Exactly.second {members : List (List Nat × Value ν)} {m n : List Nat × Value ν}
    (form : Exactly members [m, n]) : field members n.1 = some n.2 := form.1 n (by simp)

end Shapes

section Retention

variable {ν : Type} [DecidableEq ν] (N : PrintedNumbers ν)

/-- `Object.is(n,-0)?'-0':String(n)`. -/
def numberText (n : ν) : List Nat := if n = N.negativeZero then units "-0" else N.toText n

/-! ### Keeping -/

mutual

def retain (depth : Nat) : Value ν → Option Retained
  | .null => if depth > 12 then none else some .null
  | .boolean value => if depth > 12 then none else some (.boolean value)
  | .text value =>
    if depth > 12 then none
    else if scalarText value then some (.string value)
    else none
  | .number n =>
    if depth > 12 then none
    else if N.isFinite n then some (.number (numberText N n))
    else none
  | .array items =>
    if depth > 12 then none else (retainItems (depth + 1) items).map .array
  | .object members =>
    if depth > 12 then none
    else if members.all fun m => scalarText m.1 then
      (retainMembers (depth + 1) members).map .object
    else none

def retainItems (depth : Nat) : List (Value ν) → Option (List Retained)
  | [] => some []
  | item :: items => do
    let first ← retain depth item
    let others ← retainItems depth items
    return first :: others

def retainMembers (depth : Nat) : List (List Nat × Value ν) → Option (List (List Nat × Retained))
  | [] => some []
  | (key, value) :: members => do
    let first ← retain depth value
    let others ← retainMembers depth members
    return (key, first) :: others

end

/-! ### Making again -/

def restore (depth : Nat) (value : Value ν) : Option (Value ν) :=
  if depth > 12 then none
  else
    match value with
    | .object members =>
      if closed [(units "kind", isText "null")] value then some .null
      else if closed [(units "kind", isText "boolean"), (units "value", isBoolean)] value then
        field members (units "value")
      else if closed [(units "kind", isText "string"), (units "value", isScalar none)] value then
        field members (units "value")
      else if closed [(units "kind", isText "number"), (units "value", isScalar (some 64))] value then
        match field members (units "value") with
        | some (.text text) =>
          let n := N.ofText text
          if N.isFinite n = true ∧ numberText N n = text then some (.number n) else none
        | _ => none
      else if closed [(units "kind", isText "array"),
          (units "items", isArray (fun _ => true) mostEntries)] value then
        match field members (units "items") with
        | some (.array items) => (items.mapM (restore (depth + 1))).map .array
        | _ => none
      else if closed [(units "kind", isText "object"),
          (units "entries", isArray isEntry mostEntries)] value then
        match field members (units "entries") with
        | some (.array entries) =>
          if (entries.map entryKey).Nodup then
            (entries.mapM fun e => (restore (depth + 1) (entryValue e)).map fun v => (entryKey e, v)).map
              fun members => .object (ownOrder members)
          else none
        | _ => none
      else none
    | _ => none
  termination_by 13 - depth

/-! ### What is made of a tree -/

/-- What is made of an object, by its kind. -/
inductive Restored (depth : Nat) (members : List (List Nat × Value ν)) : Value ν → Prop
  | null (form : Exactly members [(units "kind", .text (units "null"))]) :
      Restored depth members .null
  | boolean (value : Bool) (form : Exactly members
      [(units "kind", .text (units "boolean")), (units "value", .boolean value)]) :
      Restored depth members (.boolean value)
  | string (text : List Nat) (form : Exactly members
      [(units "kind", .text (units "string")), (units "value", .text text)])
      (scalar : scalarText text = true) : Restored depth members (.text text)
  | number (text : List Nat) (form : Exactly members
      [(units "kind", .text (units "number")), (units "value", .text text)])
      (scalar : scalarText text = true) (short : text.length ≤ 64)
      (finite : N.isFinite (N.ofText text) = true) (printed : numberText N (N.ofText text) = text) :
      Restored depth members (.number (N.ofText text))
  | array (items values : List (Value ν)) (form : Exactly members
      [(units "kind", .text (units "array")), (units "items", .array items)])
      (short : items.length ≤ mostEntries)
      (each : List.Forall₂ (fun item value => restore N (depth + 1) item = some value) items values) :
      Restored depth members (.array values)
  | object (entries : List (Value ν)) (pairs values : List (List Nat × Value ν)) (form : Exactly members
      [(units "kind", .text (units "object")), (units "entries", .array entries)])
      (short : entries.length ≤ mostEntries) (are : List.Forall₂ EntryOf entries pairs)
      (distinct : (pairs.map Prod.fst).Nodup)
      (each : List.Forall₂ (fun pair m => m.1 = pair.1 ∧ restore N (depth + 1) pair.2 = some m.2)
        pairs values) :
      Restored depth members (.object (ownOrder values))

variable {N}

theorem mapM_option {α β : Type} {f : α → Option β} {as : List α} {bs : List β} :
    as.mapM f = some bs ↔ List.Forall₂ (fun a b => f a = some b) as bs := by
  induction as generalizing bs with
  | nil => cases bs <;> simp
  | cons a as ih =>
    rw [List.mapM_cons, Option.bind_eq_bind, Option.bind_eq_some_iff, List.forall₂_cons_left_iff]
    constructor
    · rintro ⟨b, first, later⟩
      obtain ⟨bs', others, done⟩ := Option.bind_eq_some_iff.mp later
      cases done
      exact ⟨b, bs', first, ih.mp others, rfl⟩
    · rintro ⟨b, bs', first, others, rfl⟩
      exact ⟨b, first, Option.bind_eq_some_iff.mpr ⟨bs', ih.mpr others, rfl⟩⟩

theorem restored_of_restore {depth : Nat} {members : List (List Nat × Value ν)} {v : Value ν}
    (restored : restore N depth (.object members) = some v) : ¬depth > 12 ∧ Restored N depth members v := by
  rw [restore] at restored
  split at restored
  · cases restored
  next shallow =>
  refine ⟨shallow, ?_⟩
  simp only at restored
  split at restored
  · next shape =>
    obtain ⟨x, form, kind⟩ := closed_one.mp shape
    obtain rfl := isText_iff.mp kind
    cases restored
    exact .null form
  split at restored
  · next shape =>
    obtain ⟨x, y, form, kind, value⟩ := closed_two.mp shape
    obtain rfl := isText_iff.mp kind
    obtain ⟨b, rfl⟩ := isBoolean_iff.mp value
    have same := form.second
    rw [restored] at same
    cases same
    exact .boolean b form
  split at restored
  · next shape =>
    obtain ⟨x, y, form, kind, value⟩ := closed_two.mp shape
    obtain rfl := isText_iff.mp kind
    obtain ⟨text, rfl, scalar, -⟩ := isScalar_iff.mp value
    have same := form.second
    rw [restored] at same
    cases same
    exact .string text form scalar
  split at restored
  · next shape =>
    obtain ⟨x, y, form, kind, value⟩ := closed_two.mp shape
    obtain rfl := isText_iff.mp kind
    obtain ⟨text, rfl, scalar, short⟩ := isScalar_iff.mp value
    simp only [form.second] at restored
    split at restored
    · next printed =>
      cases restored
      exact .number text form scalar (short 64 rfl) printed.1 printed.2
    · cases restored
  split at restored
  · next shape =>
    obtain ⟨x, y, form, kind, value⟩ := closed_two.mp shape
    obtain rfl := isText_iff.mp kind
    obtain ⟨items, rfl, short, -⟩ := isArray_iff.mp value
    simp only [form.second] at restored
    obtain ⟨values, each, rfl⟩ := Option.map_eq_some_iff.mp restored
    exact .array items values form short (mapM_option.mp each)
  split at restored
  · next shape =>
    obtain ⟨x, y, form, kind, value⟩ := closed_two.mp shape
    obtain rfl := isText_iff.mp kind
    obtain ⟨entries, rfl, short, all⟩ := isArray_iff.mp value
    simp only [form.second] at restored
    split at restored
    · next distinct =>
      obtain ⟨values, each, rfl⟩ := Option.map_eq_some_iff.mp restored
      have same : List.Forall₂ (fun pair m => m.1 = pair.1 ∧ restore N (depth + 1) pair.2 = some m.2)
          (entries.map fun e => (entryKey e, entryValue e)) values := by
        rw [List.forall₂_map_left_iff]
        refine (mapM_option.mp each).imp fun e m made => ?_
        obtain ⟨w, again, rfl⟩ := Option.map_eq_some_iff.mp made
        exact ⟨rfl, again⟩
      refine .object entries _ values form short (entries_iff.mpr ⟨all, rfl⟩) ?_ same
      rwa [List.map_map]
    · cases restored
  · cases restored

theorem forall₂_entries {depth : Nat} {pairs values : List (List Nat × Value ν)}
    (each : List.Forall₂ (fun pair m => m.1 = pair.1 ∧ restore N (depth + 1) pair.2 = some m.2)
      pairs values) : values.map Prod.fst = pairs.map Prod.fst := by
  induction each with
  | nil => rfl
  | cons first _ ih => rw [List.map_cons, List.map_cons, ih, first.1]

theorem restore_of_restored {depth : Nat} {members : List (List Nat × Value ν)} {v : Value ν}
    (shallow : ¬depth > 12) (restored : Restored N depth members v) :
    restore N depth (.object members) = some v := by
  rw [restore, if_neg shallow]
  simp only
  cases restored with
  | null form =>
    rw [if_pos (closed_one.mpr ⟨_, form, isText_iff.mpr rfl⟩)]
  | boolean b form =>
    rw [not_closed form.first (by decide), if_neg (by decide),
      if_pos (closed_two.mpr ⟨_, _, form, isText_iff.mpr rfl, isBoolean_iff.mpr ⟨b, rfl⟩⟩)]
    exact form.second
  | string text form scalar =>
    rw [not_closed form.first (by decide), if_neg (by decide), not_closed form.first (by decide),
      if_neg (by decide), if_pos (closed_two.mpr ⟨_, _, form, isText_iff.mpr rfl,
        isScalar_iff.mpr ⟨text, rfl, scalar, by simp⟩⟩)]
    exact form.second
  | number text form scalar short finite printed =>
    have bounded : ∀ most, some 64 = some most → text.length ≤ most := by
      rintro most ⟨⟩
      exact short
    rw [not_closed form.first (by decide), if_neg (by decide), not_closed form.first (by decide),
      if_neg (by decide), not_closed form.first (by decide), if_neg (by decide),
      if_pos (closed_two.mpr ⟨_, _, form, isText_iff.mpr rfl,
        isScalar_iff.mpr ⟨text, rfl, scalar, bounded⟩⟩)]
    simp only [form.second, if_pos (And.intro finite printed)]
  | array items values form short each =>
    rw [not_closed form.first (by decide), if_neg (by decide), not_closed form.first (by decide),
      if_neg (by decide), not_closed form.first (by decide), if_neg (by decide),
      not_closed form.first (by decide), if_neg (by decide),
      if_pos (closed_two.mpr ⟨_, _, form, isText_iff.mpr rfl,
        isArray_iff.mpr ⟨items, rfl, short, by simp⟩⟩)]
    simp only [form.second, mapM_option.mpr each, Option.map_some]
  | object entries pairs values form short are distinct each =>
    obtain ⟨all, rfl⟩ := entries_iff.mp are
    rw [not_closed form.first (by decide), if_neg (by decide), not_closed form.first (by decide),
      if_neg (by decide), not_closed form.first (by decide), if_neg (by decide),
      not_closed form.first (by decide), if_neg (by decide), not_closed form.first (by decide),
      if_neg (by decide), if_pos (closed_two.mpr ⟨_, _, form, isText_iff.mpr rfl,
        isArray_iff.mpr ⟨entries, rfl, short, all⟩⟩)]
    rw [List.map_map] at distinct
    have distinct : (entries.map entryKey).Nodup := distinct
    have made : entries.mapM (fun e =>
        (restore N (depth + 1) (entryValue e)).map fun v => (entryKey e, v)) = some values := by
      refine mapM_option.mpr ((List.forall₂_map_left_iff.mp each).imp fun e m both => ?_)
      obtain ⟨key, again⟩ := both
      simp only at key again
      rw [again, Option.map_some, ← key]
    simp only [form.second]
    rw [if_pos distinct, made, Option.map_some]

theorem restore_iff {depth : Nat} {members : List (List Nat × Value ν)} {v : Value ν} :
    restore N depth (.object members) = some v ↔ ¬depth > 12 ∧ Restored N depth members v :=
  ⟨restored_of_restore, fun restored => restore_of_restored restored.1 restored.2⟩

/-- Only an object is made into anything. -/
theorem object_of_restore {depth : Nat} {r v : Value ν} (restored : restore N depth r = some v) :
    ∃ members, r = .object members := by
  cases r with
  | object members => exact ⟨members, rfl⟩
  | _ => simp [restore] at restored

/-! ### The order of members -/

omit [DecidableEq ν] in
theorem perm_ownOrder (members : List (List Nat × Value ν)) : (ownOrder members).Perm members := by
  have split_ : ∀ l : List (List Nat × Value ν),
      (l.filter (fun m => (arrayIndex m.1).isSome) ++ l.filter fun m => (arrayIndex m.1).isNone).Perm l := by
    intro l
    have other : (fun m : List Nat × Value ν => (arrayIndex m.1).isNone) =
        fun m => !(arrayIndex m.1).isSome := by
      funext m
      cases arrayIndex m.1 <;> rfl
    rw [other]
    exact List.filter_append_perm _ l
  exact ((List.perm_insertionSort _ _).append_right _).trans (split_ members)

omit [DecidableEq ν] in
/-- What order members come in is a matter of their keys. -/
theorem keys_ownOrder {members values : List (List Nat × Value ν)}
    (keys : values.map Prod.fst = members.map Prod.fst) :
    (ownOrder values).map Prod.fst = (ownOrder members).map Prod.fst := by
  have told : ∀ l : List (List Nat × Value ν), (ownOrder l).map Prod.fst =
      ((l.map Prod.fst).filter fun k => (arrayIndex k).isSome).insertionSort
        (fun a b => decide (decimal a ≤ decimal b)) ++
      (l.map Prod.fst).filter fun k => (arrayIndex k).isNone := by
    intro l
    rw [ownOrder, List.map_append, List.map_insertionSort (fun a b : List Nat × Value ν =>
      (decide (decimal a.1 ≤ decimal b.1) : Prop)) (fun a b : List Nat => (decide (decimal a ≤ decimal b) : Prop))
      Prod.fst _ (fun _ _ _ _ => Iff.rfl), List.filter_map, List.filter_map]
    rfl
  rw [told, told, keys]

omit [DecidableEq ν] in
theorem ownOrder_of_keys {members values : List (List Nat × Value ν)}
    (keys : values.map Prod.fst = members.map Prod.fst) (own : ownOrder members = members)
    (distinct : (members.map Prod.fst).Nodup) : ownOrder values = values := by
  have perm := perm_ownOrder values
  refine eq_of_same_keys ?_ ?_ fun m among => perm.mem_iff.mp among
  · rw [keys_ownOrder keys, own, keys]
  · rw [keys_ownOrder keys, own]
    exact distinct

/-! ### What comes back -/

mutual

/-- The objects the code writes. -/
def Retained.value : Retained → Value ν
  | .null => .object [(units "kind", .text (units "null"))]
  | .boolean value => .object [(units "kind", .text (units "boolean")), (units "value", .boolean value)]
  | .string text => .object [(units "kind", .text (units "string")), (units "value", .text text)]
  | .number text => .object [(units "kind", .text (units "number")), (units "value", .text text)]
  | .array items =>
    .object [(units "kind", .text (units "array")), (units "items", .array (retainedItems items))]
  | .object entries =>
    .object [(units "kind", .text (units "object")), (units "entries", .array (retainedEntries entries))]

def retainedItems : List Retained → List (Value ν)
  | [] => []
  | item :: items => item.value :: retainedItems items

def retainedEntries : List (List Nat × Retained) → List (Value ν)
  | [] => []
  | (key, entry) :: entries =>
    .object [(units "key", .text key), (units "value", entry.value)] :: retainedEntries entries

end

mutual

/-- The members of every object in the language's order, one of a name. -/
def InOwnOrder : Value ν → Prop
  | .array items => ItemsInOwnOrder items
  | .object members => ownOrder members = members ∧ (members.map Prod.fst).Nodup ∧ MembersInOwnOrder members
  | _ => True

def ItemsInOwnOrder : List (Value ν) → Prop
  | [] => True
  | item :: items => InOwnOrder item ∧ ItemsInOwnOrder items

def MembersInOwnOrder : List (List Nat × Value ν) → Prop
  | [] => True
  | (_, value) :: members => InOwnOrder value ∧ MembersInOwnOrder members

end

mutual

/-- No array and no object has more than the entries that are read back. -/
def Narrow : Value ν → Prop
  | .array items => items.length ≤ mostEntries ∧ NarrowItems items
  | .object members => members.length ≤ mostEntries ∧ NarrowMembers members
  | _ => True

def NarrowItems : List (Value ν) → Prop
  | [] => True
  | item :: items => Narrow item ∧ NarrowItems items

def NarrowMembers : List (List Nat × Value ν) → Prop
  | [] => True
  | (_, value) :: members => Narrow value ∧ NarrowMembers members

end

omit [DecidableEq ν] in
theorem exactly_self {a : List Nat} {x : Value ν} : Exactly [(a, x)] [(a, x)] := by
  simp [Exactly, field]

omit [DecidableEq ν] in
theorem exactly_pair {a b : List Nat} {x y : Value ν} (differ : a ≠ b) :
    Exactly [(a, x), (b, y)] [(a, x), (b, y)] := by
  simp [exactly_two, field, differ]

omit [DecidableEq ν] in
/-- The kind an object was written with. -/
theorem kind_value {kind other : String} {rest others : List (List Nat × Value ν)}
    (form : Exactly ((units "kind", .text (units kind)) :: rest)
      ((units "kind", .text (units other)) :: others)) : units kind = units other := by
  have same := form.first
  simp only [field, List.find?_cons, beq_self_eq_true, Option.map_some, Option.some.injEq,
    Value.text.injEq] at same
  exact same

theorem retain_shallow {depth : Nat} {v : Value ν} {f : Retained} (kept : retain N depth v = some f) :
    ¬depth > 12 := by
  intro deep
  cases v <;> simp [retain, deep] at kept

theorem restore_numberText {n : ν} (finite : N.isFinite n = true) :
    N.ofText (numberText N n) = n ∧ scalarText (numberText N n) = true ∧
      (numberText N n).length ≤ 64 := by
  have ascii : ∀ {s : List Nat}, (∀ c ∈ s, c < 128) → scalarText s = true := fun small =>
    (scalarText_iff _).mpr (.inl (keeps_ascii small).2)
  rw [numberText]
  split
  · next zero => exact ⟨by rw [N.ofText_negativeZero, zero], by decide, by decide⟩
  · next other => exact ⟨N.ofText_toText finite other, ascii (N.toText_ascii n), N.toText_short finite⟩

omit [DecidableEq ν] in
theorem retainedItems_length (items : List Retained) :
    (retainedItems items : List (Value ν)).length = items.length := by
  induction items with
  | nil => rfl
  | cons item items ih => rw [retainedItems, List.length_cons, List.length_cons, ih]

omit [DecidableEq ν] in
theorem retainedEntries_are {entries : List (List Nat × Retained)}
    (scalar : ∀ e ∈ entries, scalarText e.1 = true) :
    List.Forall₂ EntryOf (retainedEntries entries : List (Value ν))
      (entries.map fun e => (e.1, e.2.value)) := by
  induction entries with
  | nil => exact .nil
  | cons e entries ih =>
    obtain ⟨key, entry⟩ := e
    rw [List.forall_mem_cons] at scalar
    rw [retainedEntries, List.map_cons]
    exact .cons ⟨⟨_, rfl, exactly_pair (by decide)⟩, scalar.1⟩ (ih scalar.2)

theorem retainMembers_keys {depth : Nat} {members : List (List Nat × Value ν)}
    {entries : List (List Nat × Retained)} (kept : retainMembers N depth members = some entries) :
    entries.map Prod.fst = members.map Prod.fst := by
  induction members generalizing entries with
  | nil =>
    cases kept
    rfl
  | cons m members ih =>
    obtain ⟨key, value⟩ := m
    rw [retainMembers] at kept
    obtain ⟨first, -, later⟩ := Option.bind_eq_some_iff.mp kept
    obtain ⟨others, others_kept, done⟩ := Option.bind_eq_some_iff.mp later
    cases done
    rw [List.map_cons, List.map_cons, ih others_kept]

theorem retainItems_length {depth : Nat} {items : List (Value ν)} {kept : List Retained}
    (all : retainItems N depth items = some kept) : kept.length = items.length := by
  induction items generalizing kept with
  | nil =>
    cases all
    rfl
  | cons item items ih =>
    rw [retainItems] at all
    obtain ⟨first, -, later⟩ := Option.bind_eq_some_iff.mp all
    obtain ⟨others, others_kept, done⟩ := Option.bind_eq_some_iff.mp later
    cases done
    rw [List.length_cons, List.length_cons, ih others_kept]

mutual

/-- What is kept of a value is made into it again exactly if the value is narrow. -/
theorem comes_back : ∀ {v : Value ν} {depth : Nat} {f : Retained}, retain N depth v = some f →
    InOwnOrder v → (restore N depth f.value = some v ↔ Narrow v)
  | .null, depth, f, kept, _ => by
    have shallow := retain_shallow kept
    rw [retain, if_neg shallow] at kept
    cases kept
    rw [Retained.value, restore_iff]
    simp only [Narrow, iff_true]
    exact ⟨shallow, .null exactly_self⟩
  | .boolean b, depth, f, kept, _ => by
    have shallow := retain_shallow kept
    rw [retain, if_neg shallow] at kept
    cases kept
    rw [Retained.value, restore_iff]
    simp only [Narrow, iff_true]
    exact ⟨shallow, .boolean b (exactly_pair (by decide))⟩
  | .text s, depth, f, kept, _ => by
    have shallow := retain_shallow kept
    rw [retain, if_neg shallow] at kept
    split at kept
    · next scalar =>
      cases kept
      rw [Retained.value, restore_iff]
      simp only [Narrow, iff_true]
      exact ⟨shallow, .string s (exactly_pair (by decide)) scalar⟩
    · cases kept
  | .number n, depth, f, kept, _ => by
    have shallow := retain_shallow kept
    rw [retain, if_neg shallow] at kept
    split at kept
    · next finite =>
      cases kept
      obtain ⟨back, scalar, short⟩ := restore_numberText (N := N) finite
      have made : Restored N depth [(units "kind", .text (units "number")),
          (units "value", .text (numberText N n))] (.number (N.ofText (numberText N n))) :=
        .number (numberText N n) (exactly_pair (by decide)) scalar short (by rw [back]; exact finite)
          (by rw [back])
      rw [back] at made
      rw [Retained.value, restore_iff]
      simp only [Narrow, iff_true]
      exact ⟨shallow, made⟩
    · cases kept
  | .array items, depth, f, kept, own => by
    have shallow := retain_shallow kept
    rw [retain, if_neg shallow] at kept
    obtain ⟨fs, items_kept, rfl⟩ := Option.map_eq_some_iff.mp kept
    rw [InOwnOrder] at own
    have each := items_come_back items_kept own
    have length := retainItems_length items_kept
    have width : (retainedItems fs : List (Value ν)).length = items.length := by
      rw [retainedItems_length, length]
    rw [Retained.value, restore_iff, Narrow, ← each, ← width]
    constructor
    · rintro ⟨-, made⟩
      cases made with
      | array items' _ form short each =>
        have same := form.second.symm.trans (exactly_pair (by decide)).second
        cases same
        exact ⟨short, each⟩
    · rintro ⟨short, each⟩
      exact ⟨shallow, .array _ _ (exactly_pair (by decide)) short each⟩
  | .object members, depth, f, kept, own => by
    have shallow := retain_shallow kept
    rw [retain, if_neg shallow] at kept
    split at kept
    rotate_left
    · cases kept
    next scalar =>
    obtain ⟨entries, members_kept, rfl⟩ := Option.map_eq_some_iff.mp kept
    rw [InOwnOrder] at own
    obtain ⟨ordered, distinct, own⟩ := own
    have each := members_come_back members_kept own
    have keys := retainMembers_keys members_kept
    have scalars : ∀ e ∈ entries, scalarText e.1 = true := by
      intro e among
      have key : e.1 ∈ members.map Prod.fst := keys ▸ List.mem_map_of_mem among
      obtain ⟨m, member, same⟩ := List.mem_map.mp key
      rw [← same]
      exact List.all_eq_true.mp scalar m member
    have are : List.Forall₂ EntryOf (retainedEntries entries : List (Value ν)) _ :=
      retainedEntries_are scalars
    have width : (retainedEntries entries : List (Value ν)).length = members.length := by
      rw [are.length_eq, List.length_map]
      simpa using congrArg List.length keys
    have names : (entries.map fun e => (e.1, (e.2.value : Value ν))).map Prod.fst =
        members.map Prod.fst := by
      rw [List.map_map, ← keys]
      rfl
    rw [Retained.value, restore_iff, Narrow, ← each, ← width]
    constructor
    · rintro ⟨-, made⟩
      generalize target : Value.object members = w at made
      cases made with
      | object entries' pairs values form short are' distinct' each' =>
        have same := form.second.symm.trans (exactly_pair (by decide)).second
        cases same
        -- The entries are what was written, so the members made of them have the keys of the object.
        obtain rfl := (entries_iff.mp are').2.trans (entries_iff.mp are).2.symm
        have order := ownOrder_of_keys ((forall₂_entries each').trans names) ordered distinct
        injection target with same
        rw [order] at same
        exact ⟨short, same ▸ each'⟩
      | _ => cases target
    · rintro ⟨short, each'⟩
      have made := Restored.object (retainedEntries entries) _ members (exactly_pair (by decide)) short are
        (by rw [names]; exact distinct) each'
      rw [ordered] at made
      exact ⟨shallow, made⟩

theorem items_come_back : ∀ {items : List (Value ν)} {depth : Nat} {fs : List Retained},
    retainItems N depth items = some fs → ItemsInOwnOrder items →
    (List.Forall₂ (fun item value => restore N depth item = some value) (retainedItems fs) items ↔
      NarrowItems items)
  | [], depth, fs, kept, _ => by
    cases kept
    simp [retainedItems, NarrowItems]
  | item :: items, depth, fs, kept, own => by
    rw [retainItems] at kept
    obtain ⟨first, item_kept, later⟩ := Option.bind_eq_some_iff.mp kept
    obtain ⟨others, others_kept, done⟩ := Option.bind_eq_some_iff.mp later
    cases done
    rw [ItemsInOwnOrder] at own
    rw [retainedItems, List.forall₂_cons, NarrowItems, comes_back item_kept own.1,
      items_come_back others_kept own.2]

theorem members_come_back : ∀ {members : List (List Nat × Value ν)} {depth : Nat}
    {entries : List (List Nat × Retained)}, retainMembers N depth members = some entries →
    MembersInOwnOrder members →
    (List.Forall₂ (fun (pair m : List Nat × Value ν) =>
        m.1 = pair.1 ∧ restore N depth pair.2 = some m.2)
      (entries.map fun e => (e.1, e.2.value)) members ↔ NarrowMembers members)
  | [], depth, entries, kept, _ => by
    cases kept
    simp [NarrowMembers]
  | (key, value) :: members, depth, entries, kept, own => by
    rw [retainMembers] at kept
    obtain ⟨first, value_kept, later⟩ := Option.bind_eq_some_iff.mp kept
    obtain ⟨others, others_kept, done⟩ := Option.bind_eq_some_iff.mp later
    cases done
    rw [MembersInOwnOrder] at own
    rw [List.map_cons, List.forall₂_cons, NarrowMembers, members_come_back others_kept own.2]
    simp [comes_back value_kept own.1]

end

/-! ### What is made is kept as it was -/

mutual

/-- The value is this tree, its members and its entries in any order. -/
def Retained.Alike : Retained → Value ν → Prop
  | .null, r => ∃ members, r = .object members ∧ Exactly members [(units "kind", .text (units "null"))]
  | .boolean value, r => ∃ members, r = .object members ∧
      Exactly members [(units "kind", .text (units "boolean")), (units "value", .boolean value)]
  | .string text, r => ∃ members, r = .object members ∧
      Exactly members [(units "kind", .text (units "string")), (units "value", .text text)]
  | .number text, r => ∃ members, r = .object members ∧
      Exactly members [(units "kind", .text (units "number")), (units "value", .text text)]
  | .array fs, r => ∃ members items, r = .object members ∧
      Exactly members [(units "kind", .text (units "array")), (units "items", .array items)] ∧
      AlikeItems fs items
  | .object fs, r => ∃ members entries pairs pairs', r = .object members ∧
      Exactly members [(units "kind", .text (units "object")), (units "entries", .array entries)] ∧
      List.Forall₂ EntryOf entries pairs ∧ pairs'.Perm pairs ∧ AlikeEntries fs pairs'

def AlikeItems : List Retained → List (Value ν) → Prop
  | [], items => items = []
  | f :: fs, items => ∃ item others, items = item :: others ∧ f.Alike item ∧ AlikeItems fs others

def AlikeEntries : List (List Nat × Retained) → List (List Nat × Value ν) → Prop
  | [], pairs => pairs = []
  | (key, f) :: fs, pairs => ∃ value others, pairs = (key, value) :: others ∧ f.Alike value ∧
      AlikeEntries fs others

end

/-- What is made of a tree is kept as a tree like it. -/
def KeptAlike (N : PrintedNumbers ν) (depth : Nat) (r v : Value ν) : Prop :=
  ∃ f, retain N depth v = some f ∧ f.Alike r

theorem items_kept {depth : Nat} {items values : List (Value ν)}
    (each : List.Forall₂ (fun item value => KeptAlike N depth item value) items values) :
    ∃ fs, retainItems N depth values = some fs ∧ AlikeItems fs items := by
  induction each with
  | nil => exact ⟨[], rfl, rfl⟩
  | cons first _ ih =>
    obtain ⟨f, kept, alike⟩ := first
    obtain ⟨fs, others, alike'⟩ := ih
    refine ⟨f :: fs, ?_, ?_⟩
    · rw [retainItems, kept, others]
      rfl
    · rw [AlikeItems]
      exact ⟨_, _, rfl, alike, alike'⟩

theorem members_kept {depth : Nat} {members pairs : List (List Nat × Value ν)}
    (each : List.Forall₂ (fun m pair => m.1 = pair.1 ∧ KeptAlike N depth pair.2 m.2) members pairs) :
    ∃ fs, retainMembers N depth members = some fs ∧ AlikeEntries fs pairs := by
  induction each with
  | nil => exact ⟨[], rfl, rfl⟩
  | @cons m pair _ _ first _ ih =>
    obtain ⟨key, value⟩ := m
    obtain ⟨key', r⟩ := pair
    obtain ⟨rfl, f, kept, alike⟩ := first
    obtain ⟨fs, others, alike'⟩ := ih
    refine ⟨(key, f) :: fs, ?_, ?_⟩
    · rw [retainMembers, kept, others]
      rfl
    · rw [AlikeEntries]
      exact ⟨_, _, rfl, alike, alike'⟩

theorem kept_of_restored {depth : Nat} {members : List (List Nat × Value ν)} {v : Value ν}
    (shallow : ¬depth > 12) (restored : Restored N depth members v)
    (deeper : ∀ r w, restore N (depth + 1) r = some w → KeptAlike N (depth + 1) r w) :
    KeptAlike N depth (.object members) v := by
  cases restored with
  | null form =>
    refine ⟨.null, by rw [retain, if_neg shallow], ?_⟩
    rw [Retained.Alike]
    exact ⟨members, rfl, form⟩
  | boolean b form =>
    refine ⟨.boolean b, by rw [retain, if_neg shallow], ?_⟩
    rw [Retained.Alike]
    exact ⟨members, rfl, form⟩
  | string text form scalar =>
    refine ⟨.string text, by rw [retain, if_neg shallow, if_pos scalar], ?_⟩
    rw [Retained.Alike]
    exact ⟨members, rfl, form⟩
  | number text form scalar short finite printed =>
    refine ⟨.number text, by rw [retain, if_neg shallow, if_pos finite, printed], ?_⟩
    rw [Retained.Alike]
    exact ⟨members, rfl, form⟩
  | array items values form short each =>
    obtain ⟨fs, kept, alike⟩ := items_kept (each.imp fun r w made => deeper r w made)
    refine ⟨.array fs, by rw [retain, if_neg shallow, kept, Option.map_some], ?_⟩
    rw [Retained.Alike]
    exact ⟨members, items, rfl, form, alike⟩
  | object entries pairs values form short are distinct each =>
    -- Members move with their entries when the language puts them in its order.
    obtain ⟨pairs', each', perm⟩ := List.perm_comp_forall₂ (perm_ownOrder values) each.flip
    obtain ⟨fs, kept, alike⟩ := members_kept (each'.imp fun m pair made =>
      ⟨made.1, deeper pair.2 m.2 made.2⟩)
    have scalar : (ownOrder values).all (fun m => scalarText m.1) = true := by
      have scalars : ∀ pair ∈ pairs, scalarText pair.1 = true := by
        intro pair among
        obtain ⟨all, rfl⟩ := entries_iff.mp are
        obtain ⟨e, member, rfl⟩ := List.mem_map.mp among
        exact (isEntry_iff.mp (all e member)).2
      rw [List.all_eq_true]
      intro m among
      have key : m.1 ∈ pairs.map Prod.fst := by
        rw [← forall₂_entries each]
        exact List.mem_map_of_mem ((perm_ownOrder values).mem_iff.mp among)
      obtain ⟨pair, member, same⟩ := List.mem_map.mp key
      rw [← same]
      exact scalars pair member
    refine ⟨.object fs, by rw [retain, if_neg shallow, if_pos scalar, kept, Option.map_some], ?_⟩
    rw [Retained.Alike]
    exact ⟨members, entries, pairs, pairs', rfl, form, are, perm, alike⟩

theorem kept_of_restore {r v : Value ν} {depth : Nat} (restored : restore N depth r = some v) :
    KeptAlike N depth r v := by
  induction left : 13 - depth using Nat.strong_induction_on generalizing depth r v with
  | _ n ih =>
    obtain ⟨members, rfl⟩ := object_of_restore restored
    obtain ⟨shallow, made⟩ := restore_iff.mp restored
    refine kept_of_restored shallow made fun r' w restored' => ?_
    exact ih (13 - (depth + 1)) (by omega) restored' rfl

/-- A value comes back from what is kept of it exactly if it is narrow; and every tree that is made into
a value is the one kept of it, up to the order of entries. -/
theorem retention_exact (N : PrintedNumbers ν) (v : Value ν) (own : InOwnOrder v) :
    ((∀ f, retain N 0 v = some f → restore N 0 f.value = some v) ↔
      (∀ f, retain N 0 v = some f → Narrow v)) ∧
    ∀ r w : Value ν, restore N 0 r = some w → ∃ f, retain N 0 w = some f ∧ f.Alike r := by
  refine ⟨forall₂_congr fun f kept => comes_back kept own, ?_⟩
  intro r w restored
  exact kept_of_restore restored

end Retention

/-! ### An instance -/

theorem indexUnits_length {n width : Nat} (small : n < 10 ^ (width + 1)) :
    (indexUnits n).length ≤ width + 1 := by
  induction width generalizing n with
  | zero =>
    rw [indexUnits_small (by simpa using small)]
    exact Nat.le_refl 1
  | succ width ih =>
    by_cases one : n < 10
    · rw [indexUnits_small one, List.length_singleton]
      omega
    · have shorter : n / 10 < 10 ^ (width + 1) := by
        rw [Nat.pow_succ] at small
        exact Nat.div_lt_of_lt_mul (by omega)
      have length := ih shorter
      rw [indexUnits_large one, List.length_append, List.length_singleton]
      omega

/-- The safe integers and `-0`, with every other number taken for one. -/
inductive SafeNumber where
  | natural (value : Fin (maxSafe + 1))
  | negativeZero
  | other
  deriving DecidableEq

theorem lt_of_integer {text : List Nat} (small : isInteger text = true ∧ decimal text ≤ maxSafe) :
    decimal text < maxSafe + 1 :=
  Nat.lt_succ_of_le small.2

def SafeNumber.ofText (text : List Nat) : SafeNumber :=
  if text = units "-0" then .negativeZero
  else if small : isInteger text = true ∧ decimal text ≤ maxSafe then
    .natural ⟨decimal text, lt_of_integer small⟩
  else .other

def SafeNumber.toText : SafeNumber → List Nat
  | .natural k => indexUnits k
  | .negativeZero => units "0"
  | .other => units "NaN"

def SafeNumber.toNat? : SafeNumber → Option Nat
  | .natural k => some k
  | _ => none

theorem SafeNumber.ofText_integer {text : List Nat} (integer : isInteger text = true) :
    ofText text = if small : decimal text ≤ maxSafe then .natural ⟨decimal text, Nat.lt_succ_of_le small⟩
      else .other := by
  have positive : text ≠ units "-0" := by
    rintro rfl
    exact absurd integer (by decide)
  rw [ofText, if_neg positive]
  by_cases small : decimal text ≤ maxSafe <;> simp [integer, small]

theorem SafeNumber.natural_ofText {text : List Nat} (integer : isInteger text = true) :
    (ofText text).toNat? = if decimal text ≤ maxSafe then some (decimal text) else none := by
  rw [ofText_integer integer]
  split <;> rfl

theorem SafeNumber.toText_ofNat (k : Fin (maxSafe + 1)) : ofText (indexUnits k) = .natural k := by
  have small : decimal (indexUnits k) ≤ maxSafe := by
    rw [decimal_indexUnits]
    exact Nat.le_of_lt_succ k.isLt
  rw [ofText_integer (isInteger_indexUnits k), dif_pos small]
  exact congrArg natural (Fin.ext (decimal_indexUnits k))

theorem SafeNumber.toNat?_le {n : SafeNumber} {k : Nat} (natural : n.toNat? = some k) :
    k ≤ maxSafe := by
  rcases n with m | _ | _
  · cases natural
    exact Nat.le_of_lt_succ m.isLt
  · cases natural
  · cases natural

theorem SafeNumber.toNat?_injective {m n : SafeNumber} {k : Nat} (first : m.toNat? = some k)
    (second : n.toNat? = some k) : m = n := by
  rcases m with m | _ | _
  · cases n with
    | natural n => exact congrArg _ (Fin.ext (Option.some_inj.mp (first.trans second.symm)))
    | _ => cases second
  · cases first
  · cases first

namespace SafeNumber

variable {n : SafeNumber} {k : Nat}

def isFinite (n : SafeNumber) : Bool := decide (n ≠ .other)

theorem isFinite_of_natural (natural : n.toNat? = some k) : n.isFinite = true := by
  rcases n with m | _ | _
  · rfl
  · cases natural
  · cases natural

theorem toText_of_natural (natural : n.toNat? = some k) : n.toText = indexUnits k := by
  rcases n with m | _ | _
  · cases natural
    rfl
  · cases natural
  · cases natural

theorem isFinite_negativeZero : isFinite .negativeZero = true := rfl

theorem ofText_negativeZero : ofText (units "-0") = .negativeZero := rfl

theorem ofText_toText (finite : n.isFinite = true) (other : n ≠ .negativeZero) :
    ofText n.toText = n := by
  rcases n with m | _ | _
  · exact toText_ofNat m
  · exact absurd rfl other
  · exact absurd finite (by decide)

theorem toText_short (finite : n.isFinite = true) : n.toText.length ≤ 64 := by
  rcases n with m | _ | _
  · have length : (indexUnits m).length ≤ 15 + 1 :=
      indexUnits_length (Nat.lt_of_lt_of_le m.isLt (by decide))
    change (indexUnits m).length ≤ 64
    omega
  · decide
  · exact absurd finite (by decide)

theorem toText_ascii (n : SafeNumber) : ∀ c ∈ n.toText, c < 128 := by
  rcases n with m | _ | _
  · intro c member
    have digit := digits_indexUnits m c member
    simp only [isDigit, Bool.and_eq_true, decide_eq_true_eq] at digit
    omega
  · decide
  · decide

end SafeNumber

def PrintedNumbers.safe : PrintedNumbers SafeNumber where
  ofText := .ofText
  toText n := n.toText
  isFinite n := n.isFinite
  natural n := n.toNat?
  natural_safe := SafeNumber.toNat?_le
  natural_injective := SafeNumber.toNat?_injective
  natural_ofText := SafeNumber.natural_ofText
  natural_finite := SafeNumber.isFinite_of_natural
  toText_natural := SafeNumber.toText_of_natural
  negativeZero := .negativeZero
  negativeZero_finite := SafeNumber.isFinite_negativeZero
  ofText_negativeZero := SafeNumber.ofText_negativeZero
  ofText_toText := SafeNumber.ofText_toText
  toText_short := SafeNumber.toText_short
  toText_ascii := SafeNumber.toText_ascii

/-- `-0` and an object in an array come back. -/
theorem retention_exact_mixed :
    restore PrintedNumbers.safe 0 (Retained.value
        (.array [.number (units "-0"), .object [([50], .null), ([97], .boolean true)]])) =
      some (.array [.number .negativeZero, .object [([50], .null), ([97], .boolean true)]]) := by
  have own : InOwnOrder (.array [.number .negativeZero, .object [([50], .null), ([97], .boolean true)]] :
      Value SafeNumber) := by
    simp only [InOwnOrder, ItemsInOwnOrder, MembersInOwnOrder, and_true, true_and]
    exact ⟨rfl, by decide⟩
  have exact_ := retention_exact PrintedNumbers.safe _ own
  refine exact_.1.mpr (fun f _ => ?_) _ rfl
  simp [Narrow, NarrowItems, NarrowMembers, mostEntries]

theorem retainItems_nulls (depth n : Nat) (shallow : ¬depth > 12) :
    retainItems PrintedNumbers.safe depth (List.replicate n .null) = some (List.replicate n .null) := by
  induction n with
  | zero => rfl
  | succ n ih =>
    rw [List.replicate_succ, List.replicate_succ, retainItems, retain, if_neg shallow, ih]
    rfl

theorem itemsInOwnOrder_nulls (n : Nat) :
    ItemsInOwnOrder (List.replicate n (.null : Value SafeNumber)) := by
  induction n with
  | zero => trivial
  | succ n ih => exact ⟨trivial, ih⟩

/-- An array of one entry more than are read back is kept and not made again. -/
theorem retention_wide :
    ¬∀ f, retain PrintedNumbers.safe 0 (.array (List.replicate 100001 .null)) = some f →
      restore PrintedNumbers.safe 0 f.value = some (.array (List.replicate 100001 .null)) := by
  intro lossless
  have kept : retain PrintedNumbers.safe 0 (.array (List.replicate 100001 .null)) =
      some (.array (List.replicate 100001 .null)) := by
    rw [retain, if_neg (by decide), retainItems_nulls _ _ (by decide), Option.map_some]
  have own : InOwnOrder (.array (List.replicate 100001 .null) : Value SafeNumber) :=
    itemsInOwnOrder_nulls _
  have narrow := (comes_back kept own).mp (lossless _ kept)
  rw [Narrow, List.length_replicate] at narrow
  exact absurd narrow.1 (by decide)

end LedgerDesk.Contracts
