import LedgerDesk.Foundation.Collation
import LedgerDesk.Queue.Priority

/-!
# Two sorted readings of the queue

The process sorts by comparing keys. The store sorts by one text per key, whose fields have a
fixed width: the descending columns are complemented, the numbers padded.
-/
namespace LedgerDesk.Queue

open Foundation Agents

/-! ### The comparator -/

section OrderQueue

variable {τ : Type*} (features : τ → QueueFeatures)

def orderQueue (tickets : List τ) (now : ℚ) (weights : Weights) : List τ :=
  let keyed := tickets.map fun ticket => (ticket, queueKey (features ticket) now weights)
  (keyed.mergeSort fun a b => compareQueueKeys a.2 b.2 ≤ 0).map Prod.fst

theorem orderQueue_perm (tickets : List τ) (now : ℚ) (weights : Weights) :
    (orderQueue features tickets now weights).Perm tickets := by
  have moved := (List.mergeSort_perm
    (tickets.map fun ticket => (ticket, queueKey (features ticket) now weights))
    (fun a b => compareQueueKeys a.2 b.2 ≤ 0)).map Prod.fst
  rw [List.map_map] at moved
  exact moved.trans (by simp [Function.comp_def])

/-- Each row still carries the key of its ticket. -/
theorem orderQueue_rows (tickets : List τ) (now : ℚ) (weights : Weights) :
    ∀ row ∈ (tickets.map fun ticket => (ticket, queueKey (features ticket) now weights)).mergeSort
        (fun a b => compareQueueKeys a.2 b.2 ≤ 0),
      row.2 = queueKey (features row.1) now weights := by
  intro row member
  obtain ⟨ticket, -, rfl⟩ := List.mem_map.mp (List.mem_mergeSort.mp member)
  rfl

theorem orderQueue_sorted (tickets : List τ) (now : ℚ) (weights : Weights) :
    ((orderQueue features tickets now weights).map
      fun ticket => (queueKey (features ticket) now weights).rank).Pairwise (· ≤ ·) := by
  have sorted := mergeSort_sorted (fun row : τ × QueueKey => row.2.rank)
    (fun a b => compareQueueKeys a.2 b.2 ≤ 0)
    (fun a b => by rw [decide_eq_true_eq]; exact compareQueueKeys_nonpos)
    (tickets.map fun ticket => (ticket, queueKey (features ticket) now weights))
  rw [orderQueue, List.map_map]
  rw [List.pairwise_map] at sorted ⊢
  refine sorted.imp_of_mem fun {a b} in_a in_b le => ?_
  rw [orderQueue_rows features tickets now weights a in_a,
    orderQueue_rows features tickets now weights b in_b] at le
  exact le

/-- A first ticket that no other one precedes stays first. -/
theorem orderQueue_cons {ticket : τ} {tickets : List τ} {now : ℚ} {weights : Weights}
    (first : ∀ other ∈ tickets, (queueKey (features ticket) now weights).rank ≤
      (queueKey (features other) now weights).rank) :
    orderQueue features (ticket :: tickets) now weights =
      ticket :: orderQueue features tickets now weights := by
  have trans : ∀ a b c : τ × QueueKey, decide (compareQueueKeys a.2 b.2 ≤ 0) = true →
      decide (compareQueueKeys b.2 c.2 ≤ 0) = true →
      decide (compareQueueKeys a.2 c.2 ≤ 0) = true := by
    intro a b c ab bc
    rw [decide_eq_true_eq, compareQueueKeys_nonpos] at *
    exact le_trans ab bc
  have total : ∀ a b : τ × QueueKey, (decide (compareQueueKeys a.2 b.2 ≤ 0) ||
      decide (compareQueueKeys b.2 a.2 ≤ 0)) = true := by
    intro a b
    rw [Bool.or_eq_true, decide_eq_true_eq, decide_eq_true_eq, compareQueueKeys_nonpos,
      compareQueueKeys_nonpos]
    exact le_total _ _
  obtain ⟨ahead, behind, whole, rest, before⟩ := List.mergeSort_cons trans total
    (ticket, queueKey (features ticket) now weights)
    (tickets.map fun ticket => (ticket, queueKey (features ticket) now weights))
  -- whoever the sort puts ahead of the first ticket would have to precede it
  have none_ahead : ahead = [] := by
    refine List.eq_nil_iff_forall_not_mem.mpr fun row member => ?_
    have kept : row ∈ tickets.map fun ticket => (ticket, queueKey (features ticket) now weights) := by
      refine List.mem_mergeSort.mp (show row ∈ List.mergeSort _
        (fun a b => decide (compareQueueKeys a.2 b.2 ≤ 0)) from ?_)
      rw [rest]
      exact List.mem_append_left behind member
    obtain ⟨other, known, rfl⟩ := List.mem_map.mp kept
    have later := before _ member
    simp only [Bool.not_eq_true', decide_eq_false_iff_not, compareQueueKeys_nonpos] at later
    exact later (first other known)
  rw [none_ahead, List.nil_append] at whole rest
  simp only [orderQueue, List.map_cons]
  rw [whole, rest, List.map_cons]

/-- The list starts with a ticket that no other one precedes. -/
theorem orderQueue_head {tickets : List τ} {now : ℚ} {weights : Weights} {ticket : τ}
    (head : (orderQueue features tickets now weights).head? = some ticket) :
    ∀ other ∈ tickets, (queueKey (features ticket) now weights).rank ≤
      (queueKey (features other) now weights).rank := by
  intro other member
  have sorted := orderQueue_sorted features tickets now weights
  have known := (orderQueue_perm features tickets now weights).mem_iff.mpr member
  cases ordered : orderQueue features tickets now weights with
  | nil =>
    rw [ordered] at head
    cases head
  | cons first others =>
    rw [ordered, List.head?_cons, Option.some.injEq] at head
    subst head
    rw [ordered] at sorted known
    rw [List.map_cons, List.pairwise_cons] at sorted
    rcases List.mem_cons.mp known with rfl | later
    · exact le_refl _
    · exact sorted.1 _ (List.mem_map_of_mem later)

end OrderQueue

/-- Keys in order are determined by which keys there are. -/
theorem keys_unique {xs ys : List QueueKey} (perm : xs.Perm ys)
    (sorted : (xs.map QueueKey.rank).Pairwise (· ≤ ·))
    (sorted' : (ys.map QueueKey.rank).Pairwise (· ≤ ·)) : xs = ys :=
  List.map_injective_iff.mpr (fun _ _ => QueueKey.rank_injective)
    (sorted_unique (perm.map QueueKey.rank) sorted sorted')

/-! ### The collating text -/

section Stored

-- `String(n)` of a number that is no integer below `10 ^ 21` in size: the shortest digits of
-- its double, which an exact number does not have
variable (otherText : ℚ → String)

def numberText (value : ℚ) : String :=
  if value.den = 1 ∧ value.num.natAbs < 10 ^ 21 then toString value.num else otherText value

def collationTimeWidth : Nat := 15

def collationPriorityCeiling : Int := 9999999

def padText (width : Nat) (text : String) : List Char := padStart width text.toList

def storedCollationKey (key : QueueKey) : Except RangeError String :=
  let priority := ⌊key.priority * priorityScale + 1 / 2⌋
  if priority < 0 ∨ collationPriorityCeiling < priority then .error (.storedPriority key.priority)
  else if key.createdAt < 0 ∨ collationTimeWidth < (numberText otherText key.createdAt).length then
    .error (.storedCreatedAt key.createdAt)
  else
    let breached := if key.breached then '0' else '1'
    let descendingPriority := padText 7 (toString (collationPriorityCeiling - priority))
    let createdAt := padText collationTimeWidth (numberText otherText key.createdAt)
    .ok (String.ofList
      (breached :: '|' :: descendingPriority ++ '|' :: createdAt ++ '|' :: key.id.toList))

/-- `<` on two texts, by code unit. -/
def compareTexts (left right : String) : ℚ :=
  if left = right then 0 else if codeUnits left < codeUnits right then -1 else 1

def compareStoredRows (a b : QueueKey) : Except RangeError ℚ := do
  let left ← storedCollationKey otherText a
  let right ← storedCollationKey otherText b
  return compareTexts left right

/-- A ticket in the replayed world: its features and the window they were derived from. -/
structure SimTicket extends QueueFeatures where
  slaWindowMs : ℚ
  deriving DecidableEq, Repr

/-- A sort of fewer than two rows compares nothing. A longer one looks at every row, the first of
the list first, so one row that does not encode fails it. -/
def storedOrder (tickets : List SimTicket) (now : ℚ) (weights : Weights) :
    Except RangeError (List String) :=
  let rows := tickets.map fun ticket => (ticket.id, queueKey ticket.toQueueFeatures now weights)
  if rows.length < 2 then .ok (rows.map Prod.fst)
  else do
    let texts ← rows.mapM fun row => do
      let text ← storedCollationKey otherText row.2
      return (row.1, text)
    return (texts.mergeSort fun a b => compareTexts a.2 b.2 ≤ 0).map Prod.fst

theorem compareTexts_nonpos {left right : String} :
    compareTexts left right ≤ 0 ↔ codeUnits left ≤ codeUnits right := by
  rw [compareTexts]
  by_cases same : left = right
  · simp [same]
  · have apart : codeUnits left ≠ codeUnits right := fun equal => same (codeUnits_injective equal)
    by_cases before : codeUnits left < codeUnits right
    · simp [same, before, before.le]
    · have after := not_le.mpr (lt_of_le_of_ne (not_lt.mp before) (Ne.symm apart))
      have unit : ¬ (1 : ℚ) ≤ 0 := by norm_num
      simp [same, before, after, unit]

theorem codeUnits_ofList {cs : List Char} (ds : List Char) (plain : ∀ c ∈ cs, c.toNat < 0x10000) :
    codeUnits (String.ofList (cs ++ ds)) = cs.map Char.toNat ++ codeUnits (String.ofList ds) := by
  induction cs with
  | nil => rfl
  | cons c cs ih =>
    have rest := ih fun d member => plain d (List.mem_cons_of_mem c member)
    have here := plain c List.mem_cons_self
    simp only [codeUnits, String.toList_ofList, List.cons_append, List.flatMap_cons, if_pos here,
      List.map_cons, List.nil_append, List.cons.injEq, true_and] at rest ⊢
    exact rest

/-- A key whose fields fit their columns: the priority counts in millionths. -/
structure Stored (key : QueueKey) (priority createdAt : Nat) : Prop where
  scaled : key.priority = priority / priorityScale
  ceiling : priority ≤ 9999999
  instant : key.createdAt = createdAt
  width : createdAt < 10 ^ 15

theorem round_scaled (n : Nat) : ⌊(n : ℚ) / priorityScale * priorityScale + 1 / 2⌋ = n := by
  have scale : priorityScale ≠ 0 := by norm_num [priorityScale]
  rw [div_mul_cancel₀ _ scale, Int.floor_eq_iff]
  constructor <;> norm_num

theorem numberText_nat (n : Nat) (small : n < 10 ^ 21) : numberText otherText n = n.repr := by
  rw [numberText, if_pos ⟨Rat.den_natCast n, by simpa using small⟩, Rat.num_natCast]
  rfl

theorem padText_nat (width n : Nat) : padText width n.repr = Collation.padded width n := by
  rw [padText, padStart, Nat.toList_repr]
  rfl

/-- What a key that fits is stored as, field by field. -/
def fields (key : QueueKey) (priority createdAt : Nat) : List Char :=
  (if key.breached then '0' else '1') :: '|' :: Collation.padded 7 (9999999 - priority) ++
    '|' :: Collation.padded 15 createdAt ++ ['|']

theorem storedCollationKey_ok {key : QueueKey} {priority createdAt : Nat}
    (stored : Stored key priority createdAt) :
    storedCollationKey otherText key =
      .ok (String.ofList (fields key priority createdAt ++ key.id.toList)) := by
  have small : createdAt < 10 ^ 21 := lt_trans stored.width (by norm_num)
  have digits : createdAt.repr.length ≤ 15 := (Nat.length_repr_le_iff (by decide)).mpr stored.width
  have complement : collationPriorityCeiling - (priority : Int) = ((9999999 - priority : Nat) : Int) := by
    have ceiling := stored.ceiling
    rw [collationPriorityCeiling]
    omega
  have fits : ¬ ((priority : Int) < 0 ∨ collationPriorityCeiling < (priority : Int)) := by
    have ceiling := stored.ceiling
    rw [collationPriorityCeiling]
    omega
  have present : ¬ ((createdAt : ℚ) < 0 ∨ collationTimeWidth < createdAt.repr.length) := by
    rw [collationTimeWidth]
    rintro (negative | wide)
    · exact absurd negative (not_lt.mpr (Nat.cast_nonneg createdAt))
    · omega
  simp only [storedCollationKey, stored.scaled, round_scaled, if_neg fits, stored.instant,
    numberText_nat otherText createdAt small, if_neg present, complement]
  have text : toString ((9999999 - priority : Nat) : Int) = (9999999 - priority).repr := rfl
  rw [text, padText_nat, collationTimeWidth, padText_nat, fields]
  simp

theorem fields_plain (key : QueueKey) (priority createdAt : Nat) :
    ∀ c ∈ fields key priority createdAt, c.toNat < 0x10000 := by
  have digit : ∀ (width n : Nat) (c : Char), c ∈ Collation.padded width n → c.toNat < 0x10000 := by
    intro width n c member
    have code := Collation.digit_code (Collation.padded_digit member)
    omega
  intro c member
  simp only [fields, List.cons_append, List.mem_cons, List.mem_append, List.not_mem_nil,
    or_false, or_assoc] at member
  rcases member with flag | bar | descending | bar | instant | bar
  · rw [flag]
    split <;> decide
  · rw [bar]
    decide
  · exact digit 7 _ c descending
  · rw [bar]
    decide
  · exact digit _ _ c instant
  · rw [bar]
    decide

theorem codeUnits_fields (key : QueueKey) (priority createdAt : Nat) :
    codeUnits (String.ofList (fields key priority createdAt ++ key.id.toList)) =
      [if key.breached then 48 else 49, 124] ++
        ((Collation.padded 7 (9999999 - priority)).map Char.toNat ++
          ([124] ++ ((Collation.padded 15 createdAt).map Char.toNat ++
            ([124] ++ codeUnits key.id)))) := by
  have flag : (if key.breached then '0' else '1').toNat = if key.breached then 48 else 49 := by
    split <;> rfl
  rw [codeUnits_ofList _ (fields_plain key priority createdAt), String.ofList_toList, fields]
  simp only [List.map_append, List.map_cons, List.map_nil, List.cons_append, List.append_assoc,
    List.nil_append, flag]
  rfl

/-- Reading the texts from the left compares the keys column by column. -/
theorem stored_lt_iff {a b : QueueKey} {p q m n : Nat} (stored : Stored a p m)
    (stored' : Stored b q n) :
    codeUnits (String.ofList (fields a p m ++ a.id.toList)) <
        codeUnits (String.ofList (fields b q n ++ b.id.toList)) ↔
      a.rank < b.rank := by
  have scale : (0 : ℚ) < priorityScale := by norm_num [priorityScale]
  have fits : ∀ k, 9999999 - k < 10 ^ 7 := fun k => by omega
  have lengths := (Collation.padded_length (by decide) (fits p)).trans
    (Collation.padded_length (by decide) (fits q)).symm
  have lengths' := (Collation.padded_length (by decide) stored.width).trans
    (Collation.padded_length (by decide) stored'.width).symm
  have priority : (Collation.padded 7 (9999999 - p)).map Char.toNat <
      (Collation.padded 7 (9999999 - q)).map Char.toNat ↔ b.priority < a.priority := by
    rw [Collation.padded_lt_iff (by decide) (fits p) (fits q), stored.scaled, stored'.scaled,
      div_lt_div_iff_of_pos_right scale, Nat.cast_lt]
    have ceiling := stored.ceiling
    omega
  have same_priority : (Collation.padded 7 (9999999 - p)).map Char.toNat =
      (Collation.padded 7 (9999999 - q)).map Char.toNat ↔ a.priority = b.priority := by
    have toNat_injective : Function.Injective Char.toNat := fun _ _ => Char.toNat_inj.mp
    rw [stored.scaled, stored'.scaled, div_left_inj' (ne_of_gt scale), Nat.cast_inj,
      (List.map_injective_iff.mpr toNat_injective).eq_iff]
    have ceiling := stored.ceiling
    have ceiling' := stored'.ceiling
    constructor
    · intro same
      have complement := Collation.padded_injective same
      omega
    · intro same
      rw [same]
  have instant : (Collation.padded 15 m).map Char.toNat < (Collation.padded 15 n).map Char.toNat ↔
      a.createdAt < b.createdAt := by
    rw [Collation.padded_lt_iff (by decide) stored.width stored'.width, stored.instant,
      stored'.instant, Nat.cast_lt]
  have same_instant : (Collation.padded 15 m).map Char.toNat =
      (Collation.padded 15 n).map Char.toNat ↔ a.createdAt = b.createdAt := by
    have toNat_injective : Function.Injective Char.toNat := fun _ _ => Char.toNat_inj.mp
    rw [stored.instant, stored'.instant, Nat.cast_inj,
      (List.map_injective_iff.mpr toNat_injective).eq_iff]
    exact ⟨Collation.padded_injective, fun same => by rw [same]⟩
  have flag : ∀ ys ys' : List Nat, [if a.breached then 48 else 49, 124] ++ ys <
      [if b.breached then 48 else 49, 124] ++ ys' ↔
        (!a.breached) < (!b.breached) ∨ a.breached = b.breached ∧ ys < ys' := by
    intro ys ys'
    cases a.breached <;> cases b.breached <;> simp [List.cons_lt_cons_iff, Bool.lt_iff]
  have bar : ∀ ys ys' : List Nat, [124] ++ ys < [124] ++ ys' ↔ ys < ys' := by
    intro ys ys'
    simp
  rw [codeUnits_fields, codeUnits_fields, flag,
    Collation.append_lt_append_iff (by simpa using lengths), bar,
    Collation.append_lt_append_iff (by simpa using lengths'), bar,
    priority, same_priority, instant, same_instant]
  simp only [QueueKey.rank, Prod.Lex.toLex_lt_toLex, OrderDual.toDual_lt_toDual,
    OrderDual.toDual_inj, Bool.not_inj_iff]

theorem stored_le_iff {a b : QueueKey} {p q m n : Nat} (stored : Stored a p m)
    (stored' : Stored b q n) :
    codeUnits (String.ofList (fields a p m ++ a.id.toList)) ≤
        codeUnits (String.ofList (fields b q n ++ b.id.toList)) ↔
      a.rank ≤ b.rank := by
  rw [← not_lt, ← not_lt, stored_lt_iff stored' stored]

/-- The two comparators put two keys that encode in the same order. -/
theorem compareStoredRows_agrees {a b : QueueKey} {p q m n : Nat} (stored : Stored a p m)
    (stored' : Stored b q n) :
    ∃ order, compareStoredRows otherText a b = .ok order ∧
      (order ≤ 0 ↔ compareQueueKeys a b ≤ 0) := by
  refine ⟨_, by rw [compareStoredRows, storedCollationKey_ok otherText stored,
    storedCollationKey_ok otherText stored']; rfl, ?_⟩
  rw [compareTexts_nonpos, compareQueueKeys_nonpos]
  exact stored_le_iff stored stored'

/-! ### The stored reading -/

theorem queueKey_priority (features : QueueFeatures) (now : ℚ) (weights : Weights) :
    ∃ priority : Nat, (queueKey features now weights).priority = priority / priorityScale ∧
      priority ≤ 9999999 := by
  obtain ⟨low, high⟩ := score_bounds features now weights
  generalize read : (computePriority features now weights).score = score at low high
  have scale : (0 : ℚ) < priorityScale := by norm_num [priorityScale]
  have above : 0 ≤ ⌊score * priorityScale + 1 / 2⌋ := by
    refine Int.floor_nonneg.mpr ?_
    positivity
  have below : ⌊score * priorityScale + 1 / 2⌋ < 9999999 := by
    refine Int.floor_lt.mpr ?_
    norm_num [priorityScale, weightSumTolerance] at high ⊢
    linarith
  refine ⟨⌊score * priorityScale + 1 / 2⌋.toNat, ?_, by omega⟩
  have whole : ((⌊score * priorityScale + 1 / 2⌋.toNat : Nat) : ℚ) =
      ((⌊score * priorityScale + 1 / 2⌋ : Int) : ℚ) := by
    exact_mod_cast congrArg (Int.cast (R := ℚ)) (Int.toNat_of_nonneg above)
  rw [whole, ← read]
  rfl

theorem queueKey_stored (features : QueueFeatures) (now : ℚ) (weights : Weights) {createdAt : Nat}
    (instant : features.createdAt = createdAt) (width : createdAt < 10 ^ 15) :
    ∃ priority, Stored (queueKey features now weights) priority createdAt := by
  obtain ⟨priority, scaled, ceiling⟩ := queueKey_priority features now weights
  exact ⟨priority, scaled, ceiling, instant, width⟩

theorem mapM_ok {α β ε : Type*} {f : α → Except ε β} {g : α → β} {l : List α}
    (ok : ∀ a ∈ l, f a = .ok (g a)) : l.mapM f = .ok (l.map g) := by
  induction l with
  | nil => rfl
  | cons a l ih =>
    have rest := ih fun b member => ok b (List.mem_cons_of_mem a member)
    rw [List.mapM_cons, ok a List.mem_cons_self, rest]
    rfl

theorem mapM_error {α β ε : Type*} {f : α → Except ε β} {l : List α} {a : α} (member : a ∈ l)
    (fails : ∀ b, f a ≠ .ok b) : ∃ b ∈ l, ∃ e, f b = .error e ∧ l.mapM f = .error e := by
  induction l with
  | nil => cases member
  | cons first l ih =>
    rw [List.mapM_cons]
    cases here : f first with
    | error e => exact ⟨first, List.mem_cons_self, e, here, rfl⟩
    | ok b =>
      have later : a ∈ l := by
        rcases List.mem_cons.mp member with rfl | later
        · exact absurd here (fails b)
        · exact later
      obtain ⟨failing, known, e, failed, run⟩ := ih later
      exact ⟨failing, List.mem_cons_of_mem first known, e, failed, by rw [run]; rfl⟩

/-- A ticket whose creation instant fits the column. -/
def FitsColumn (ticket : QueueFeatures) : Prop := ∃ n : Nat, ticket.createdAt = n ∧ n < 10 ^ 15

theorem orderQueue_short {tickets : List SimTicket} (short : tickets.length < 2) (now : ℚ)
    (weights : Weights) : orderQueue SimTicket.toQueueFeatures tickets now weights = tickets := by
  have perm := orderQueue_perm SimTicket.toQueueFeatures tickets now weights
  match tickets with
  | [] => exact perm.eq_nil
  | [ticket] => exact List.perm_singleton.mp perm
  | _ :: _ :: _ => exact absurd short (by simp)

theorem storedOrder_ok {tickets : List SimTicket} (now : ℚ) (weights : Weights)
    (fit : tickets.length < 2 ∨ ∀ ticket ∈ tickets, FitsColumn ticket.toQueueFeatures) :
    storedOrder otherText tickets now weights =
      .ok ((orderQueue SimTicket.toQueueFeatures tickets now weights).map fun ticket => ticket.id) := by
  by_cases short : tickets.length < 2
  · simp only [storedOrder, List.length_map, if_pos short, orderQueue_short short]
    simp [Function.comp_def]
  · have fits := fit.resolve_left short
    let text : QueueKey → String := fun key => (storedCollationKey otherText key).toOption.getD ""
    have encodes : ∀ row ∈ tickets.map
          (fun ticket => (ticket, queueKey ticket.toQueueFeatures now weights)),
        ∃ p n, Stored row.2 p n ∧
          text row.2 = String.ofList (fields row.2 p n ++ row.2.id.toList) := by
      intro row member
      obtain ⟨ticket, known, rfl⟩ := List.mem_map.mp member
      obtain ⟨n, instant, width⟩ := fits ticket known
      obtain ⟨p, stored⟩ := queueKey_stored ticket.toQueueFeatures now weights instant width
      exact ⟨p, n, stored, by simp only [text, storedCollationKey_ok otherText stored]; rfl⟩
    have texts : (tickets.map fun ticket =>
          (ticket.id, queueKey ticket.toQueueFeatures now weights)).mapM
        (fun row => do
          let text ← storedCollationKey otherText row.2
          return (row.1, text)) =
        .ok ((tickets.map fun ticket => (ticket, queueKey ticket.toQueueFeatures now weights)).map
          fun row => (row.1.id, text row.2)) := by
      rw [mapM_ok (g := fun row => (row.1, text row.2))]
      · simp [Function.comp_def]
      · intro row member
        obtain ⟨ticket, known, rfl⟩ := List.mem_map.mp member
        obtain ⟨p, n, stored, -⟩ := encodes _ (List.mem_map_of_mem known)
        simp only [text, storedCollationKey_ok otherText stored]
        rfl
    have agree := List.map_mergeSort
      (r := fun a b : SimTicket × QueueKey => decide (compareQueueKeys a.2 b.2 ≤ 0))
      (s := fun a b : String × String => decide (compareTexts a.2 b.2 ≤ 0))
      (f := fun row : SimTicket × QueueKey => (row.1.id, text row.2))
      (l := tickets.map fun ticket => (ticket, queueKey ticket.toQueueFeatures now weights)) (by
        intro a in_a b in_b
        obtain ⟨p, m, stored, read⟩ := encodes a in_a
        obtain ⟨q, n, stored', read'⟩ := encodes b in_b
        rw [decide_eq_decide, compareQueueKeys_nonpos, compareTexts_nonpos, read, read']
        exact (stored_le_iff stored stored').symm)
    simp only [storedOrder, List.length_map, if_neg short, texts]
    show Except.ok _ = _
    rw [← agree, List.map_map, orderQueue, List.map_map]
    rfl

/-- A creation instant is all a key of the queue can fail to encode on. -/
theorem storedCollationKey_error {features : QueueFeatures} {now : ℚ} {weights : Weights}
    {error : RangeError}
    (refused : storedCollationKey otherText (queueKey features now weights) = .error error) :
    error = .storedCreatedAt features.createdAt := by
  obtain ⟨priority, scaled, ceiling⟩ := queueKey_priority features now weights
  have fits : ¬ ((priority : Int) < 0 ∨ collationPriorityCeiling < (priority : Int)) := by
    rw [collationPriorityCeiling]
    omega
  simp only [storedCollationKey, scaled, round_scaled, if_neg fits] at refused
  split at refused
  · cases refused
    rfl
  · cases refused

/-- One creation instant before the epoch, or of more than fifteen digits, fails the whole sort. -/
theorem storedOrder_refused {tickets : List SimTicket} (now : ℚ) (weights : Weights)
    (long : 2 ≤ tickets.length) {ticket : SimTicket} (member : ticket ∈ tickets)
    (outside : ticket.createdAt < 0 ∨
      ∃ n : Nat, ticket.createdAt = n ∧ 10 ^ 15 ≤ n ∧ n < 10 ^ 21) :
    ∃ refused ∈ tickets, storedOrder otherText tickets now weights =
      .error (.storedCreatedAt refused.createdAt) := by
  have fails : ∀ text,
      storedCollationKey otherText (queueKey ticket.toQueueFeatures now weights) ≠ .ok text := by
    have guard : (queueKey ticket.toQueueFeatures now weights).createdAt < 0 ∨ collationTimeWidth <
        (numberText otherText (queueKey ticket.toQueueFeatures now weights).createdAt).length := by
      rcases outside with negative | ⟨n, instant, wide, small⟩
      · exact .inl negative
      · right
        have text : numberText otherText
            (queueKey ticket.toQueueFeatures now weights).createdAt = n.repr := by
          rw [← numberText_nat otherText n small, ← instant]
          rfl
        have digits := mt (Nat.length_repr_le_iff (n := n) (k := 15) (by decide)).mp
          (not_lt.mpr wide)
        rw [text, collationTimeWidth]
        omega
    intro text encoded
    simp only [storedCollationKey, if_pos guard] at encoded
    split at encoded <;> cases encoded
  have row : (ticket.id, queueKey ticket.toQueueFeatures now weights) ∈
      tickets.map fun ticket => (ticket.id, queueKey ticket.toQueueFeatures now weights) :=
    List.mem_map_of_mem member
  obtain ⟨failing, known, error, failed, run⟩ := mapM_error (f := fun row => do
    let text ← storedCollationKey otherText row.2
    return (row.1, text)) row (by
      intro b ok
      cases encoded : storedCollationKey otherText (queueKey ticket.toQueueFeatures now weights) with
      | ok text => exact fails text encoded
      | error e =>
        simp only [encoded] at ok
        cases ok)
  obtain ⟨refused, in_list, rfl⟩ := List.mem_map.mp known
  have cause : error = .storedCreatedAt refused.createdAt := by
    cases encoded : storedCollationKey otherText (queueKey refused.toQueueFeatures now weights) with
    | ok text =>
      simp only [encoded] at failed
      cases failed
    | error e =>
      simp only [encoded] at failed
      cases failed
      exact storedCollationKey_error otherText encoded
  have short : ¬ tickets.length < 2 := not_lt.mpr long
  refine ⟨refused, in_list, ?_⟩
  simp only [storedOrder, List.length_map, if_neg short, run, cause]
  rfl

end Stored

end LedgerDesk.Queue
