import Mathlib

/-!
# Checks in sequence

A guard passes or refuses, and what passes a sequence of guards passes each of them.
-/
namespace Foundation

variable {ε α β : Type*}

/-- Go on where the condition holds, refuse where it does not. -/
def ensure (condition : Bool) (refusal : ε) : Except ε Unit :=
  if condition then .ok () else .error refusal

/-- The same check of every element, up to the first refusal. -/
def checkEach (check : α → Except ε Unit) : List α → Except ε Unit
  | [] => .ok ()
  | a :: as =>
    match check a with
    | .ok () => checkEach check as
    | .error refusal => .error refusal

theorem ensure_eq_ok {condition : Bool} {refusal : ε} {u : Unit} :
    ensure condition refusal = .ok u ↔ condition = true := by
  rw [ensure]
  split <;> simp_all

theorem checkEach_eq_ok {check : α → Except ε Unit} {as : List α} {u : Unit} :
    checkEach check as = .ok u ↔ ∀ a ∈ as, check a = .ok () := by
  induction as with
  | nil => simp [checkEach]
  | cons a as ih =>
    rw [checkEach]
    split
    · next passed => simp [ih, passed]
    · next refusal refused => simp [refused]

/-- What comes out of a sequence of two came through both. -/
theorem except_bind_eq_ok {ε α β : Type} {x : Except ε α} {f : α → Except ε β} {b : β} :
    (x >>= f) = .ok b ↔ ∃ a, x = .ok a ∧ f a = .ok b := by
  cases x with
  | error refusal => simp [bind, Except.bind]
  | ok a => simp [bind, Except.bind]

theorem toOption_eq_some {ε α : Type} {x : Except ε α} {a : α} :
    x.toOption = some a ↔ x = .ok a := by
  cases x <;> simp [Except.toOption]

/-- A list is read item by item exactly if every item is. -/
theorem mapM_eq_ok {ε α β : Type} {f : α → Except ε β} {as : List α} {bs : List β} :
    as.mapM f = .ok bs ↔ List.Forall₂ (fun a b => f a = .ok b) as bs := by
  induction as generalizing bs with
  | nil =>
    rw [List.mapM_nil, List.forall₂_nil_left_iff]
    exact ⟨fun done => (Except.ok.inj done).symm, fun done => by rw [done]; rfl⟩
  | cons a as ih =>
    rw [List.mapM_cons, except_bind_eq_ok, List.forall₂_cons_left_iff]
    constructor
    · rintro ⟨b, read, rest⟩
      obtain ⟨bs', tail, done⟩ := except_bind_eq_ok.mp rest
      exact ⟨b, bs', read, ih.mp tail, (Except.ok.inj done).symm⟩
    · rintro ⟨b, bs', read, tail, rfl⟩
      exact ⟨b, read, except_bind_eq_ok.mpr ⟨bs', ih.mpr tail, rfl⟩⟩

/-- What comes of a fold went through its first item. -/
theorem foldlM_cons_eq_ok {ε α β : Type} {f : β → α → Except ε β} {b c : β} {a : α}
    {as : List α} :
    (a :: as).foldlM f b = .ok c ↔ ∃ b', f b a = .ok b' ∧ as.foldlM f b' = .ok c := by
  rw [List.foldlM_cons, except_bind_eq_ok]

/-- What every item is read as, the list is. -/
theorem map_eq_of_mapM {ε α β γ : Type} {f : α → Except ε β} {g : α → γ} {h : β → γ}
    {as : List α} {bs : List β} (read : as.mapM f = .ok bs)
    (each : ∀ a b, f a = .ok b → g a = h b) : as.map g = bs.map h := by
  have items := mapM_eq_ok.mp read
  induction items with
  | nil => rfl
  | @cons a b as bs one _ ih =>
    rw [List.map_cons, List.map_cons, each a b one, ih (mapM_eq_ok.mpr ‹_›)]

/-- Every item of a list that is read is read, as one of what comes of it. -/
theorem mem_of_mapM {ε α β : Type} {f : α → Except ε β} {as : List α} {bs : List β}
    (read : as.mapM f = .ok bs) {a : α} (member : a ∈ as) : ∃ b ∈ bs, f a = .ok b := by
  have items := mapM_eq_ok.mp read
  induction items with
  | nil => cases member
  | @cons a' b as bs one _ ih =>
    rcases List.mem_cons.mp member with rfl | tail
    · exact ⟨b, List.mem_cons_self, one⟩
    · obtain ⟨c, among, ok⟩ := ih (mapM_eq_ok.mpr ‹_›) tail
      exact ⟨c, List.mem_cons_of_mem b among, ok⟩

theorem exists_of_mapM {ε α β : Type} {f : α → Except ε β} {as : List α} {bs : List β}
    (read : as.mapM f = .ok bs) {a : α} (member : a ∈ as) : ∃ b, f a = .ok b := by
  obtain ⟨b, -, ok⟩ := mem_of_mapM read member
  exact ⟨b, ok⟩

/-- What comes of a list comes of one of its items. -/
theorem source_of_mapM {ε α β : Type} {f : α → Except ε β} {as : List α} {bs : List β}
    (read : as.mapM f = .ok bs) {b : β} (member : b ∈ bs) : ∃ a ∈ as, f a = .ok b := by
  have items := mapM_eq_ok.mp read
  induction items with
  | nil => cases member
  | @cons a b' as bs one _ ih =>
    rcases List.mem_cons.mp member with rfl | tail
    · exact ⟨a, List.mem_cons_self, one⟩
    · obtain ⟨c, among, ok⟩ := ih (mapM_eq_ok.mpr ‹_›) tail
      exact ⟨c, List.mem_cons_of_mem a among, ok⟩

/-- A list is read the same by what reads every item the same. -/
theorem mapM_of_mapM {ε ε' α β : Type} {f : α → Except ε β} {g : α → Except ε' β} {as : List α}
    {bs : List β} (read : as.mapM f = .ok bs)
    (each : ∀ a ∈ as, ∀ b ∈ bs, f a = .ok b → g a = .ok b) : as.mapM g = .ok bs := by
  have items := mapM_eq_ok.mp read
  rw [mapM_eq_ok]
  clear read
  induction items with
  | nil => exact .nil
  | cons one _ ih =>
    refine .cons (each _ List.mem_cons_self _ List.mem_cons_self one) (ih ?_)
    intro a member b among ok
    exact each a (List.mem_cons_of_mem _ member) b (List.mem_cons_of_mem _ among) ok

/-- A list whose items are all read is read. -/
theorem mapM_of_forall {ε α β : Type} {f : α → Except ε β} {g : α → β} {as : List α}
    (each : ∀ a ∈ as, f a = .ok (g a)) : as.mapM f = .ok (as.map g) := by
  induction as with
  | nil => rfl
  | cons a as ih =>
    have tail := ih fun b member => each b (List.mem_cons_of_mem a member)
    rw [List.mapM_cons, each a List.mem_cons_self, tail]
    rfl

end Foundation
