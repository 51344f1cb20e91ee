import Mathlib

/-!
# Patterns with a preference

A pattern tried at a place of a text gives the places where it may end, the preferred one first. It
may look behind itself, and it does so from the right to the left.
-/
namespace Foundation

variable {α : Type*}

/-- A place of a text: what has been passed, the last of it first, and what is ahead. -/
@[ext] structure Place (α : Type*) where
  passed : List α
  ahead : List α
  deriving DecidableEq

namespace Place

/-- The same place, walked the other way. -/
def flip (x : Place α) : Place α := ⟨x.ahead, x.passed⟩

/-- The place with more text in front of what has been passed. -/
def after (front : List α) (x : Place α) : Place α := ⟨x.passed ++ front, x.ahead⟩

/-- The place with more text behind what is ahead. -/
def followedBy (back : List α) (x : Place α) : Place α := ⟨x.passed, x.ahead ++ back⟩

end Place

inductive Regex (α : Type*) where
  | empty
  | set (p : α → Bool)
  | seq (r s : Regex α)
  | alt (r s : Regex α)
  /-- From `lo` to `hi` times, as often as it goes. -/
  | times (lo : Nat) (hi : Option Nat) (r : Regex α)
  | boundary

namespace Regex

/-- The pattern for who reads from the right to the left. -/
def reversed : Regex α → Regex α
  | empty => empty
  | set p => set p
  | seq r s => seq s.reversed r.reversed
  | alt r s => alt r.reversed s.reversed
  | times lo hi r => times lo hi r.reversed
  | boundary => boundary

/-- The pattern takes at least one letter. -/
def consuming : Regex α → Bool
  | empty => false
  | set _ => true
  | seq r s => r.consuming || s.consuming
  | alt r s => r.consuming && s.consuming
  | times lo _ r => 0 < lo && r.consuming
  | boundary => false

/-- The letter is one that the pattern may take. -/
def mayTake (c : α) : Regex α → Bool
  | empty => false
  | set p => p c
  | seq r s => r.mayTake c || s.mayTake c
  | alt r s => r.mayTake c || s.mayTake c
  | times _ _ r => r.mayTake c
  | boundary => false

/-- What the pattern can take, wherever it stands. -/
def Spells : Regex α → List α → Prop
  | empty, m => m = []
  | set p, m => ∃ c, p c = true ∧ m = [c]
  | seq r s, m => ∃ m₁ m₂, r.Spells m₁ ∧ s.Spells m₂ ∧ m = m₁ ++ m₂
  | alt r s, m => r.Spells m ∨ s.Spells m
  | times lo hi r, m => ∃ parts : List (List α), lo ≤ parts.length ∧
      (∀ n ∈ hi, parts.length ≤ max lo n) ∧ (∀ part ∈ parts, r.Spells part) ∧ m = parts.flatten
  | boundary, m => m = []

/-- The pattern takes a letter of the kind, whatever it takes. -/
def Needs (kind : α → Prop) : Regex α → Prop
  | empty => False
  | set p => ∀ c, p c = true → kind c
  | seq r s => r.Needs kind ∨ s.Needs kind
  | alt r s => r.Needs kind ∧ s.Needs kind
  | times lo _ r => 0 < lo ∧ r.Needs kind
  | boundary => False

section Ends

def exactly (f : Place α → List (Place α)) : Nat → Place α → List (Place α)
  | 0, x => [x]
  | n + 1, x => (f x).flatMap (exactly f n)

/-- As often as it goes; a turn that takes nothing does not count. -/
def atMost (f : Place α → List (Place α)) : Nat → Place α → List (Place α)
  | 0, x => [x]
  | n + 1, x =>
    ((f x).filter fun y => y.ahead.length < x.ahead.length).flatMap (atMost f n) ++ [x]

variable (word : α → Bool)

/-- Where the pattern may end, the preferred place first. -/
def ends : Regex α → Place α → List (Place α)
  | empty, x => [x]
  | set p, x =>
    match x.ahead with
    | c :: s => if p c then [⟨c :: x.passed, s⟩] else []
    | [] => []
  | seq r s, x => (r.ends x).flatMap s.ends
  | alt r s, x => r.ends x ++ s.ends x
  | times lo hi r, x =>
    (exactly r.ends lo x).flatMap fun y =>
      atMost r.ends ((hi.map (· - lo)).getD y.ahead.length) y
  | boundary, x => if x.passed.head?.any word != x.ahead.head?.any word then [x] else []

end Ends

/-! ### What a pattern takes -/

section Spelling

variable {word : α → Bool} {r : Regex α}

/-- The second place lies ahead of the first by a text of the kind. -/
def Walks (kind : List α → Prop) (x y : Place α) : Prop :=
  ∃ m, kind m ∧ x.ahead = m ++ y.ahead ∧ y.passed = m.reverse ++ x.passed

theorem Walks.refl {kind : List α → Prop} (stays : kind []) (x : Place α) : Walks kind x x :=
  ⟨[], stays, rfl, rfl⟩

theorem Walks.trans {kind₁ kind₂ kind : List α → Prop} {x y z : Place α} (first : Walks kind₁ x y)
    (second : Walks kind₂ y z) (both : ∀ m₁ m₂, kind₁ m₁ → kind₂ m₂ → kind (m₁ ++ m₂)) :
    Walks kind x z := by
  obtain ⟨m₁, of₁, ahead₁, passed₁⟩ := first
  obtain ⟨m₂, of₂, ahead₂, passed₂⟩ := second
  refine ⟨m₁ ++ m₂, both m₁ m₂ of₁ of₂, ?_, ?_⟩
  · rw [ahead₁, ahead₂, List.append_assoc]
  · rw [passed₂, passed₁, List.reverse_append, List.append_assoc]

theorem Walks.mono {kind kind' : List α → Prop} {x y : Place α} (walks : Walks kind x y)
    (weaker : ∀ m, kind m → kind' m) : Walks kind' x y := by
  obtain ⟨m, of, places⟩ := walks
  exact ⟨m, weaker m of, places⟩

theorem walks_exactly {f : Place α → List (Place α)} {kind : List α → Prop}
    (step : ∀ x, ∀ y ∈ f x, Walks kind x y) (n : Nat) :
    ∀ x, ∀ y ∈ exactly f n x, Walks (fun m => ∃ parts : List (List α), parts.length = n ∧
      (∀ part ∈ parts, kind part) ∧ m = parts.flatten) x y := by
  induction n with
  | zero =>
    intro x y member
    rw [List.mem_singleton.mp member]
    exact .refl ⟨[], rfl, nofun, rfl⟩ x
  | succ n ih =>
    intro x y member
    obtain ⟨z, first, later⟩ := List.mem_flatMap.mp member
    refine (step x z first).trans (ih z y later) ?_
    rintro part m of ⟨parts, rfl, all, rfl⟩
    exact ⟨part :: parts, rfl, List.forall_mem_cons.mpr ⟨of, all⟩, rfl⟩

theorem walks_atMost {f : Place α → List (Place α)} {kind : List α → Prop}
    (step : ∀ x, ∀ y ∈ f x, Walks kind x y) (n : Nat) :
    ∀ x, ∀ y ∈ atMost f n x, Walks (fun m => ∃ parts : List (List α), parts.length ≤ n ∧
      (∀ part ∈ parts, kind part) ∧ m = parts.flatten) x y := by
  induction n with
  | zero =>
    intro x y member
    rw [List.mem_singleton.mp member]
    exact .refl ⟨[], le_refl _, nofun, rfl⟩ x
  | succ n ih =>
    intro x y member
    rcases List.mem_append.mp member with more | stops
    · obtain ⟨z, first, later⟩ := List.mem_flatMap.mp more
      refine (step x z (List.mem_filter.mp first).1).trans (ih z y later) ?_
      rintro part m of ⟨parts, few, all, rfl⟩
      exact ⟨part :: parts, Nat.succ_le_succ few, List.forall_mem_cons.mpr ⟨of, all⟩, rfl⟩
    · rw [List.mem_singleton.mp stops]
      exact .refl ⟨[], Nat.zero_le _, nofun, rfl⟩ x

theorem walks_of_mem_ends (x y : Place α) (member : y ∈ r.ends word x) : Walks r.Spells x y := by
  induction r generalizing x y with
  | empty =>
    rw [List.mem_singleton.mp member]
    exact ⟨[], rfl, rfl, rfl⟩
  | set p =>
    obtain ⟨passed, ahead⟩ := x
    cases ahead with
    | nil => cases member
    | cons c ahead =>
      simp only [ends] at member
      split at member
      · rw [List.mem_singleton.mp member]
        exact ⟨[c], ⟨c, ‹_›, rfl⟩, rfl, rfl⟩
      · cases member
  | seq r s ihr ihs =>
    obtain ⟨z, first, later⟩ := List.mem_flatMap.mp member
    exact (ihr x z first).trans (ihs z y later) fun m₁ m₂ of₁ of₂ => ⟨m₁, m₂, of₁, of₂, rfl⟩
  | alt r s ihr ihs =>
    rcases List.mem_append.mp member with left | right
    · exact (ihr x y left).mono fun _ => .inl
    · exact (ihs x y right).mono fun _ => .inr
  | times lo hi r ih =>
    obtain ⟨z, first, later⟩ := List.mem_flatMap.mp member
    refine (walks_exactly ih lo x z first).trans (walks_atMost ih _ z y later) ?_
    rintro m₁ m₂ ⟨parts₁, long₁, all₁, rfl⟩ ⟨parts₂, long₂, all₂, rfl⟩
    refine ⟨parts₁ ++ parts₂, ?_, ?_, ?_, List.flatten_append.symm⟩
    · rw [List.length_append]
      omega
    · rintro n rfl
      simp only [Option.map_some, Option.getD_some] at long₂
      rw [List.length_append]
      omega
    · exact List.forall_mem_append.mpr ⟨all₁, all₂⟩
  | boundary =>
    simp only [ends] at member
    split at member
    · rw [List.mem_singleton.mp member]
      exact ⟨[], rfl, rfl, rfl⟩
    · cases member

theorem mayTake_of_spells {m : List α} (spells : r.Spells m) : ∀ c ∈ m, r.mayTake c = true := by
  induction r generalizing m with
  | empty => rw [show m = [] from spells]; nofun
  | set p =>
    obtain ⟨c, accepted, rfl⟩ := spells
    intro d member
    rwa [List.mem_singleton.mp member]
  | seq r s ihr ihs =>
    obtain ⟨m₁, m₂, of₁, of₂, rfl⟩ := spells
    intro c member
    rw [mayTake, Bool.or_eq_true]
    exact (List.mem_append.mp member).imp (ihr of₁ c) (ihs of₂ c)
  | alt r s ihr ihs =>
    intro c member
    rw [mayTake, Bool.or_eq_true]
    exact spells.imp (fun of => ihr of c member) fun of => ihs of c member
  | times lo hi r ih =>
    obtain ⟨parts, -, -, all, rfl⟩ := spells
    intro c member
    obtain ⟨part, among, inside⟩ := List.mem_flatten.mp member
    exact ih (all part among) c inside
  | boundary => rw [show m = [] from spells]; nofun

@[simp] theorem mayTake_reversed (c : α) : r.reversed.mayTake c = r.mayTake c := by
  induction r with
  | seq r s ihr ihs => rw [reversed, mayTake, mayTake, ihr, ihs, Bool.or_comm]
  | alt r s ihr ihs => rw [reversed, mayTake, mayTake, ihr, ihs]
  | times lo hi r ih => exact ih
  | _ => rfl

theorem ne_nil_of_spells {m : List α} (consumes : r.consuming = true) (spells : r.Spells m) :
    m ≠ [] := by
  induction r generalizing m with
  | empty => cases consumes
  | set p =>
    obtain ⟨c, -, rfl⟩ := spells
    exact List.cons_ne_nil c []
  | seq r s ihr ihs =>
    obtain ⟨m₁, m₂, of₁, of₂, rfl⟩ := spells
    rw [consuming, Bool.or_eq_true] at consumes
    rcases consumes with first | second
    · exact List.append_ne_nil_of_left_ne_nil (ihr first of₁) m₂
    · exact List.append_ne_nil_of_right_ne_nil m₁ (ihs second of₂)
  | alt r s ihr ihs =>
    rw [consuming, Bool.and_eq_true] at consumes
    rcases spells with of | of
    · exact ihr consumes.1 of
    · exact ihs consumes.2 of
  | times lo hi r ih =>
    obtain ⟨parts, enough, -, all, rfl⟩ := spells
    rw [consuming, Bool.and_eq_true, decide_eq_true_eq] at consumes
    cases parts with
    | nil => exact absurd consumes.1 (Nat.not_lt.mpr enough)
    | cons part parts =>
      have first := ih consumes.2 (all part List.mem_cons_self)
      exact List.append_ne_nil_of_left_ne_nil first parts.flatten
  | boundary => cases consumes

theorem exists_of_needs {kind : α → Prop} {m : List α} (needs : r.Needs kind)
    (spells : r.Spells m) : ∃ c ∈ m, kind c := by
  induction r generalizing m with
  | empty => cases needs
  | set p =>
    obtain ⟨c, accepted, rfl⟩ := spells
    exact ⟨c, List.mem_cons_self, needs c accepted⟩
  | seq r s ihr ihs =>
    obtain ⟨m₁, m₂, of₁, of₂, rfl⟩ := spells
    rcases needs with first | second
    · obtain ⟨c, member, of⟩ := ihr first of₁
      exact ⟨c, List.mem_append_left m₂ member, of⟩
    · obtain ⟨c, member, of⟩ := ihs second of₂
      exact ⟨c, List.mem_append_right m₁ member, of⟩
  | alt r s ihr ihs =>
    rcases spells with of | of
    · exact ihr needs.1 of
    · exact ihs needs.2 of
  | times lo hi r ih =>
    obtain ⟨parts, enough, -, all, rfl⟩ := spells
    cases parts with
    | nil => exact absurd needs.1 (Nat.not_lt.mpr enough)
    | cons part parts =>
      obtain ⟨c, member, of⟩ := ih needs.2 (all part List.mem_cons_self)
      exact ⟨c, List.mem_append_left _ member, of⟩
  | boundary => cases needs

end Spelling

/-! ### Where only one way leads on -/

section Straight

variable {word : α → Bool}

theorem exactly_straight {f : Place α → List (Place α)} {parts : List (List α)}
    (step : ∀ part ∈ parts, ∀ passed rest, f ⟨passed, part ++ rest⟩ = [⟨part.reverse ++ passed, rest⟩])
    (passed rest : List α) :
    exactly f parts.length ⟨passed, parts.flatten ++ rest⟩ =
      [⟨parts.flatten.reverse ++ passed, rest⟩] := by
  induction parts generalizing passed with
  | nil => rfl
  | cons part parts ih =>
    obtain ⟨here, later⟩ := List.forall_mem_cons.mp step
    rw [List.length_cons, List.flatten_cons, exactly, List.append_assoc, here,
      List.flatMap_singleton, ih later, List.reverse_append, List.append_assoc]

theorem ends_letter {p : α → Bool} {c : α} (accepted : p c = true) (passed rest : List α) :
    (set p).ends word ⟨passed, [c] ++ rest⟩ = [⟨[c].reverse ++ passed, rest⟩] := by
  simp [ends, accepted]

/-- So many letters of a set, and no more. -/
theorem ends_exactly_set {p : α → Bool} {m : List α} (all : ∀ c ∈ m, p c = true)
    (passed rest : List α) :
    (times m.length (some m.length) (set p)).ends word ⟨passed, m ++ rest⟩ =
      [⟨m.reverse ++ passed, rest⟩] := by
  have letters : (m.map fun c => [c]).flatten = m := by
    rw [← List.flatMap_def, List.flatMap_singleton']
  have step : ∀ part ∈ m.map fun c => [c], ∀ passed rest,
      (set p).ends word ⟨passed, part ++ rest⟩ = [⟨part.reverse ++ passed, rest⟩] := by
    intro part member
    obtain ⟨c, among, rfl⟩ := List.mem_map.mp member
    exact ends_letter (all c among)
  have straight := exactly_straight step passed rest
  rw [letters, List.length_map] at straight
  rw [ends, straight]
  simp [atMost]

end Straight

/-! ### More text around a place -/

section Around

variable {word : α → Bool} {r : Regex α}

/-- At the end of the text no turn counts. -/
theorem atMost_end (f : Place α → List (Place α)) (n : Nat) {x : Place α} (ended : x.ahead = []) :
    atMost f n x = [x] := by
  cases n with
  | zero => rfl
  | succ n => simp [atMost, ended]

/-- Turns beyond what is ahead change nothing. -/
theorem atMost_stable (f : Place α → List (Place α)) {m n : Nat} {x : Place α}
    (enough : x.ahead.length ≤ m) (enough' : x.ahead.length ≤ n) : atMost f m x = atMost f n x := by
  induction m generalizing n x with
  | zero => rw [atMost_end f n (List.length_eq_zero_iff.mp (Nat.le_zero.mp enough))]; rfl
  | succ m ih =>
    cases n with
    | zero => rw [atMost_end f _ (List.length_eq_zero_iff.mp (Nat.le_zero.mp enough'))]; rfl
    | succ n =>
      rw [atMost, atMost]
      congr 1
      refine List.flatMap_congr fun y member => ?_
      have shorter := of_decide_eq_true (List.mem_filter.mp member).2
      exact ih (by omega) (by omega)

/-- A change of places that a step of the pattern does not see. -/
structure Unseen (φ : Place α → Place α) (inside : Place α → Prop) (extra : Nat) : Prop where
  length : ∀ x, (φ x).ahead.length = x.ahead.length + extra
  stays : ∀ kind : List α → Prop, ∀ x y, Walks kind x y → inside x → inside y

def Commutes (φ : Place α → Place α) (inside : Place α → Prop)
    (f : Place α → List (Place α)) : Prop :=
  ∀ x, inside x → f (φ x) = (f x).map φ

theorem Commutes.flatMap {φ : Place α → Place α} {inside : Place α → Prop}
    {f g : Place α → List (Place α)} (first : Commutes φ inside f) (second : Commutes φ inside g)
    (stays : ∀ x, inside x → ∀ y ∈ f x, inside y) :
    Commutes φ inside fun x => (f x).flatMap g := by
  intro x within
  simp only [first x within, List.flatMap_map, List.map_flatMap]
  exact List.flatMap_congr fun y member => second y (stays x within y member)

theorem Commutes.exactly {φ : Place α → Place α} {inside : Place α → Prop}
    {f : Place α → List (Place α)} (step : Commutes φ inside f)
    (stays : ∀ x, inside x → ∀ y ∈ f x, inside y) (n : Nat) :
    Commutes φ inside (exactly f n) := by
  induction n with
  | zero => exact fun x _ => rfl
  | succ n ih => exact step.flatMap ih stays

theorem Commutes.atMost {φ : Place α → Place α} {inside : Place α → Prop} {extra : Nat}
    {f : Place α → List (Place α)} (step : Commutes φ inside f)
    (length : ∀ x, (φ x).ahead.length = x.ahead.length + extra)
    (stays : ∀ x, inside x → ∀ y ∈ f x, inside y) (n : Nat) :
    Commutes φ inside (atMost f n) := by
  induction n with
  | zero => exact fun x _ => rfl
  | succ n ih =>
    intro x within
    have shorter : ((fun y : Place α => decide (y.ahead.length < (φ x).ahead.length)) ∘ φ) =
        fun y => decide (y.ahead.length < x.ahead.length) := by
      funext y
      simp [length]
    simp only [Regex.atMost, step x within, List.filter_map, shorter, List.flatMap_map,
      List.map_append, List.map_flatMap, List.map_cons, List.map_nil]
    congr 1
    refine List.flatMap_congr fun y member => ih y ?_
    exact stays x within y (List.mem_filter.mp member).1

/-- The change is not seen by the pattern if none of its letters and boundaries sees it. -/
theorem commutes_ends {φ : Place α → Place α} {inside : Place α → Prop} {extra : Nat}
    (unseen : Unseen φ inside extra)
    (letter : ∀ p : α → Bool, (∀ c, p c = true → r.mayTake c = true) →
      Commutes φ inside (ends word (set p)))
    (edge : Commutes φ inside (ends word boundary)) : Commutes φ inside (r.ends word) := by
  have kept : ∀ (s : Regex α) x, inside x → ∀ y ∈ s.ends word x, inside y :=
    fun s x within y member => unseen.stays _ x y (walks_of_mem_ends x y member) within
  induction r with
  | empty => exact fun x _ => rfl
  | set p => exact letter p fun c accepted => accepted
  | seq r s ihr ihs =>
    refine (ihr fun p among => letter p fun c of => ?_).flatMap
      (ihs fun p among => letter p fun c of => ?_) (kept r)
    · rw [mayTake, among c of, Bool.true_or]
    · rw [mayTake, among c of, Bool.or_true]
  | alt r s ihr ihs =>
    intro x within
    have left := ihr (fun p among => letter p fun c of => by rw [mayTake, among c of, Bool.true_or])
    have right := ihs (fun p among => letter p fun c of => by rw [mayTake, among c of, Bool.or_true])
    rw [ends, ends, left x within, right x within, List.map_append]
  | times lo hi r ih =>
    have step := ih fun p among => letter p among
    have turns : Commutes φ inside fun y =>
        atMost (r.ends word) ((hi.map (· - lo)).getD y.ahead.length) y := by
      intro y within
      cases hi with
      | some n => exact step.atMost unseen.length (kept r) _ y within
      | none =>
        have enough := unseen.length y
        simp only [Option.map_none, Option.getD_none]
        rw [step.atMost unseen.length (kept r) _ y within,
          atMost_stable (r.ends word) (by omega) (le_refl y.ahead.length)]
    exact (step.exactly (kept r) lo).flatMap turns fun x within y member => by
      exact unseen.stays _ x y (walks_exactly (walks_of_mem_ends (r := r)) lo x y member) within
  | boundary => exact edge

theorem commutes_boundary {φ : Place α → Place α} {x : Place α}
    (back : (φ x).passed.head?.any word = x.passed.head?.any word)
    (front : (φ x).ahead.head?.any word = x.ahead.head?.any word) :
    ends word boundary (φ x) = (ends word boundary x).map φ := by
  simp only [ends, back, front]
  split
  · rfl
  · rfl

/-- Text further back is not seen from a place that has passed a letter, nor when what it ends in is
no part of a word. -/
theorem ends_after (front : List α) (x : Place α)
    (apart : x.passed ≠ [] ∨ front.head?.any word = false) :
    r.ends word (x.after front) = (r.ends word x).map (Place.after front) := by
  have unseen : Unseen (Place.after front)
      (fun x => x.passed ≠ [] ∨ front.head?.any word = false) 0 := by
    refine ⟨fun x => rfl, ?_⟩
    rintro kind x y ⟨m, -, -, passed⟩ (some | none)
    · exact .inl (by rw [passed]; exact List.append_ne_nil_of_right_ne_nil _ some)
    · exact .inr none
  refine commutes_ends unseen ?_ ?_ x apart
  · rintro p - ⟨passed, ahead⟩ -
    cases ahead with
    | nil => rfl
    | cons c ahead =>
      simp only [ends, Place.after]
      split <;> rfl
  · intro x apart
    have edge : (x.after front).passed.head?.any word = x.passed.head?.any word := by
      obtain ⟨passed, ahead⟩ := x
      cases passed with
      | nil => simpa [Place.after] using apart
      | cons c passed => rfl
    exact commutes_boundary edge rfl

theorem boundary_followedBy {n : α} (outside : word n = false) (back : List α) (x : Place α) :
    ends word boundary (x.followedBy (n :: back)) =
      (ends word boundary x).map (Place.followedBy (n :: back)) := by
  refine commutes_boundary rfl ?_
  obtain ⟨passed, ahead⟩ := x
  cases ahead with
  | nil => simp [Place.followedBy, outside]
  | cons c ahead => rfl

/-- Text further ahead is not seen by a pattern that cannot take its first letter. -/
theorem ends_followedBy {n : α} (back : List α) (x : Place α) (avoids : r.mayTake n = false)
    (outside : word n = false) :
    r.ends word (x.followedBy (n :: back)) =
      (r.ends word x).map (Place.followedBy (n :: back)) := by
  have unseen : Unseen (Place.followedBy (n :: back)) (fun _ => True) (n :: back).length :=
    ⟨fun x => by rw [Place.followedBy, List.length_append], fun _ _ _ _ _ => trivial⟩
  refine commutes_ends unseen ?_ ?_ x trivial
  · rintro p among ⟨passed, ahead⟩ -
    cases ahead with
    | nil =>
      have refused : p n = false := by
        by_contra accepted
        rw [among n (by simpa using accepted)] at avoids
        cases avoids
      simp [ends, Place.followedBy, refused]
    | cons c ahead =>
      simp only [ends, Place.followedBy, List.cons_append]
      split <;> rfl
  · exact fun x _ => boundary_followedBy outside back x

/-- What has been reached before the end of the text is reached with more text behind. -/
def Local (back : List α) (f : Place α → List (Place α)) : Prop :=
  ∀ x z, z.followedBy back ∈ f (x.followedBy back) ↔ z ∈ f x

theorem Walks.before {back : List α} {y z : Place α} {kind : List α → Prop}
    (later : Walks kind y (z.followedBy back)) : ∃ w : Place α, y = w.followedBy back := by
  obtain ⟨m, -, ahead, -⟩ := later
  refine ⟨⟨y.passed, m ++ z.ahead⟩, ?_⟩
  rw [Place.ext_iff]
  exact ⟨rfl, ahead.trans (List.append_assoc ..).symm⟩

theorem followedBy_inj {back : List α} {x y : Place α} :
    x.followedBy back = y.followedBy back ↔ x = y := by
  rw [Place.ext_iff, Place.ext_iff]
  simp [Place.followedBy]

theorem Local.flatMap {back : List α} {f g : Place α → List (Place α)} (first : Local back f)
    (second : Local back g) (walks : ∀ x, ∀ y ∈ g x, Walks (fun _ => True) x y) :
    Local back fun x => (f x).flatMap g := by
  intro x z
  rw [List.mem_flatMap, List.mem_flatMap]
  constructor
  · rintro ⟨y, here, there⟩
    obtain ⟨w, rfl⟩ := (walks y _ there).before
    exact ⟨w, (first x w).mp here, (second w z).mp there⟩
  · rintro ⟨w, here, there⟩
    exact ⟨w.followedBy back, (first x w).mpr here, (second w z).mpr there⟩

theorem Local.exactly {back : List α} {f : Place α → List (Place α)} (step : Local back f)
    (walks : ∀ x, ∀ y ∈ f x, Walks (fun _ => True) x y) (n : Nat) : Local back (exactly f n) := by
  induction n with
  | zero =>
    intro x z
    rw [Regex.exactly, Regex.exactly, List.mem_singleton, List.mem_singleton, followedBy_inj]
  | succ n ih =>
    refine step.flatMap ih fun x y member => ?_
    exact (walks_exactly walks n x y member).mono fun _ _ => trivial

theorem Local.atMost {back : List α} {f : Place α → List (Place α)} (step : Local back f)
    (walks : ∀ x, ∀ y ∈ f x, Walks (fun _ => True) x y) (n : Nat) : Local back (atMost f n) := by
  induction n with
  | zero =>
    intro x z
    rw [Regex.atMost, Regex.atMost, List.mem_singleton, List.mem_singleton, followedBy_inj]
  | succ n ih =>
    intro x z
    have turns : Local back fun x => ((f x).filter fun y =>
        y.ahead.length < x.ahead.length).flatMap (Regex.atMost f n) := by
      refine Local.flatMap (fun x z => ?_) ih fun x y member => ?_
      · rw [List.mem_filter, List.mem_filter, step x z]
        simp [Place.followedBy]
      · exact (walks_atMost walks n x y member).mono fun _ _ => trivial
    rw [Regex.atMost, Regex.atMost, List.mem_append, List.mem_append, List.mem_singleton,
      List.mem_singleton, followedBy_inj]
    exact or_congr_left (turns x z)

/-- What a pattern reaches before the end of the text, it reaches whatever stands behind the text,
if that begins with no letter of a word. -/
theorem local_ends {n : α} (outside : word n = false) (back : List α) :
    Local (n :: back) (r.ends word) := by
  have any : ∀ (s : Regex α) x, ∀ y ∈ s.ends word x, Walks (fun _ => True) x y :=
    fun s x y member => (walks_of_mem_ends x y member).mono fun _ _ => trivial
  induction r with
  | empty =>
    intro x z
    rw [ends, ends, List.mem_singleton, List.mem_singleton, followedBy_inj]
  | set p =>
    rintro ⟨passed, ahead⟩ z
    cases ahead with
    | nil =>
      simp only [ends, Place.followedBy, List.nil_append]
      split
      · rw [List.mem_singleton]
        refine iff_of_false (fun same => ?_) (List.not_mem_nil)
        have longer := congrArg (fun x => x.ahead.length) same
        simp only [List.length_append, List.length_cons] at longer
        omega
      · exact iff_of_false List.not_mem_nil List.not_mem_nil
    | cons c ahead =>
      simp only [ends, Place.followedBy, List.cons_append]
      split
      · simp [Place.ext_iff]
      · simp
  | seq r s ihr ihs => exact ihr.flatMap ihs (any s)
  | alt r s ihr ihs =>
    intro x z
    rw [ends, ends, List.mem_append, List.mem_append, ihr x z, ihs x z]
  | times lo hi r ih =>
    have turns : Local (n :: back) fun y =>
        Regex.atMost (r.ends word) ((hi.map (· - lo)).getD y.ahead.length) y := by
      intro y z
      cases hi with
      | some most => exact ih.atMost (any r) _ y z
      | none =>
        simp only [Option.map_none, Option.getD_none]
        rw [ih.atMost (any r), atMost_stable (r.ends word) _ (le_refl y.ahead.length)]
        simp [Place.followedBy]
    refine (ih.exactly (any r) lo).flatMap turns fun x y member => ?_
    exact (walks_atMost (any r) _ x y member).mono fun _ _ => trivial
  | boundary =>
    intro x z
    rw [boundary_followedBy outside back x, List.mem_map]
    simp only [followedBy_inj, exists_eq_right]

end Around

end Regex

end Foundation
