import Mathlib

/-!
# Tasks that wait

A task reads and writes a shared state and at times waits for an answer from outside. Between two
waits it runs alone: that is a turn. Other tasks take their turns while it waits, so what it finds
when it is resumed is a state of theirs.

The rules below are about one task. Those of `Fine` say what every write and every note of it is
like, whatever the others do; those of `Stops` and `Silent` say that a task which is resumed too
late changes nothing; those of `wp` say what a task does when the others keep to a relation.
-/
namespace Foundation

/-- A task over states `σ` that returns an `α` or throws an `ε`. A note leaves a mark in the log. -/
inductive Async (σ ε μ : Type) {ρ : Type} (ω : ρ → Type) (α : Type) : Type where
  | done (a : α)
  | fail (e : ε)
  | read (k : σ → Async σ ε μ ω α)
  | write (s : σ) (k : Async σ ε μ ω α)
  | note (m : μ) (k : Async σ ε μ ω α)
  | await (r : ρ) (k : ω r → Async σ ε μ ω α)

namespace Async

variable {σ ε μ ρ : Type} {ω : ρ → Type} {α β : Type}

def bind : Async σ ε μ ω α → (α → Async σ ε μ ω β) → Async σ ε μ ω β
  | done a, f => f a
  | fail e, _ => fail e
  | read k, f => read fun s => (k s).bind f
  | write s k, f => write s (k.bind f)
  | note m k, f => note m (k.bind f)
  | await r k, f => await r fun o => (k o).bind f

def tryCatch : Async σ ε μ ω α → (ε → Async σ ε μ ω α) → Async σ ε μ ω α
  | done a, _ => done a
  | fail e, h => h e
  | read k, h => read fun s => (k s).tryCatch h
  | write s k, h => write s (k.tryCatch h)
  | note m k, h => note m (k.tryCatch h)
  | await r k, h => await r fun o => (k o).tryCatch h

instance : Monad (Async σ ε μ ω) where
  pure := done
  bind := bind

instance : MonadExcept ε (Async σ ε μ ω) where
  throw := fail
  tryCatch := tryCatch

def get : Async σ ε μ ω σ := read done

def modify (f : σ → σ) : Async σ ε μ ω Unit := read fun s => write (f s) (done ())

def mark (m : μ) : Async σ ε μ ω Unit := note m (done ())

/-- What is done afterwards however the task ends, which is then its end. -/
def ensuring (x : Async σ ε μ ω Unit) (last : Async σ ε μ ω Unit) : Async σ ε μ ω Unit :=
  (x.tryCatch fun e => last.bind fun _ => fail e).bind fun _ => last

theorem pure_eq (a : α) : (pure a : Async σ ε μ ω α) = done a := rfl

theorem throw_eq (e : ε) : (throw e : Async σ ε μ ω α) = fail e := rfl

theorem bind_eq (x : Async σ ε μ ω α) (f : α → Async σ ε μ ω β) : (x >>= f) = x.bind f := rfl

theorem bind_assoc {γ : Type} (x : Async σ ε μ ω α) (f : α → Async σ ε μ ω β)
    (g : β → Async σ ε μ ω γ) : (x.bind f).bind g = x.bind fun a => (f a).bind g := by
  induction x with
  | done a => rfl
  | fail e => rfl
  | read k ih => exact congrArg read (funext ih)
  | write s k ih => exact congrArg (write s) ih
  | note m k ih => exact congrArg (note m) ih
  | await r k ih => exact congrArg (await r) (funext ih)

/-! ### A turn -/

inductive Rest (σ ε μ : Type) {ρ : Type} (ω : ρ → Type) (α : Type) : Type where
  | returned (a : α)
  | threw (e : ε)
  | waits (r : ρ) (k : ω r → Async σ ε μ ω α)

/-- What a turn leaves: the state, what it noted, and what there is left to do. -/
structure Turn (σ ε μ : Type) {ρ : Type} (ω : ρ → Type) (α : Type) : Type where
  state : σ
  notes : List μ
  rest : Rest σ ε μ ω α

def turn : Async σ ε μ ω α → σ → Turn σ ε μ ω α
  | done a, s => ⟨s, [], .returned a⟩
  | fail e, s => ⟨s, [], .threw e⟩
  | read k, s => (k s).turn s
  | write s' k, _ => k.turn s'
  | note m k, s => ⟨(k.turn s).state, m :: (k.turn s).notes, (k.turn s).rest⟩
  | await r k, s => ⟨s, [], .waits r k⟩

theorem turn_get (f : σ → Async σ ε μ ω β) (s : σ) :
    ((get : Async σ ε μ ω σ) >>= f).turn s = (f s).turn s := rfl

/-- What is caught takes its turn where the turn before it has thrown. -/
theorem turn_tryCatch (x : Async σ ε μ ω α) (h : ε → Async σ ε μ ω α) (s : σ) :
    (x.tryCatch h).turn s = match (x.turn s).rest with
      | .returned a => ⟨(x.turn s).state, (x.turn s).notes, .returned a⟩
      | .threw e => ⟨((h e).turn (x.turn s).state).state,
          (x.turn s).notes ++ ((h e).turn (x.turn s).state).notes,
          ((h e).turn (x.turn s).state).rest⟩
      | .waits r k => ⟨(x.turn s).state, (x.turn s).notes, .waits r fun o => (k o).tryCatch h⟩ := by
  induction x generalizing s with
  | done a => rfl
  | fail e => rfl
  | read k ih => exact ih s s
  | write s' k ih => exact ih s'
  | note m k ih =>
    have later := ih s
    simp only [Async.tryCatch, Async.turn]
    rw [later]
    split
    · rfl
    · rfl
    · rfl
  | await r k ih => rfl

theorem turn_of_returned {x : Async σ ε μ ω α} {h : ε → Async σ ε μ ω α} {s t : σ} {a : α}
    (returned : x.turn s = ⟨t, [], .returned a⟩) :
    (x.tryCatch h).turn s = ⟨t, [], .returned a⟩ := by
  rw [turn_tryCatch, returned]

theorem turn_of_threw {x : Async σ ε μ ω α} {h : ε → Async σ ε μ ω α} {s : σ} {e : ε}
    (threw : x.turn s = ⟨s, [], .threw e⟩) : (x.tryCatch h).turn s = (h e).turn s := by
  rw [turn_tryCatch, threw]
  rfl

/-! ### What is resumed too late -/

/-- Which states are too late for a task, which answers may come so late, what its writes do to the
state and what it notes. -/
structure Rules (σ μ : Type) {ρ : Type} (ω : ρ → Type) where
  stale : σ → Prop
  allows : (r : ρ) → ω r → σ → Prop
  moves : σ → σ → Prop
  notes : μ → Prop

variable (rules : Rules σ μ ω)

/-- From a state that is too late the task only throws. -/
def Stops : Async σ ε μ ω α → σ → Prop
  | done _, _ => False
  | fail _, _ => True
  | read k, s => Stops (k s) s
  | write _ _, _ => False
  | note _ _, _ => False
  | await r k, _ => ∀ o s, rules.stale s → rules.allows r o s → Stops (k o) s

/-- From a state that is too late the task changes nothing. -/
def Silent : Async σ ε μ ω α → σ → Prop
  | done _, _ => True
  | fail _, _ => True
  | read k, s => Silent (k s) s
  | write s' k, s => s' = s ∧ Silent k s'
  | note _ _, _ => False
  | await r k, _ => ∀ o s, rules.stale s → rules.allows r o s → Silent (k o) s

/-- The task writes and notes as the rules say, and after every wait it looks whether it is too
late before it does anything. -/
def Fine : Async σ ε μ ω α → σ → Prop
  | done _, _ => True
  | fail _, _ => True
  | read k, s => Fine (k s) s
  | write s' k, s => rules.moves s s' ∧ Fine k s'
  | note m k, s => rules.notes m ∧ Fine k s
  | await r k, _ =>
    ∀ o s, (rules.stale s → rules.allows r o s → Stops rules (k o) s) ∧ Fine (k o) s

/-- As `Fine`, but when it is too late the task may also return. -/
def Tame : Async σ ε μ ω α → σ → Prop
  | done _, _ => True
  | fail _, _ => True
  | read k, s => Tame (k s) s
  | write s' k, s => rules.moves s s' ∧ Tame k s'
  | note m k, s => rules.notes m ∧ Tame k s
  | await r k, _ =>
    ∀ o s, (rules.stale s → rules.allows r o s → Silent rules (k o) s) ∧ Tame (k o) s

variable {rules} {x : Async σ ε μ ω α} {f : α → Async σ ε μ ω β} {s : σ}

theorem Stops.silent (stops : Stops rules x s) : Silent rules x s := by
  induction x generalizing s with
  | done a => trivial
  | fail e => trivial
  | read k ih => exact ih s stops
  | write s' k ih => cases stops
  | note m k ih => exact stops
  | await r k ih => exact fun o s late allowed => ih o (stops o s late allowed)

theorem Stops.bind (stops : Stops rules x s) : Stops rules (x.bind f) s := by
  induction x generalizing s with
  | done a => cases stops
  | fail e => trivial
  | read k ih => exact ih s stops
  | write s' k ih => cases stops
  | note m k ih => cases stops
  | await r k ih => exact fun o s late allowed => ih o (stops o s late allowed)

theorem Silent.bind (late : rules.stale s) (silent : Silent rules x s)
    (next : ∀ a s, rules.stale s → Silent rules (f a) s) : Silent rules (x.bind f) s := by
  induction x generalizing s with
  | done a => exact next a s late
  | fail e => trivial
  | read k ih => exact ih s late silent
  | write s' k ih =>
    obtain ⟨rfl, silent⟩ := silent
    exact ⟨rfl, ih late silent⟩
  | note m k ih => cases silent
  | await r k ih => exact fun o s late allowed => ih o late (silent o s late allowed)

theorem Silent.tryCatch {h : ε → Async σ ε μ ω α} (late : rules.stale s)
    (silent : Silent rules x s) (caught : ∀ e s, rules.stale s → Silent rules (h e) s) :
    Silent rules (x.tryCatch h) s := by
  induction x generalizing s with
  | done a => trivial
  | fail e => exact caught e s late
  | read k ih => exact ih s late silent
  | write s' k ih =>
    obtain ⟨rfl, silent⟩ := silent
    exact ⟨rfl, ih late silent⟩
  | note m k ih => cases silent
  | await r k ih => exact fun o s late allowed => ih o late (silent o s late allowed)

theorem Fine.bind (fine : Fine rules x s) (next : ∀ a s, Fine rules (f a) s) :
    Fine rules (x.bind f) s := by
  induction x generalizing s with
  | done a => exact next a s
  | fail e => trivial
  | read k ih => exact ih s fine
  | write s' k ih => exact ⟨fine.1, ih fine.2⟩
  | note m k ih => exact ⟨fine.1, ih fine.2⟩
  | await r k ih =>
    intro o s
    obtain ⟨stops, fine⟩ := fine o s
    exact ⟨fun late allowed => (stops late allowed).bind, ih o fine⟩

theorem Fine.tame (fine : Fine rules x s) : Tame rules x s := by
  induction x generalizing s with
  | done a => trivial
  | fail e => trivial
  | read k ih => exact ih s fine
  | write s' k ih => exact ⟨fine.1, ih fine.2⟩
  | note m k ih => exact ⟨fine.1, ih fine.2⟩
  | await r k ih =>
    intro o s
    obtain ⟨stops, fine⟩ := fine o s
    exact ⟨fun late allowed => (stops late allowed).silent, ih o fine⟩

theorem Tame.bind (tame : Tame rules x s) (next : ∀ a s, Tame rules (f a) s)
    (silent : ∀ a s, rules.stale s → Silent rules (f a) s) : Tame rules (x.bind f) s := by
  induction x generalizing s with
  | done a => exact next a s
  | fail e => trivial
  | read k ih => exact ih s tame
  | write s' k ih => exact ⟨tame.1, ih tame.2⟩
  | note m k ih => exact ⟨tame.1, ih tame.2⟩
  | await r k ih =>
    intro o s
    obtain ⟨quiet, tame⟩ := tame o s
    exact ⟨fun late allowed => (quiet late allowed).bind late silent, ih o tame⟩

theorem Tame.tryCatch {h : ε → Async σ ε μ ω α} (tame : Tame rules x s)
    (caught : ∀ e s, Tame rules (h e) s)
    (silent : ∀ e s, rules.stale s → Silent rules (h e) s) : Tame rules (x.tryCatch h) s := by
  induction x generalizing s with
  | done a => trivial
  | fail e => exact caught e s
  | read k ih => exact ih s tame
  | write s' k ih => exact ⟨tame.1, ih tame.2⟩
  | note m k ih => exact ⟨tame.1, ih tame.2⟩
  | await r k ih =>
    intro o s
    obtain ⟨quiet, tame⟩ := tame o s
    exact ⟨fun late allowed => (quiet late allowed).tryCatch late silent, ih o tame⟩

/-- What throws when it is too late changes nothing, when what catches it does not. -/
theorem Stops.handled {h : ε → Async σ ε μ ω α} (stops : Stops rules x s) (late : rules.stale s)
    (silent : ∀ e s, rules.stale s → Silent rules ((h e).bind f) s) :
    Silent rules ((x.tryCatch h).bind f) s := by
  induction x generalizing s with
  | done a => cases stops
  | fail e => exact silent e s late
  | read k ih => exact ih s stops late
  | write s' k ih => cases stops
  | note m k ih => cases stops
  | await r k ih => exact fun o s late allowed => ih o (stops o s late allowed) late

theorem Fine.get {f : σ → Async σ ε μ ω β} (fine : Fine rules (f s) s) :
    Fine rules (Async.get >>= f) s := fine

/-- A task that is fine goes on as its end says, returned or caught. -/
theorem Fine.handled {h : ε → Async σ ε μ ω α} (fine : Fine rules x s)
    (next : ∀ a s, Tame rules (f a) s) (caught : ∀ e s, Tame rules ((h e).bind f) s)
    (silent : ∀ e s, rules.stale s → Silent rules ((h e).bind f) s) :
    Tame rules ((x.tryCatch h).bind f) s := by
  induction x generalizing s with
  | done a => exact next a s
  | fail e => exact caught e s
  | read k ih => exact ih s fine
  | write s' k ih => exact ⟨fine.1, ih fine.2⟩
  | note m k ih => exact ⟨fine.1, ih fine.2⟩
  | await r k ih =>
    intro o s
    obtain ⟨stops, fine⟩ := fine o s
    exact ⟨fun late allowed => (stops late allowed).handled late silent, ih o fine⟩

/-- A task that is tame is so where fewer answers can come. -/
theorem Tame.restrict {fewer : Rules σ μ ω} (late : fewer.stale = rules.stale)
    (moves : fewer.moves = rules.moves) (notes : fewer.notes = rules.notes)
    (allows : ∀ r o s, fewer.allows r o s → rules.allows r o s) (tame : Tame rules x s) :
    Tame fewer x s := by
  have silent : ∀ {y : Async σ ε μ ω α} {s}, Silent rules y s → Silent fewer y s := by
    intro y s silent
    induction y generalizing s with
    | done a => trivial
    | fail e => trivial
    | read k ih => exact ih s silent
    | write s' k ih => exact ⟨silent.1, ih silent.2⟩
    | note m k ih => cases silent
    | await r k ih =>
      exact fun o s stale allowed => ih o (silent o s (late ▸ stale) (allows r o s allowed))
  induction x generalizing s with
  | done a => trivial
  | fail e => trivial
  | read k ih => exact ih s tame
  | write s' k ih => exact ⟨moves ▸ tame.1, ih tame.2⟩
  | note m k ih => exact ⟨notes ▸ tame.1, ih tame.2⟩
  | await r k ih =>
    intro o s
    obtain ⟨quiet, tame⟩ := tame o s
    exact ⟨fun stale allowed => silent (quiet (late ▸ stale) (allows r o s allowed)), ih o tame⟩

/-! ### Turns of such tasks -/

/-- A task that waits goes on as one that is silent when it is too late, and tame. -/
def Waiting (rules : Rules σ μ ω) {r : ρ} (k : ω r → Async σ ε μ ω α) : Prop :=
  ∀ o s, (rules.stale s → rules.allows r o s → Silent rules (k o) s) ∧ Tame rules (k o) s

structure Tame.Result (rules : Rules σ μ ω) (s : σ) (t : Turn σ ε μ ω α) : Prop where
  moves : rules.moves s t.state
  noted : ∀ m ∈ t.notes, rules.notes m
  waits : ∀ {r k}, t.rest = .waits r k → Waiting rules k

theorem Tame.turn (refl : ∀ s, rules.moves s s)
    (trans : ∀ {a b c}, rules.moves a b → rules.moves b c → rules.moves a c)
    (tame : Tame rules x s) : Tame.Result rules s (x.turn s) := by
  induction x generalizing s with
  | done a => exact ⟨refl s, by simp [Async.turn], by simp [Async.turn]⟩
  | fail e => exact ⟨refl s, by simp [Async.turn], by simp [Async.turn]⟩
  | read k ih => exact ih s tame
  | write s' k ih =>
    have later := ih tame.2
    exact ⟨trans tame.1 later.moves, later.noted, later.waits⟩
  | note m k ih =>
    have later := ih tame.2
    refine ⟨later.moves, fun m' noted => ?_, later.waits⟩
    rcases List.mem_cons.mp noted with rfl | noted
    · exact tame.1
    · exact later.noted m' noted
  | await r k ih =>
    refine ⟨refl s, by simp [Async.turn], fun {r' k'} waits => ?_⟩
    cases waits
    exact tame

structure Silent.Result (rules : Rules σ μ ω) (s : σ) (t : Turn σ ε μ ω α) : Prop where
  state : t.state = s
  notes : t.notes = []
  waits : ∀ {r k}, t.rest = .waits r k →
    ∀ o s, rules.stale s → rules.allows r o s → Silent rules (k o) s

theorem Silent.turn (silent : Silent rules x s) : Silent.Result rules s (x.turn s) := by
  induction x generalizing s with
  | done a => exact ⟨rfl, rfl, by simp [Async.turn]⟩
  | fail e => exact ⟨rfl, rfl, by simp [Async.turn]⟩
  | read k ih => exact ih s silent
  | write s' k ih =>
    obtain ⟨rfl, silent⟩ := silent
    exact ih silent
  | note m k ih => cases silent
  | await r k ih =>
    refine ⟨rfl, rfl, fun {r' k'} waits => ?_⟩
    cases waits
    exact silent

/-! ### What only looks -/

/-- The task writes nothing, and it notes and returns only while it is not too late. -/
def Looks (rules : Rules σ μ ω) : Async σ ε μ ω α → σ → Prop
  | done _, s => ¬rules.stale s
  | fail _, _ => True
  | read k, s => Looks rules (k s) s
  | write _ _, _ => False
  | note m k, s => ¬rules.stale s ∧ rules.notes m ∧ Looks rules k s
  | await _ k, _ => ∀ o s, Looks rules (k o) s

theorem Looks.stops (looks : Looks rules x s) (late : rules.stale s) : Stops rules x s := by
  induction x generalizing s with
  | done a => exact looks late
  | fail e => trivial
  | read k ih => exact ih s looks late
  | write s' k ih => cases looks
  | note m k ih => exact looks.1 late
  | await r k ih => exact fun o s later _ => ih o (looks o s) later

theorem Looks.fine (looks : Looks rules x s) : Fine rules x s := by
  induction x generalizing s with
  | done a => trivial
  | fail e => trivial
  | read k ih => exact ih s looks
  | write s' k ih => cases looks
  | note m k ih => exact ⟨looks.2.1, ih looks.2.2⟩
  | await r k ih => exact fun o s => ⟨fun late _ => (looks o s).stops late, ih o (looks o s)⟩

theorem Looks.bind (looks : Looks rules x s) (next : ∀ a s, ¬rules.stale s → Looks rules (f a) s) :
    Looks rules (x.bind f) s := by
  induction x generalizing s with
  | done a => exact next a s looks
  | fail e => trivial
  | read k ih => exact ih s looks
  | write s' k ih => cases looks
  | note m k ih => exact ⟨looks.1, looks.2.1, ih looks.2.2⟩
  | await r k ih => exact fun o s => ih o (looks o s)

theorem Looks.get {f : σ → Async σ ε μ ω β} (looks : Looks rules (f s) s) :
    Looks rules (Async.get >>= f) s := looks

/-- The task writes and notes nothing. -/
def Idle : Async σ ε μ ω α → Prop
  | done _ => True
  | fail _ => True
  | read k => ∀ s, Idle (k s)
  | write _ _ => False
  | note _ _ => False
  | await _ k => ∀ o, Idle (k o)

theorem Idle.bind (idle : Idle x) (next : ∀ a, Idle (f a)) : Idle (x.bind f) := by
  induction x with
  | done a => exact next a
  | fail e => trivial
  | read k ih => exact fun s => ih s (idle s)
  | write s' k ih => cases idle
  | note m k ih => cases idle
  | await r k ih => exact fun o => ih o (idle o)

/-- What writes nothing looks, when what follows it does. -/
theorem Idle.looks (idle : Idle x) (next : ∀ a s, Looks rules (f a) s) :
    Looks rules (x.bind f) s := by
  induction x generalizing s with
  | done a => exact next a s
  | fail e => trivial
  | read k ih => exact ih s (idle s)
  | write s' k ih => cases idle
  | note m k ih => cases idle
  | await r k ih => exact fun o s => ih o (idle o)

theorem Idle.tryCatch {h : ε → Async σ ε μ ω α} (idle : Idle x) (caught : ∀ e, Idle (h e)) :
    Idle (x.tryCatch h) := by
  induction x with
  | done a => trivial
  | fail e => exact caught e
  | read k ih => exact fun s => ih s (idle s)
  | write s' k ih => cases idle
  | note m k ih => cases idle
  | await r k ih => exact fun o => ih o (idle o)

/-- What is left of a task that writes nothing before it hands on what it has come to. -/
def Hands (f : α → Async σ ε μ ω β) (h : ε → Async σ ε μ ω β) (y : Async σ ε μ ω β) : Prop :=
  ∃ x : Async σ ε μ ω α, Idle x ∧ y = (x.bind f).tryCatch h

/-- Its turn either ends in another wait, or it is the turn of what it hands on to. -/
theorem Hands.turn {h : ε → Async σ ε μ ω β} {y : Async σ ε μ ω β} (hands : Hands f h y) (s : σ) :
    (∃ (r : ρ) (k : ω r → Async σ ε μ ω β), (∀ o, Hands f h (k o)) ∧
      y.turn s = ⟨s, [], .waits r k⟩) ∨
    (∃ a, y.turn s = ((f a).tryCatch h).turn s) ∨ ∃ e, y.turn s = (h e).turn s := by
  obtain ⟨x, idle, rfl⟩ := hands
  induction x with
  | done a => exact .inr (.inl ⟨a, rfl⟩)
  | fail e => exact .inr (.inr ⟨e, rfl⟩)
  | read k ih => exact ih s (idle s)
  | write s' k ih => cases idle
  | note m k ih => cases idle
  | await r k ih => exact .inl ⟨r, _, fun o => ⟨k o, idle o, rfl⟩, rfl⟩

/-! ### Notes of a kind -/

/-- The task makes notes of a kind at most so many times, whatever it is answered. -/
def AtMost (kind : μ → Prop) [DecidablePred kind] : Nat → Async σ ε μ ω α → σ → Prop
  | _, done _, _ => True
  | _, fail _, _ => True
  | n, read k, s => AtMost kind n (k s) s
  | n, write s' k, _ => AtMost kind n k s'
  | n, note m k, s => if kind m then 0 < n ∧ AtMost kind (n - 1) k s else AtMost kind n k s
  | n, await _ k, _ => ∀ o s, AtMost kind n (k o) s

section AtMost

variable {kind : μ → Prop} [DecidablePred kind] {m n : Nat}

theorem AtMost.mono (few : AtMost kind m x s) (le : m ≤ n) : AtMost kind n x s := by
  induction x generalizing s m n with
  | done a => trivial
  | fail e => trivial
  | read k ih => exact ih s few le
  | write s' k ih => exact ih few le
  | note note k ih =>
    rw [AtMost] at few ⊢
    split
    · next is =>
      rw [if_pos is] at few
      exact ⟨by omega, ih few.2 (by omega)⟩
    · next other =>
      rw [if_neg other] at few
      exact ih few le
  | await r k ih => exact fun o s => ih o (few o s) le

theorem AtMost.bind (few : AtMost kind m x s) (next : ∀ a s, AtMost kind n (f a) s) :
    AtMost kind (m + n) (x.bind f) s := by
  induction x generalizing s m with
  | done a => exact (next a s).mono (by omega)
  | fail e => trivial
  | read k ih => exact ih s few
  | write s' k ih => exact ih few
  | note note k ih =>
    rw [AtMost] at few
    rw [Async.bind, AtMost]
    split
    · next is =>
      rw [if_pos is] at few
      have rest := ih few.2
      exact ⟨by omega, rest.mono (by omega)⟩
    · next other =>
      rw [if_neg other] at few
      exact ih few
  | await r k ih => exact fun o s => ih o (few o s)

theorem AtMost.get {f : σ → Async σ ε μ ω β} (few : AtMost kind n (f s) s) :
    AtMost kind n (Async.get >>= f) s := few

/-- What makes none of them first leaves the number to what follows. -/
theorem AtMost.first (none : AtMost kind 0 x s) (next : ∀ a s, AtMost kind n (f a) s) :
    AtMost kind n (x.bind f) s :=
  (none.bind next).mono (by omega)

theorem AtMost.last (few : AtMost kind m x s) (none : ∀ a s, AtMost kind 0 (f a) s) :
    AtMost kind m (x.bind f) s := few.bind none

theorem Idle.none (idle : Idle x) : AtMost kind 0 x s := by
  induction x generalizing s with
  | done a => trivial
  | fail e => trivial
  | read k ih => exact ih s (idle s)
  | write s' k ih => cases idle
  | note m k ih => cases idle
  | await r k ih => exact fun o s => ih o (idle o)

theorem AtMost.tryCatch {h : ε → Async σ ε μ ω α} (few : AtMost kind m x s)
    (caught : ∀ e s, AtMost kind n (h e) s) : AtMost kind (m + n) (x.tryCatch h) s := by
  induction x generalizing s m with
  | done a => trivial
  | fail e => exact (caught e s).mono (by omega)
  | read k ih => exact ih s few
  | write s' k ih => exact ih few
  | note note k ih =>
    rw [AtMost] at few
    rw [Async.tryCatch, AtMost]
    split
    · next is =>
      rw [if_pos is] at few
      have rest := ih few.2
      exact ⟨by omega, rest.mono (by omega)⟩
    · next other =>
      rw [if_neg other] at few
      exact ih few
  | await r k ih => exact fun o s => ih o (few o s)

/-- A task that is fine under rules that leave a kind of notes out makes none of them. -/
theorem Fine.none (out : ∀ m, rules.notes m → ¬kind m)
    (fine : Fine rules x s) : AtMost kind 0 x s := by
  induction x generalizing s with
  | done a => trivial
  | fail e => trivial
  | read k ih => exact ih s fine
  | write s' k ih => exact ih fine.2
  | note m k ih =>
    rw [AtMost, if_neg (out m fine.1)]
    exact ih fine.2
  | await r k ih => exact fun o s => ih o (fine o s).2

theorem AtMost.turn (few : AtMost kind n x s) :
    ∃ left, (x.turn s).notes.countP (fun m => decide (kind m)) + left ≤ n ∧
      ∀ {r k}, (x.turn s).rest = .waits r k → ∀ o s, AtMost kind left (k o) s := by
  induction x generalizing s n with
  | done a => exact ⟨0, by simp [Async.turn], by simp [Async.turn]⟩
  | fail e => exact ⟨0, by simp [Async.turn], by simp [Async.turn]⟩
  | read k ih => exact ih s few
  | write s' k ih => exact ih few
  | note m k ih =>
    rw [AtMost] at few
    simp only [Async.turn, List.countP_cons]
    split at few
    · next is =>
      obtain ⟨left, counted, later⟩ := ih few.2
      refine ⟨left, ?_, later⟩
      simp only [is, decide_true, if_true]
      omega
    · next other =>
      obtain ⟨left, counted, later⟩ := ih few
      refine ⟨left, ?_, later⟩
      simp only [other, decide_false, Bool.false_eq_true, if_false]
      omega
  | await r k ih =>
    refine ⟨n, by simp [Async.turn], fun {r' k'} waits => ?_⟩
    cases waits
    exact few

end AtMost

/-! ### Preconditions -/

/-- The precondition of a task, with what it may note and what it ends in, when every wait leaves
the state related to what it was. -/
def wp (relies : σ → σ → Prop) (notes : μ → Prop) :
    Async σ ε μ ω α → (α → σ → Prop) → (ε → σ → Prop) → σ → Prop
  | done a, Q, _, s => Q a s
  | fail e, _, E, s => E e s
  | read k, Q, E, s => wp relies notes (k s) Q E s
  | write s' k, Q, E, _ => wp relies notes k Q E s'
  | note m k, Q, E, s => notes m ∧ wp relies notes k Q E s
  | await _ k, Q, E, s => ∀ o s', relies s s' → wp relies notes (k o) Q E s'

section Preconditions

variable {relies : σ → σ → Prop} {notes : μ → Prop} {Q : α → σ → Prop} {E : ε → σ → Prop}

theorem wp_bind {Q : β → σ → Prop}
    (holds : wp relies notes x (fun a s => wp relies notes (f a) Q E s) E s) :
    wp relies notes (x.bind f) Q E s := by
  induction x generalizing s with
  | done a => exact holds
  | fail e => exact holds
  | read k ih => exact ih s holds
  | write s' k ih => exact ih holds
  | note m k ih => exact ⟨holds.1, ih holds.2⟩
  | await r k ih => exact fun o s' related => ih o (holds o s' related)

theorem wp_tryCatch {h : ε → Async σ ε μ ω α}
    (holds : wp relies notes x Q (fun e s => wp relies notes (h e) Q E s) s) :
    wp relies notes (x.tryCatch h) Q E s := by
  induction x generalizing s with
  | done a => exact holds
  | fail e => exact holds
  | read k ih => exact ih s holds
  | write s' k ih => exact ih holds
  | note m k ih => exact ⟨holds.1, ih holds.2⟩
  | await r k ih => exact fun o s' related => ih o (holds o s' related)

theorem wp_mono {Q' : α → σ → Prop} {E' : ε → σ → Prop} (returns : ∀ a s, Q a s → Q' a s)
    (throws : ∀ e s, E e s → E' e s) (holds : wp relies notes x Q E s) :
    wp relies notes x Q' E' s := by
  induction x generalizing s with
  | done a => exact returns a s holds
  | fail e => exact throws e s holds
  | read k ih => exact ih s holds
  | write s' k ih => exact ih holds
  | note m k ih => exact ⟨holds.1, ih holds.2⟩
  | await r k ih => exact fun o s' related => ih o (holds o s' related)

/-- A task that only looks ends in a state that the others have left, and in time. -/
theorem Looks.wp (known : ∀ m, rules.notes m → notes m)
    (trans : ∀ {a b c}, relies a b → relies b c → relies a c) {s₀ : σ} (since : relies s₀ s)
    (looks : Looks rules x s) (returns : ∀ a s, relies s₀ s → ¬rules.stale s → Q a s)
    (throws : ∀ e s, relies s₀ s → E e s) : wp relies notes x Q E s := by
  induction x generalizing s with
  | done a => exact returns a s since looks
  | fail e => exact throws e s since
  | read k ih => exact ih s since looks
  | write s' k ih => cases looks
  | note m k ih => exact ⟨known m looks.2.1, ih since looks.2.2⟩
  | await r k ih =>
    exact fun o s' related => ih o (trans since related) (looks o s')

/-- A task that is fine keeps what its writes and the others keep. -/
theorem Fine.wp (known : ∀ m, rules.notes m → notes m)
    {Inv : σ → Prop} (kept : ∀ a b, rules.moves a b → Inv a → Inv b)
    (others : ∀ a b, relies a b → Inv a → Inv b) (fine : Fine rules x s) (inv : Inv s) :
    wp relies notes x (fun _ => Inv) (fun _ => Inv) s := by
  induction x generalizing s with
  | done a => exact inv
  | fail e => exact inv
  | read k ih => exact ih s fine inv
  | write s' k ih => exact ih fine.2 (kept s s' fine.1 inv)
  | note m k ih => exact ⟨known m fine.1, ih fine.2 inv⟩
  | await r k ih =>
    exact fun o s' related => ih o (fine o s').2 (others s s' related inv)

theorem wp_turn (holds : wp relies notes x Q E s) :
    (∀ m ∈ (x.turn s).notes, notes m) ∧ (∀ {r k}, (x.turn s).rest = .waits r k →
      ∀ o s', relies (x.turn s).state s' → wp relies notes (k o) Q E s') := by
  induction x generalizing s with
  | done a => exact ⟨by simp [Async.turn], by simp [Async.turn]⟩
  | fail e => exact ⟨by simp [Async.turn], by simp [Async.turn]⟩
  | read k ih => exact ih s holds
  | write s' k ih => exact ih holds
  | note m k ih =>
    obtain ⟨noted, later⟩ := ih holds.2
    refine ⟨fun m' member => ?_, later⟩
    rcases List.mem_cons.mp member with rfl | member
    · exact holds.1
    · exact noted m' member
  | await r k ih =>
    refine ⟨by simp [Async.turn], fun {r' k'} waits => ?_⟩
    cases waits
    exact holds

end Preconditions

end Async

end Foundation
