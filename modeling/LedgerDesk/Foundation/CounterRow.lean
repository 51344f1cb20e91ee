import LedgerDesk.Foundation.Runs

/-!
# Tables behind a counter row

Snapshot transactions over groups of tables. Each group has a counter row that every statement
which writes to the group updates as well: a transaction waits for another one that has updated
the row, and is aborted if the row was updated since its snapshot. So whoever has the row sees
the group as it is committed, and commits the group as it sees it.
-/
namespace Foundation.CounterRow

variable {ι κ : Type*} {δ ω σ : κ → Type*}

structure Database (κ : Type*) (δ ω σ : κ → Type*) where
  write : ∀ k, δ k → ω k → δ k
  /-- What a statement writes, over what its transaction sees, unless it raises. -/
  statement : ∀ k, δ k → σ k → Option (List (ω k))

structure Transaction (κ : Type*) (δ ω : κ → Type*) where
  snapshot : ∀ k, δ k
  /-- The versions of the counter rows in the snapshot. -/
  seen : κ → Nat
  writes : ∀ k, List (ω k)

structure World (ι κ : Type*) (δ ω : κ → Type*) where
  store : ∀ k, δ k
  version : κ → Nat
  /-- The transaction that has updated the counter row and is not over. -/
  holder : κ → Option ι
  active : ι → Option (Transaction κ δ ω)

inductive Act (ι κ : Type*) (σ : κ → Type*) where
  | start (i : ι)
  | execute (i : ι) (k : κ) (s : σ k)
  | commit (i : ι)
  | rollback (i : ι)

def worldStart (store : ∀ k, δ k) : World ι κ δ ω where
  store := store
  version _ := 0
  holder _ := none
  active _ := none

section

variable (db : Database κ δ ω σ)

def Database.replay (k : κ) (d : δ k) (ws : List (ω k)) : δ k := ws.foldl (db.write k) d

/-- The snapshot with the transaction's own writes. -/
def Database.view (t : Transaction κ δ ω) (k : κ) : δ k := db.replay k (t.snapshot k) (t.writes k)

end

section

variable [DecidableEq ι]

/-- The transaction is over, and gives up the rows it holds. -/
def World.leave (w : World ι κ δ ω) (i : ι) : World ι κ δ ω :=
  { w with
    holder := fun k => if w.holder k = some i then none else w.holder k
    active := Function.update w.active i none }

variable [DecidableEq κ]

def Transaction.wrote (t : Transaction κ δ ω) (k : κ) (ws : List (ω k)) : Transaction κ δ ω :=
  { t with writes := Function.update t.writes k (t.writes k ++ ws) }

def World.wrote (w : World ι κ δ ω) (i : ι) (t : Transaction κ δ ω) (k : κ) (ws : List (ω k)) :
    World ι κ δ ω :=
  { w with
    holder := Function.update w.holder k (some i)
    active := Function.update w.active i (some (t.wrote k ws)) }

variable (db : Database κ δ ω σ)

def executeStep (w : World ι κ δ ω) (i : ι) (k : κ) (s : σ k) : Option (World ι κ δ ω) :=
  match w.active i with
  | none => none
  | some t =>
    match db.statement k (db.view t k) s with
    | none => some (w.leave i)
    | some [] => some w
    | some ws =>
      match w.holder k with
      | some j => if j = i then some (w.wrote i t k ws) else none
      | none => if w.version k = t.seen k then some (w.wrote i t k ws) else some (w.leave i)

def commitStep (w : World ι κ δ ω) (i : ι) : Option (World ι κ δ ω) :=
  match w.active i with
  | none => none
  | some t =>
    some { w.leave i with
      store := fun k => db.replay k (w.store k) (t.writes k)
      version := fun k => if w.holder k = some i then w.version k + 1 else w.version k }

def step (w : World ι κ δ ω) : Act ι κ σ → Option (World ι κ δ ω)
  | .start i =>
    match w.active i with
    | none =>
      some { w with active := Function.update w.active i (some ⟨w.store, w.version, fun _ => []⟩) }
    | some _ => none
  | .execute i k s => executeStep db w i k s
  | .commit i => commitStep db w i
  | .rollback i => some (w.leave i)

end

/-! ### Who has the row sees what is committed -/

structure Guarded (w : World ι κ δ ω) : Prop where
  holds : ∀ {k i}, w.holder k = some i → ∃ t, w.active i = some t ∧ t.seen k = w.version k
  idle : ∀ {i t k}, w.active i = some t → w.holder k ≠ some i → t.writes k = []
  past : ∀ {i t}, w.active i = some t → ∀ k, t.seen k ≤ w.version k
  current : ∀ {i t}, w.active i = some t → ∀ k, t.seen k = w.version k → t.snapshot k = w.store k

theorem worldStart_guarded (store : ∀ k, δ k) :
    Guarded (worldStart store : World ι κ δ ω) where
  holds held := nomatch held
  idle active := nomatch active
  past active := nomatch active
  current active := nomatch active

section

variable [DecidableEq ι] {w w' : World ι κ δ ω} {i j : ι} {t : Transaction κ δ ω} {k : κ}

/-- After one transaction is set, an active one is that one or was active before. -/
theorem active_update {f : ι → Option (Transaction κ δ ω)} {new : Transaction κ δ ω}
    (active : Function.update f i (some new) j = some t) :
    j = i ∧ t = new ∨ j ≠ i ∧ f j = some t := by
  by_cases same : j = i
  · rw [same, Function.update_self] at active
    exact .inl ⟨same, (Option.some.inj active).symm⟩
  · rw [Function.update_of_ne same] at active
    exact .inr ⟨same, active⟩

theorem active_leave (active : (w.leave i).active j = some t) : j ≠ i ∧ w.active j = some t := by
  change Function.update w.active i none j = some t at active
  by_cases same : j = i
  · rw [same, Function.update_self] at active
    cases active
  · rw [Function.update_of_ne same] at active
    exact ⟨same, active⟩

theorem holder_leave (other : j ≠ i) : (w.leave i).holder k = some j ↔ w.holder k = some j := by
  rw [World.leave]
  dsimp only
  split
  · next held => simp [held, Ne.symm other]
  · rfl

theorem holder_leave_self : (w.leave i).holder k ≠ some i := by
  rw [World.leave]
  dsimp only
  split
  · simp
  · assumption

namespace Guarded

theorem leave (guarded : Guarded w) (i : ι) : Guarded (w.leave i) where
  holds {k j} held := by
    by_cases same : j = i
    · subst same
      exact absurd held holder_leave_self
    · obtain ⟨t, active, seen⟩ := guarded.holds ((holder_leave same).mp held)
      exact ⟨t, (Function.update_of_ne same _ _).trans active, seen⟩
  idle {j t k} active left := by
    obtain ⟨other, before⟩ := active_leave active
    exact guarded.idle before fun held => left ((holder_leave other).mpr held)
  past {j t} active := guarded.past (active_leave active).2
  current {j t} active := guarded.current (active_leave active).2

variable [DecidableEq κ]

/-- A transaction writes that has the row, or takes it with nothing changed since its snapshot. -/
theorem wrote {ws : List (ω k)} (guarded : Guarded w) (active : w.active i = some t)
    (free : w.holder k = some i ∨ w.holder k = none ∧ w.version k = t.seen k) :
    Guarded (w.wrote i t k ws) := by
  have seen : t.seen k = w.version k := by
    rcases free with held | ⟨-, same⟩
    · obtain ⟨t', active', seen⟩ := guarded.holds held
      cases active.symm.trans active'
      exact seen
    · exact same.symm
  have others : ∀ {j}, w.holder k = some j → j = i := by
    intro j held
    rcases free with mine | ⟨none, -⟩
    · exact Option.some.inj (held.symm.trans mine)
    · cases none.symm.trans held
  refine ⟨?_, ?_, ?_, ?_⟩
  · intro l j held
    rw [World.wrote] at held
    dsimp only at held
    by_cases row : l = k
    · subst row
      rw [Function.update_self] at held
      cases held
      exact ⟨t.wrote l ws, Function.update_self _ _ _, seen⟩
    · rw [Function.update_of_ne row] at held
      obtain ⟨t', active', seen'⟩ := guarded.holds held
      by_cases same : j = i
      · subst same
        cases active.symm.trans active'
        exact ⟨t.wrote k ws, Function.update_self _ _ _, seen'⟩
      · exact ⟨t', (Function.update_of_ne same _ _).trans active', seen'⟩
  · intro j t' l active' left
    rw [World.wrote] at left
    dsimp only at left
    rcases active_update active' with ⟨rfl, rfl⟩ | ⟨same, before⟩
    · by_cases row : l = k
      · subst row
        exact absurd (Function.update_self _ _ _) left
      · rw [Function.update_of_ne row] at left
        exact (Function.update_of_ne row _ _).trans (guarded.idle active left)
    · refine guarded.idle before fun held => ?_
      by_cases row : l = k
      · subst row
        exact same (others held)
      · rw [Function.update_of_ne row] at left
        exact left held
  · intro j t' active'
    rcases active_update active' with ⟨rfl, rfl⟩ | ⟨-, before⟩
    · exact guarded.past (t := t) active
    · exact guarded.past before
  · intro j t' active'
    rcases active_update active' with ⟨rfl, rfl⟩ | ⟨-, before⟩
    · exact guarded.current (t := t) active
    · exact guarded.current before

end Guarded

variable (db : Database κ δ ω σ)

/-- What is committed of a group: as the transaction sees it if it has the row, and as it was if
it has not. -/
theorem replay_of_guarded (guarded : Guarded w) (active : w.active i = some t) (k : κ) :
    w.holder k = some i ∧ db.replay k (w.store k) (t.writes k) = db.view t k ∨
      w.holder k ≠ some i ∧ db.replay k (w.store k) (t.writes k) = w.store k := by
  by_cases held : w.holder k = some i
  · obtain ⟨t', active', seen⟩ := guarded.holds held
    cases active.symm.trans active'
    left
    exact ⟨held, by rw [Database.view, guarded.current active k seen]⟩
  · right
    exact ⟨held, by rw [guarded.idle active held]; rfl⟩

theorem commitStep_guarded [DecidableEq κ] (guarded : Guarded w)
    (taken : commitStep db w i = some w') : Guarded w' := by
  rw [commitStep] at taken
  split at taken
  · cases taken
  · next t active =>
    cases taken
    have left := guarded.leave i
    refine ⟨?_, left.idle, ?_, ?_⟩
    · intro k j held
      obtain ⟨t', active', seen⟩ := left.holds held
      obtain ⟨other, -⟩ := active_leave active'
      have elsewhere : w.holder k ≠ some i := by
        rw [(holder_leave other).mp held]
        exact fun same => other (Option.some.inj same)
      exact ⟨t', active', seen.trans (if_neg elsewhere).symm⟩
    · intro j t' active' k
      have before := left.past active' k
      change t'.seen k ≤ w.version k at before
      dsimp only
      split <;> omega
    · intro j t' active' k same
      -- A row that this commit moves is past every other snapshot.
      have before := left.past active' k
      change t'.seen k ≤ w.version k at before
      dsimp only at same
      split at same
      · omega
      · next elsewhere =>
        have kept := left.current active' k same
        rcases replay_of_guarded db guarded active k with ⟨held, -⟩ | ⟨-, stays⟩
        · exact absurd held elsewhere
        · exact kept.trans stays.symm

variable [DecidableEq κ]

/-- A statement raises, writes nothing, or writes what it comes to with the row in its
transaction's hands. -/
theorem executeStep_cases {s : σ k} (taken : executeStep db w i k s = some w') :
    w' = w.leave i ∨ w' = w ∨
      ∃ t ws, w.active i = some t ∧ db.statement k (db.view t k) s = some ws ∧
        (w.holder k = some i ∨ w.holder k = none ∧ w.version k = t.seen k) ∧
        w' = w.wrote i t k ws := by
  rw [executeStep] at taken
  split at taken
  · cases taken
  · next t active =>
    split at taken
    · exact .inl (Option.some.inj taken).symm
    · exact .inr (.inl (Option.some.inj taken).symm)
    · next ws _ comes =>
      split at taken
      · next j held =>
        split at taken
        · next same =>
          subst same
          exact .inr (.inr ⟨t, ws, active, comes, .inl held, (Option.some.inj taken).symm⟩)
        · cases taken
      · next free =>
        split at taken
        · next same =>
          exact .inr (.inr ⟨t, ws, active, comes, .inr ⟨free, same⟩, (Option.some.inj taken).symm⟩)
        · exact .inl (Option.some.inj taken).symm

theorem step_guarded {a : Act ι κ σ} (taken : step db w a = some w') (guarded : Guarded w) :
    Guarded w' := by
  cases a with
  | start i =>
    rw [step] at taken
    split at taken
    · next idle =>
      cases taken
      refine ⟨?_, ?_, ?_, ?_⟩
      · intro k j held
        obtain ⟨t, active, seen⟩ := guarded.holds held
        have other : j ≠ i := by
          rintro rfl
          cases idle.symm.trans active
        exact ⟨t, (Function.update_of_ne other _ _).trans active, seen⟩
      · intro j t k active left
        rcases active_update active with ⟨-, rfl⟩ | ⟨-, before⟩
        · rfl
        · exact guarded.idle before left
      · intro j t active k
        rcases active_update active with ⟨-, rfl⟩ | ⟨-, before⟩
        · exact Nat.le_refl _
        · exact guarded.past before k
      · intro j t active k seen
        rcases active_update active with ⟨-, rfl⟩ | ⟨-, before⟩
        · rfl
        · exact guarded.current before k seen
    · cases taken
  | execute i k s =>
    rcases executeStep_cases db taken with rfl | rfl | ⟨t, ws, active, -, free, rfl⟩
    · exact guarded.leave i
    · exact guarded
    · exact guarded.wrote active free
  | commit i => exact commitStep_guarded db guarded taken
  | rollback i =>
    cases taken
    exact guarded.leave i

/-! ### What every statement keeps is kept -/

/-- A property of each group, committed and as any transaction sees it. -/
structure Kept (Good : ∀ k, δ k → Prop) (w : World ι κ δ ω) : Prop where
  store : ∀ k, Good k (w.store k)
  view : ∀ {i t}, w.active i = some t → ∀ k, Good k (db.view t k)

variable {Good : ∀ k, δ k → Prop}

omit [DecidableEq κ] in
theorem Kept.leave (kept : Kept db Good w) (i : ι) : Kept db Good (w.leave i) where
  store := kept.store
  view active := kept.view (active_leave active).2

theorem view_wrote (t : Transaction κ δ ω) (k : κ) (ws : List (ω k)) :
    db.view (t.wrote k ws) k = db.replay k (db.view t k) ws := by
  rw [Database.view, Transaction.wrote]
  dsimp only
  rw [Function.update_self, Database.replay, List.foldl_append]
  rfl

theorem view_wrote_of_ne (t : Transaction κ δ ω) {k l : κ} (ws : List (ω k)) (other : l ≠ k) :
    db.view (t.wrote k ws) l = db.view t l := by
  rw [Database.view, Transaction.wrote]
  dsimp only
  rw [Function.update_of_ne other]
  rfl

variable (preserved : ∀ k d s ws, Good k d → db.statement k d s = some ws → Good k (db.replay k d ws))

include preserved in
theorem step_kept {a : Act ι κ σ} (taken : step db w a = some w') (guarded : Guarded w)
    (kept : Kept db Good w) : Kept db Good w' := by
  cases a with
  | start i =>
    rw [step] at taken
    split at taken
    · cases taken
      refine ⟨kept.store, ?_⟩
      intro j t active k
      rcases active_update active with ⟨-, rfl⟩ | ⟨-, before⟩
      · exact kept.store k
      · exact kept.view before k
    · cases taken
  | execute i k s =>
    rcases executeStep_cases db taken with rfl | rfl | ⟨t, ws, active, comes, -, rfl⟩
    · exact kept.leave db i
    · exact kept
    · refine ⟨kept.store, ?_⟩
      intro j t' active' l
      rcases active_update active' with ⟨-, rfl⟩ | ⟨-, before⟩
      · by_cases row : l = k
        · subst row
          rw [view_wrote]
          exact preserved l _ s ws (kept.view active l) comes
        · rw [view_wrote_of_ne db t ws row]
          exact kept.view active l
      · exact kept.view before l
  | commit i =>
    change commitStep db w i = some w' at taken
    rw [commitStep] at taken
    split at taken
    · cases taken
    · next t active =>
      cases taken
      refine ⟨fun k => ?_, (kept.leave db i).view⟩
      dsimp only
      rcases replay_of_guarded db guarded active k with ⟨-, seen⟩ | ⟨-, stays⟩
      · rw [seen]
        exact kept.view active k
      · rw [stays]
        exact kept.store k
  | rollback i =>
    cases taken
    exact kept.leave db i

include preserved in
/-- What every statement keeps over what it sees holds of what is committed, in every run. -/
theorem run_kept {store : ∀ k, δ k} {ts : List (Transition (World ι κ δ ω) (Act ι κ σ))}
    (good : ∀ k, Good k (store k)) (run : Run (step db) (worldStart store) ts w) :
    ∀ k, Good k (w.store k) := by
  have initial : Guarded (worldStart store : World ι κ δ ω) ∧
      Kept db Good (worldStart store : World ι κ δ ω) :=
    ⟨worldStart_guarded store, ⟨good, fun active => nomatch active⟩⟩
  have both := (run.invariant (fun s a t taken (before : Guarded s ∧ Kept db Good s) =>
    ⟨step_guarded db taken before.1, step_kept db preserved taken before.1 before.2⟩) initial).1
  exact both.2.store

end

end Foundation.CounterRow
