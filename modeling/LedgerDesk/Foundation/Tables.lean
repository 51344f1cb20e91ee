import Mathlib

/-!
# Changes to a table

A transaction replaces rows as its snapshot has them and adds rows. It fits a table that
still has every row it replaces, which is what a snapshot transaction is let commit on.
-/
namespace Foundation

variable {ρ κ : Type*}

structure Change (ρ : Type*) where
  replaced : List (ρ × ρ)
  inserted : List ρ
  deriving DecidableEq

namespace Change

/-- Nothing happens to the table. -/
def keep : Change ρ := ⟨[], []⟩

def insert (rows : List ρ) : Change ρ := ⟨[], rows⟩

/-- `UPDATE … SET … WHERE …`, over the rows the snapshot has. -/
def update (rows : List ρ) (chosen : ρ → Bool) (set : ρ → ρ) : Change ρ :=
  ⟨(rows.filter chosen).map fun r => (r, set r), []⟩

/-- Both changes, of different rows. -/
def both (c d : Change ρ) : Change ρ := ⟨c.replaced ++ d.replaced, c.inserted ++ d.inserted⟩

variable [DecidableEq ρ]

def after (c : Change ρ) (r : ρ) : ρ :=
  match c.replaced.find? fun u => u.1 == r with
  | some u => u.2
  | none => r

def apply (c : Change ρ) (rows : List ρ) : List ρ := rows.map c.after ++ c.inserted

/-- The rows the change replaces are still there. -/
def fits (c : Change ρ) (rows : List ρ) : Bool := c.replaced.all fun u => u.1 ∈ rows

theorem after_eq (c : Change ρ) (r : ρ) :
    c.after r = r ∧ (∀ u ∈ c.replaced, u.1 ≠ r) ∨ (r, c.after r) ∈ c.replaced := by
  rw [after]
  cases found : c.replaced.find? fun u => u.1 == r with
  | none =>
    left
    refine ⟨rfl, fun u member same => ?_⟩
    have missed := List.find?_eq_none.mp found u member
    simp [same] at missed
  | some u =>
    right
    have old : u.1 = r := by simpa using List.find?_some found
    have member := List.mem_of_find?_eq_some found
    rwa [← old]

theorem after_of_not_replaced {c : Change ρ} {r : ρ} (kept : ∀ u ∈ c.replaced, u.1 ≠ r) :
    c.after r = r := by
  rcases c.after_eq r with ⟨same, -⟩ | replaced
  · exact same
  · exact absurd rfl (kept _ replaced)

@[simp] theorem keep_after (r : ρ) : (keep : Change ρ).after r = r := rfl

@[simp] theorem insert_after (rows : List ρ) (r : ρ) : (insert rows).after r = r := rfl

@[simp] theorem keep_apply (rows : List ρ) : (keep : Change ρ).apply rows = rows := by
  have kept : rows.map (keep : Change ρ).after = rows := List.map_id _
  rw [apply, kept]
  exact List.append_nil rows

@[simp] theorem insert_apply (added rows : List ρ) : (insert added).apply rows = rows ++ added := by
  have kept : rows.map (insert added).after = rows := List.map_id _
  rw [apply, kept]
  rfl

@[simp] theorem keep_fits (rows : List ρ) : (keep : Change ρ).fits rows = true := rfl

@[simp] theorem insert_fits (added rows : List ρ) : (insert added).fits rows = true := rfl

theorem fits_iff (c : Change ρ) (rows : List ρ) :
    c.fits rows = true ↔ ∀ u ∈ c.replaced, u.1 ∈ rows := by
  simp [fits]

theorem mem_apply {c : Change ρ} {rows : List ρ} {r : ρ} :
    r ∈ c.apply rows ↔ (∃ old ∈ rows, c.after old = r) ∨ r ∈ c.inserted := by
  simp [apply]

omit [DecidableEq ρ] in
theorem mem_replaced_update {rows : List ρ} {chosen : ρ → Bool} {set : ρ → ρ} {u : ρ × ρ} :
    u ∈ (update rows chosen set).replaced ↔ u.1 ∈ rows ∧ chosen u.1 = true ∧ u.2 = set u.1 := by
  obtain ⟨old, new⟩ := u
  simp only [update, List.mem_map, List.mem_filter, Prod.mk.injEq]
  constructor
  · rintro ⟨r, ⟨member, holds⟩, rfl, rfl⟩
    exact ⟨member, holds, rfl⟩
  · rintro ⟨member, holds, rfl⟩
    exact ⟨old, ⟨member, holds⟩, rfl, rfl⟩

/-- Over the rows it was made from, an update sets the chosen rows. -/
theorem update_after {rows : List ρ} {chosen : ρ → Bool} {set : ρ → ρ} {r : ρ}
    (member : r ∈ rows) :
    (update rows chosen set).after r = if chosen r = true then set r else r := by
  rcases (update rows chosen set).after_eq r with ⟨same, kept⟩ | replaced
  · split
    · next holds => exact absurd rfl (kept (r, set r) (mem_replaced_update.mpr ⟨member, holds, rfl⟩))
    · exact same
  · obtain ⟨-, holds, set_r⟩ := mem_replaced_update.mp replaced
    rw [if_pos holds]
    exact set_r

theorem update_apply (rows : List ρ) (chosen : ρ → Bool) (set : ρ → ρ) :
    (update rows chosen set).apply rows = rows.map fun r => if chosen r = true then set r else r := by
  rw [apply, update, List.append_nil]
  exact List.map_congr_left fun r member => update_after member

/-- What a change does to a row it may replace. -/
theorem after_of_update {rows : List ρ} {chosen : ρ → Bool} {set : ρ → ρ} (r : ρ) :
    (update rows chosen set).after r = r ∨
      r ∈ rows ∧ chosen r = true ∧ (update rows chosen set).after r = set r := by
  rcases (update rows chosen set).after_eq r with ⟨same, -⟩ | replaced
  · exact .inl same
  · exact .inr (mem_replaced_update.mp replaced)

/-- A change that replaces nothing adds its rows. -/
theorem apply_of_none_replaced {c : Change ρ} (none : c.replaced = []) (rows : List ρ) :
    c.apply rows = rows ++ c.inserted := by
  have same : rows.map c.after = rows.map id := by
    refine List.map_congr_left fun r _ => after_of_not_replaced ?_
    rw [none]
    intro u member
    cases member
  rw [apply, same, List.map_id]

theorem map_apply_of_after {key : ρ → κ} {c : Change ρ} {rows : List ρ}
    (same : ∀ r ∈ rows, key (c.after r) = key r) :
    (c.apply rows).map key = rows.map key ++ c.inserted.map key := by
  rw [apply, List.map_append, List.map_map]
  congr 1
  exact List.map_congr_left same

end Change

end Foundation
