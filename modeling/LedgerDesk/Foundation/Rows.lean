import Mathlib

/-!
# Updates of rows

`UPDATE … SET … WHERE …` of a table, which is a list of rows. A key that the update leaves alone
keeps its rows apart, and a row of another key stays as it is.
-/
namespace Foundation.Rows

variable {ρ κ : Type*}

def update (chosen : ρ → Bool) (set : ρ → ρ) (rows : List ρ) : List ρ :=
  rows.map fun r => if chosen r then set r else r

variable {chosen : ρ → Bool} {set : ρ → ρ} {rows : List ρ} {r : ρ}

theorem mem_update :
    r ∈ update chosen set rows ↔
      (r ∈ rows ∧ chosen r = false) ∨ ∃ old ∈ rows, chosen old = true ∧ set old = r := by
  rw [update, List.mem_map]
  constructor
  · rintro ⟨old, member, rfl⟩
    split
    · next taken => exact .inr ⟨old, member, taken, rfl⟩
    · next left => exact .inl ⟨member, Bool.eq_false_iff.mpr left⟩
  · rintro (⟨member, left⟩ | ⟨old, member, taken, rfl⟩)
    · exact ⟨r, member, if_neg (Bool.eq_false_iff.mp left)⟩
    · exact ⟨old, member, if_pos taken⟩

theorem mem_update_of_not (member : r ∈ rows) (left : chosen r = false) :
    r ∈ update chosen set rows :=
  mem_update.mpr (.inl ⟨member, left⟩)

theorem mem_update_of_chosen (member : r ∈ rows) (taken : chosen r = true) :
    set r ∈ update chosen set rows :=
  mem_update.mpr (.inr ⟨r, member, taken, rfl⟩)

@[simp] theorem length_update : (update chosen set rows).length = rows.length :=
  List.length_map _

theorem map_update {key : ρ → κ} (keeps : ∀ r ∈ rows, chosen r = true → key (set r) = key r) :
    (update chosen set rows).map key = rows.map key := by
  rw [update, List.map_map]
  apply List.map_congr_left
  intro r member
  simp only [Function.comp_apply]
  split
  · next taken => exact keeps r member taken
  · rfl

/-- Two rows of one key are one row. -/
theorem eq_of_key {key : ρ → κ} (apart : (rows.map key).Nodup) {r r' : ρ} (member : r ∈ rows)
    (member' : r' ∈ rows) (same : key r = key r') : r = r' :=
  List.inj_on_of_nodup_map apart member member' same

/-- A row is found by its key. -/
theorem find?_of_key [DecidableEq κ] {key : ρ → κ} (apart : (rows.map key).Nodup) (member : r ∈ rows) :
    (rows.find? fun row => key row = key r) = some r := by
  cases found : rows.find? fun row => key row = key r with
  | none => simpa using List.find?_eq_none.mp found r member
  | some other =>
    have same : key other = key r := by simpa using List.find?_some found
    rw [eq_of_key apart (List.mem_of_find?_eq_some found) member same]

/-- The rows of a key are one row. -/
theorem filter_of_key [DecidableEq κ] {key : ρ → κ} (apart : (rows.map key).Nodup) (member : r ∈ rows) :
    (rows.filter fun row => key row = key r) = [r] := by
  induction rows with
  | nil => cases member
  | cons first rest ih =>
    obtain ⟨fresh, apart'⟩ := List.nodup_cons.mp apart
    by_cases same : key first = key r
    · have others : (rest.filter fun row => decide (key row = key r)) = [] := by
        refine List.filter_eq_nil_iff.mpr fun row held taken => fresh ?_
        rw [same, ← of_decide_eq_true taken]
        exact List.mem_map_of_mem held
      rw [List.filter_cons_of_pos (by simpa using same), others,
        eq_of_key apart List.mem_cons_self member same]
    · rw [List.filter_cons_of_neg (by simpa using same)]
      rcases List.mem_cons.mp member with here | later
      · exact absurd (congrArg key here.symm) same
      · exact ih apart' later

theorem update_of_none (none : ∀ r ∈ rows, chosen r = false) : update chosen set rows = rows := by
  have same : update chosen set rows = rows.map id :=
    List.map_congr_left fun r member => if_neg (Bool.eq_false_iff.mp (none r member))
  rw [same, List.map_id]

/-- A total moves by what the one row of a key moves by. -/
theorem sum_update_of_key {α : Type*} [AddCommGroup α] [DecidableEq κ] {key : ρ → κ}
    (apart : (rows.map key).Nodup) (member : r ∈ rows) (value : ρ → α) :
    ((update (fun row => key row = key r) set rows).map value).sum =
      (rows.map value).sum - value r + value (set r) := by
  induction rows with
  | nil => cases member
  | cons first rest ih =>
    obtain ⟨fresh, apart'⟩ := List.nodup_cons.mp apart
    rw [update, List.map_cons]
    by_cases same : key first = key r
    · have chosen_first : first = r := eq_of_key apart List.mem_cons_self member same
      have others : ∀ row ∈ rest, decide (key row = key r) = false := by
        intro row held
        refine decide_eq_false fun taken => fresh ?_
        rw [same, ← taken]
        exact List.mem_map_of_mem held
      have kept : update (fun row => key row = key r) set rest = rest := update_of_none others
      rw [update] at kept
      rw [kept, chosen_first]
      simp only [decide_true, if_true, List.map_cons, List.sum_cons]
      abel
    · have later : r ∈ rest := by
        rcases List.mem_cons.mp member with here | later
        · exact absurd (congrArg key here.symm) same
        · exact later
      have tail := ih apart' later
      rw [update] at tail
      simp only [same, decide_false, Bool.false_eq_true, if_false, List.map_cons, List.sum_cons, tail]
      abel

theorem nodup_concat {key : ρ → κ} (apart : (rows.map key).Nodup)
    (fresh : ∀ old ∈ rows, key old ≠ key r) : ((rows ++ [r]).map key).Nodup := by
  rw [List.map_append, List.nodup_append]
  refine ⟨apart, List.nodup_singleton _, ?_⟩
  intro k member k' last
  obtain ⟨old, held, rfl⟩ := List.mem_map.mp member
  rw [List.mem_singleton.mp last]
  exact fresh old held

/-! ### One row in the place of another -/

/-- The row in the place of the one of its key. -/
def put [DecidableEq κ] (key : ρ → κ) (row : ρ) (rows : List ρ) : List ρ :=
  update (fun r => key r = key row) (fun _ => row) rows

/-- An update that takes the row of one key puts a row in its place. -/
theorem update_eq_put [DecidableEq κ] {key : ρ → κ} (apart : (rows.map key).Nodup)
    (member : r ∈ rows) (taken : chosen r = true) (keeps : key (set r) = key r)
    (only : ∀ row ∈ rows, chosen row = true → key row = key r) :
    update chosen set rows = put key (set r) rows := by
  apply List.map_congr_left
  intro row held
  by_cases same : key row = key r
  · rw [eq_of_key apart held member same]
    simp [taken, keeps]
  · have left : chosen row = false := Bool.eq_false_iff.mpr fun taken => same (only row held taken)
    simp [left, keeps, same]

theorem mem_put [DecidableEq κ] {key : ρ → κ} {row row' : ρ}
    (held : ∃ r ∈ rows, key r = key row) :
    row' ∈ put key row rows ↔ row' = row ∨ (row' ∈ rows ∧ key row' ≠ key row) := by
  rw [put, mem_update]
  constructor
  · rintro (⟨member, left⟩ | ⟨old, -, -, rfl⟩)
    · exact .inr ⟨member, of_decide_eq_false left⟩
    · exact .inl rfl
  · rintro (rfl | ⟨member, left⟩)
    · obtain ⟨r, member, same⟩ := held
      exact .inr ⟨r, member, decide_eq_true same, rfl⟩
    · exact .inl ⟨member, decide_eq_false left⟩

theorem eq_or_mem_of_mem_put [DecidableEq κ] {key : ρ → κ} {row row' : ρ}
    (member : row' ∈ put key row rows) : row' = row ∨ row' ∈ rows := by
  rcases mem_update.mp member with ⟨old, -⟩ | ⟨-, -, -, rfl⟩
  · exact .inr old
  · exact .inl rfl

theorem row_mem_put [DecidableEq κ] {key : ρ → κ} {row : ρ} (held : ∃ r ∈ rows, key r = key row) :
    row ∈ put key row rows :=
  (mem_put held).mpr (.inl rfl)

theorem nodup_put [DecidableEq κ] {key : ρ → κ} {row : ρ} (apart : (rows.map key).Nodup) :
    ((put key row rows).map key).Nodup := by
  rw [put, map_update]
  · exact apart
  · exact fun old _ taken => (of_decide_eq_true taken).symm

@[simp] theorem length_put [DecidableEq κ] {key : ρ → κ} {row : ρ} :
    (put key row rows).length = rows.length :=
  length_update

/-- What the row has in common with the one that it replaces stays as it is. -/
theorem map_put {α : Type*} [DecidableEq κ] {key : ρ → κ} {row : ρ} {value : ρ → α}
    (apart : (rows.map key).Nodup) (member : r ∈ rows) (same : key row = key r)
    (keeps : value row = value r) : (put key row rows).map value = rows.map value := by
  apply map_update
  intro old held taken
  rw [eq_of_key apart held member (by rw [of_decide_eq_true taken, same]), keeps]

/-- A row put in its own place changes nothing. -/
theorem put_self [DecidableEq κ] {key : ρ → κ} (apart : (rows.map key).Nodup) (member : r ∈ rows) :
    put key r rows = rows := by
  rw [put, update]
  conv_rhs => rw [← List.map_id rows]
  apply List.map_congr_left
  intro row held
  split
  · next same => exact (eq_of_key apart held member (of_decide_eq_true same)).symm
  · rfl

end Foundation.Rows
