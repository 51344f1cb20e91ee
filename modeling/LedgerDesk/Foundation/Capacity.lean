import Mathlib

/-!
# Starts at ticks

At every tick each free server takes one of the jobs that have arrived, and keeps it for `hold`
ticks. How many jobs have started by a tick follows from how many had arrived, and a number of
starts is reached exactly when no look back along the holds finds too few arrivals.
-/
namespace Foundation

namespace Capacity

variable (arrived : Nat → Nat) (servers hold : Nat)

/-- How many jobs have started by tick `i`: all that arrived, unless the servers are short of it. -/
def started (i : Nat) : Nat :=
  min (arrived i) (servers + if _ : 0 < hold ∧ hold ≤ i then started (i - hold) else 0)
termination_by i

/-- The arrivals by `j` holds before tick `i`; before the first tick there are none. -/
def arrivedBefore (i j : Nat) : Nat := if j * hold ≤ i then arrived (i - j * hold) else 0

variable {arrived servers hold}

theorem started_mono (growing : Monotone arrived) : Monotone (started arrived servers hold) := by
  intro i k le
  induction i using Nat.strong_induction_on generalizing k with
  | _ i ih =>
    rw [started.eq_1 arrived servers hold i, started.eq_1 arrived servers hold k]
    refine inf_le_inf (growing le) (Nat.add_le_add_left ?_ servers)
    by_cases back : 0 < hold ∧ hold ≤ i
    · have back' : 0 < hold ∧ hold ≤ k := ⟨back.1, Nat.le_trans back.2 le⟩
      rw [dif_pos back, dif_pos back']
      exact ih (i - hold) (by omega) (by omega)
    · rw [dif_neg back]
      exact Nat.zero_le _

theorem le_started_iff (positive : 0 < hold) {n : Nat} (i : Nat) :
    n ≤ started arrived servers hold i ↔
      ∀ j, n ≤ arrivedBefore arrived hold i j + j * servers := by
  induction i using Nat.strong_induction_on generalizing n with
  | _ i ih =>
    rw [started, Nat.le_min]
    by_cases back : 0 < hold ∧ hold ≤ i
    · -- one hold further back there is one round of servers more
      rw [dif_pos back, Nat.add_comm, ← Nat.sub_le_iff_le_add, ih (i - hold) (by omega)]
      have shift : ∀ j, arrivedBefore arrived hold i (j + 1) =
          arrivedBefore arrived hold (i - hold) j := by
        intro j
        have inside : (j + 1) * hold ≤ i ↔ j * hold ≤ i - hold := by
          rw [Nat.succ_mul]
          omega
        have index : i - (j + 1) * hold = i - hold - j * hold := by
          rw [Nat.succ_mul]
          omega
        simp only [arrivedBefore, inside, index]
      constructor
      · rintro ⟨now, earlier⟩ j
        cases j with
        | zero => simpa [arrivedBefore] using now
        | succ j =>
          have bound := earlier j
          rw [shift, Nat.succ_mul]
          omega
      · intro bounds
        refine ⟨by simpa [arrivedBefore] using bounds 0, fun j => ?_⟩
        have bound := bounds (j + 1)
        rw [shift, Nat.succ_mul] at bound
        omega
    · rw [dif_neg back, Nat.add_zero]
      have early : i < hold := by omega
      constructor
      · rintro ⟨now, few⟩ j
        cases j with
        | zero => simpa [arrivedBefore] using now
        | succ j =>
          rw [Nat.succ_mul]
          omega
      · intro bounds
        refine ⟨by simpa [arrivedBefore] using bounds 0, ?_⟩
        have bound := bounds 1
        simpa [arrivedBefore, Nat.not_le.mpr early] using bound

end Capacity

end Foundation
