import Mathlib

/-!
# Guarded walks

A walk along a partial function that refuses to visit a node twice, refuses a node that is
not `ok`, and gives up after `bound` nodes. It finds its way to a final node exactly when
there is a chain without repetition that does, of at most `bound` nodes.
-/
namespace Foundation

section Walk

variable {ν : Type*} (ok final : ν → Bool) (next : ν → Option ν)

/-- The chain from `v` along `next`, all of it `ok`, up to the first final node. -/
inductive Leads : ν → List ν → Prop
  | final {v} (sound : ok v = true) (ends : final v = true) : Leads v [v]
  | step {v w path} (sound : ok v = true) (passes : final v = false) (goes : next v = some w)
      (rest : Leads w path) : Leads v (v :: path)

variable [DecidableEq ν] (bound : Nat)

def guardedWalk (visited : List ν) (v : ν) : Bool :=
  if _ : visited.length < bound ∧ v ∉ visited ∧ ok v = true then
    final v || match next v with
      | none => false
      | some w => guardedWalk (v :: visited) w
  else false
termination_by bound - visited.length
decreasing_by simp only [List.length_cons]; omega

variable {ok final next bound}

namespace Leads

omit [DecidableEq ν] in
theorem ok_of_mem {v u : ν} {path : List ν} (leads : Leads ok final next v path)
    (member : u ∈ path) : ok u = true := by
  induction leads with
  | final sound _ =>
    rw [List.mem_singleton.mp member]
    exact sound
  | step sound _ _ _ ih =>
    rcases List.mem_cons.mp member with rfl | later
    · exact sound
    · exact ih later

omit [DecidableEq ν] in
/-- There is one chain at most. -/
theorem unique {v : ν} {path path' : List ν} (leads : Leads ok final next v path)
    (other : Leads ok final next v path') : path = path' := by
  induction leads generalizing path' with
  | final _ ends =>
    cases other with
    | final => rfl
    | step _ passes _ _ =>
      rw [ends] at passes
      cases passes
  | step _ passes goes _ ih =>
    cases other with
    | final _ ends =>
      rw [ends] at passes
      cases passes
    | step _ _ goes' rest' =>
      rw [goes, Option.some.injEq] at goes'
      subst goes'
      rw [ih rest']

omit [DecidableEq ν] in
/-- A chain survives where all of its nodes do. -/
theorem of_ok {ok' : ν → Bool} {v : ν} {path : List ν} (leads : Leads ok final next v path)
    (sound : ∀ u ∈ path, ok' u = true) : Leads ok' final next v path := by
  induction leads with
  | final _ ends => exact .final (sound _ (by simp)) ends
  | step _ passes goes _ ih =>
    exact .step (sound _ (by simp)) passes goes (ih fun u member => sound u (by simp [member]))

end Leads

theorem guardedWalk_eq (visited : List ν) (v : ν) :
    guardedWalk ok final next bound visited v =
      (decide (visited.length < bound ∧ v ∉ visited) && ok v &&
        (final v || (next v).any (guardedWalk ok final next bound (v :: visited)))) := by
  rw [guardedWalk]
  by_cases room : visited.length < bound ∧ v ∉ visited
  · cases sound : ok v
    · simp
    · cases goes : next v <;> simp [room]
  · rw [dif_neg (fun all => room ⟨all.1, all.2.1⟩), decide_eq_false room]
    rfl

/-- The walk succeeds exactly along a chain that repeats nothing, meets nothing visited
before and stays within the bound. -/
theorem guardedWalk_iff (visited : List ν) (v : ν) :
    guardedWalk ok final next bound visited v = true ↔
      ∃ path, Leads ok final next v path ∧ path.Nodup ∧ (∀ u ∈ path, u ∉ visited) ∧
        visited.length + path.length ≤ bound := by
  induction fuel : bound - visited.length generalizing visited v with
  | zero =>
    rw [guardedWalk, dif_neg (by omega)]
    refine ⟨nofun, fun ⟨path, leads, _, _, within⟩ => ?_⟩
    cases leads with
    | final => simp only [List.length_singleton] at within; omega
    | step => simp only [List.length_cons] at within; omega
  | succ n ih =>
    rw [guardedWalk]
    split
    · next guard =>
      obtain ⟨room, fresh, sound⟩ := guard
      rw [Bool.or_eq_true]
      constructor
      · rintro (ends | walks)
        · refine ⟨[v], .final sound ends, List.nodup_singleton v, ?_, ?_⟩
          · simpa using fresh
          · simpa using Nat.succ_le_of_lt room
        · cases ends : final v with
          | true =>
            refine ⟨[v], .final sound ends, List.nodup_singleton v, ?_, ?_⟩
            · simpa using fresh
            · simpa using Nat.succ_le_of_lt room
          | false =>
            cases goes : next v with
            | none => simp [goes] at walks
            | some w =>
              simp only [goes] at walks
              obtain ⟨path, leads, nodup, apart, within⟩ :=
                (ih (v :: visited) w (by simp only [List.length_cons]; omega)).mp walks
              refine ⟨v :: path, .step sound ends goes leads, ?_, ?_, ?_⟩
              · refine List.nodup_cons.mpr ⟨fun member => ?_, nodup⟩
                exact apart v member (by simp)
              · intro u member
                rcases List.mem_cons.mp member with rfl | later
                · exact fresh
                · exact fun seen => apart u later (by simp [seen])
              · simp only [List.length_cons] at within ⊢
                omega
      · rintro ⟨path, leads, nodup, apart, within⟩
        cases leads with
        | final _ ends => exact .inl ends
        | @step _ w path _ _ goes rest =>
          refine .inr ?_
          rw [goes]
          obtain ⟨fresh_path, nodup_path⟩ := List.nodup_cons.mp nodup
          refine (ih (v :: visited) w (by simp only [List.length_cons]; omega)).mpr
            ⟨path, rest, nodup_path, fun u member => ?_, ?_⟩
          · rw [List.mem_cons, not_or]
            refine ⟨?_, apart u (by simp [member])⟩
            rintro rfl
            exact fresh_path member
          · simp only [List.length_cons] at within ⊢
            omega
    · next guard =>
      refine ⟨nofun, fun ⟨path, leads, nodup, apart, within⟩ => absurd ?_ guard⟩
      have head : v ∈ path := by
        cases leads <;> simp
      have room : 0 < path.length := List.length_pos_of_mem head
      exact ⟨by omega, apart v head, leads.ok_of_mem head⟩

end Walk

end Foundation
