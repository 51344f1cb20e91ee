import LedgerDesk.Access.Liveness

/-!
# What the deadline promises

Every instant at which something on the way to an answer ends is entered into the
deadline. The instant at which another declaration starts is not, and a declaration that
starts can leave the declarations an answer rests on unresolved, or resolved otherwise.
-/
namespace LedgerDesk.Access

namespace Authority

variable (a : Authority)

def declarationsAt (t : Int) (c : Consulted) : List Investiture :=
  a.currentDeclarations t c.person c.permission c.scope

/-- The declarations of a triple resolve. -/
def Declared (t : Int) (c : Consulted) : Prop := a.declarationsAt t c ≠ []

/-- The declarations of a triple resolve to the purposes and grades they resolved to. -/
def Steady (now t : Int) (c : Consulted) : Prop :=
  ((a.declarationsAt t c).map signature).head? = ((a.declarationsAt now c).map signature).head? ∧
    ∀ s, s ∈ (a.declarationsAt t c).map signature ↔ s ∈ (a.declarationsAt now c).map signature

/-- No declaration of the triple starts in between. -/
def NoStart (now t : Int) (c : Consulted) : Prop :=
  ∀ i ∈ a.investitures, a.applicable t c.person c.permission c.scope i = true →
    a.applicable now c.person c.permission c.scope i = true

variable {a}

/-! ### Declarations -/

theorem mem_applicableInvestitures {now : Int} {person permission scope : String}
    {i : Investiture} : i ∈ a.applicableInvestitures now person permission scope ↔
      i ∈ a.investitures ∧ a.applicable now person permission scope i = true := by
  rw [applicableInvestitures, List.mem_insertionSort, List.mem_filter]

theorem resolveDeclarations_subset {current : List Investiture}
    {resolutions : List InvestitureResolution} {permission scope : String} {i : Investiture}
    (member : i ∈ resolveDeclarations current resolutions permission scope) : i ∈ current := by
  rw [resolveDeclarations] at member
  split at member
  · cases member
  · exact member
  · dsimp only at member
    split at member
    · exact (List.mem_filter.mp member).1
    · cases member

theorem investitureAllows_inv {now : Int} {account : Account} {permission scope : String}
    (holds : (a.investitureAllows now account permission scope).holds = true) :
    (∃ p, a.permission permission = some p ∧ p.requires_investiture = false ∧
      a.investitureAllows now account permission scope = ⟨true, [], []⟩) ∨
    ∃ p, a.permission permission = some p ∧ p.requires_investiture = true ∧
      a.Declared now ⟨account.person_ref, permission, scope⟩ ∧
      a.investitureAllows now account permission scope =
        ⟨true, (a.declarationsAt now ⟨account.person_ref, permission, scope⟩).flatMap
          a.investitureBounds, [⟨account.person_ref, permission, scope⟩]⟩ := by
  rw [investitureAllows] at holds ⊢
  cases found : a.permission permission with
  | none =>
    rw [found] at holds
    cases holds
  | some p =>
    rw [found] at holds
    dsimp only at holds ⊢
    cases requires : p.requires_investiture with
    | false => exact .inl ⟨p, rfl, requires, by simp [Verdict.of]⟩
    | true =>
      refine .inr ⟨p, rfl, requires, ?_, ?_⟩
      · simpa [requires, Declared, declarationsAt] using holds
      · simp only [requires, Bool.not_true, Bool.false_eq_true, if_false] at holds ⊢
        rw [holds]
        rfl

theorem investitureAllows_iff {now t : Int} {account : Account} {permission scope : String}
    (holds : (a.investitureAllows now account permission scope).holds = true) :
    (a.investitureAllows t account permission scope).holds = true ↔
      ∀ c ∈ (a.investitureAllows now account permission scope).relied, a.Declared t c := by
  rcases investitureAllows_inv holds with
    ⟨p, found, free, verdict⟩ | ⟨p, found, required, -, verdict⟩
  · rw [verdict, investitureAllows, found]
    simp [free]
  · rw [verdict, investitureAllows, found]
    simp [required, Declared, declarationsAt]

/-- The ids the applicable resolutions select among the declarations in force. -/
def selectedIds (current : List Investiture) (resolutions : List InvestitureResolution)
    (permission scope : String) : List String :=
  (resolutions.filter fun r =>
    r.active && r.scope_ref == scope && r.permission_id == permission &&
      current.any fun i => i.id == r.selected_id).map (·.selected_id)

theorem mem_selectedIds {current : List Investiture} {resolutions : List InvestitureResolution}
    {permission scope id : String} : id ∈ selectedIds current resolutions permission scope ↔
      (∃ r ∈ resolutions, (r.active && r.scope_ref == scope && r.permission_id == permission) = true ∧
        r.selected_id = id) ∧ ∃ i ∈ current, i.id = id := by
  simp only [selectedIds, List.mem_map, List.mem_filter, Bool.and_eq_true, List.any_eq_true,
    beq_iff_eq]
  constructor
  · rintro ⟨r, ⟨member, standing, i, stands, same⟩, rfl⟩
    exact ⟨⟨r, member, standing, rfl⟩, i, stands, same⟩
  · rintro ⟨⟨r, member, standing, rfl⟩, i, stands, same⟩
    exact ⟨r, ⟨member, standing, i, stands, same⟩, rfl⟩

theorem dedup_eq_singleton {α : Type*} [DecidableEq α] {l : List α} {x : α} (nonempty : l ≠ [])
    (same : ∀ y ∈ l, y = x) : l.dedup = [x] := by
  have constant : l = List.replicate l.length x := List.eq_replicate_iff.mpr ⟨rfl, same⟩
  rw [constant, List.replicate_dedup]
  exact fun empty => nonempty (List.length_eq_zero_iff.mp empty)

theorem eq_of_dedup_singleton {α : Type*} [DecidableEq α] {l : List α} {x y : α}
    (single : l.dedup = [x]) (member : y ∈ l) : y = x := by
  rw [← List.mem_dedup, single] at member
  exact List.mem_singleton.mp member

/-- Declarations of one signature all resolve. -/
theorem resolve_of_same {current : List Investiture} {resolutions : List InvestitureResolution}
    {permission scope : String} {s : Option String × Option String} (nonempty : current ≠ [])
    (same : ∀ i ∈ current, signature i = s) :
    resolveDeclarations current resolutions permission scope = current := by
  have single : (current.map signature).dedup = [s] := by
    refine dedup_eq_singleton (by simpa using nonempty) fun y member => ?_
    obtain ⟨i, stands, rfl⟩ := List.mem_map.mp member
    exact same i stands
  rw [resolveDeclarations, single]

/-- Declarations of several signatures resolve to the one a resolution selects. -/
theorem resolve_of_differing {current : List Investiture}
    {resolutions : List InvestitureResolution} {permission scope : String}
    (differ : ∀ s, ¬ ∀ i ∈ current, signature i = s) :
    resolveDeclarations current resolutions permission scope =
      match (selectedIds current resolutions permission scope).dedup with
      | [selected] => current.filter fun i => i.id == selected
      | _ => [] := by
  rw [resolveDeclarations]
  split
  · next empty =>
    have vacant : current = [] := by
      simpa using (List.dedup_eq_nil _).mp empty
    exact absurd (by simp [vacant]) (differ (none, none))
  · next s single =>
    refine absurd (fun i member => ?_) (differ s)
    exact eq_of_dedup_singleton single (List.mem_map_of_mem member)
  · rfl

theorem steady_of_same {now t : Int} {c : Consulted} {s : Option String × Option String}
    (later : a.declarationsAt t c ≠ []) (earlier : a.declarationsAt now c ≠ [])
    (same_later : ∀ i ∈ a.declarationsAt t c, signature i = s)
    (same_earlier : ∀ i ∈ a.declarationsAt now c, signature i = s) : a.Steady now t c := by
  have constant : ∀ current : List Investiture, current ≠ [] →
      (∀ i ∈ current, signature i = s) →
      (current.map signature).head? = some s ∧ ∀ x, x ∈ current.map signature ↔ x = s := by
    intro current nonempty same
    cases current with
    | nil => exact absurd rfl nonempty
    | cons i rest =>
      refine ⟨by simp [same i (by simp)], fun x => ⟨fun member => ?_, fun equal => ?_⟩⟩
      · obtain ⟨j, stands, rfl⟩ := List.mem_map.mp member
        exact same j stands
      · rw [equal, ← same i (by simp)]
        exact List.mem_map_of_mem (by simp)
  obtain ⟨head_later, members_later⟩ := constant _ later same_later
  obtain ⟨head_earlier, members_earlier⟩ := constant _ earlier same_earlier
  exact ⟨head_later.trans head_earlier.symm,
    fun x => (members_later x).trans (members_earlier x).symm⟩

/-- Where no declaration of the triple starts, those that resolved still resolve, and to
what they resolved to, until the first of them ends. -/
theorem steady_of_noStart {now t : Int} {c : Consulted} (after : now ≤ t)
    (distinct : (a.investitures.map (·.id)).Nodup) (quiet : a.NoStart now t c)
    (declared : a.Declared now c)
    (early : ∀ i ∈ a.declarationsAt now c, ∀ b ∈ a.investitureBounds i, t < b) :
    a.Declared t c ∧ a.Steady now t c := by
  obtain ⟨first, resolved⟩ := List.exists_mem_of_ne_nil _ declared
  have shrinks : ∀ i, i ∈ a.applicableInvestitures t c.person c.permission c.scope →
      i ∈ a.applicableInvestitures now c.person c.permission c.scope := by
    intro i member
    rw [mem_applicableInvestitures] at member ⊢
    exact ⟨member.1, quiet i member.1 member.2⟩
  have lasts : ∀ i ∈ a.declarationsAt now c,
      i ∈ a.applicableInvestitures t c.person c.permission c.scope := by
    intro i member
    have stood := resolveDeclarations_subset member
    rw [mem_applicableInvestitures] at stood ⊢
    refine ⟨stood.1, ?_⟩
    have expiry := early i member i.expires_at (by simp [investitureBounds])
    have ending := early i member _ (List.mem_cons_of_mem i.expires_at (List.mem_singleton_self _))
    have before := stood.2
    simp only [applicable, Bool.and_eq_true, decide_eq_true_eq] at before ⊢
    obtain ⟨⟨⟨⟨⟨⟨⟨⟨⟨active, person⟩, permission⟩, -⟩, scope⟩, holder⟩, revision⟩, starts⟩, -⟩,
      formed⟩ := before
    refine ⟨⟨⟨⟨⟨⟨⟨⟨⟨active, person⟩, permission⟩, expiry⟩, scope⟩, holder⟩, revision⟩, ?_⟩, ending⟩,
      formed⟩
    rw [Option.any_eq_true] at starts ⊢
    obtain ⟨startsAt, found, started⟩ := starts
    rw [Bool.and_eq_true, decide_eq_true_eq] at started
    refine ⟨startsAt, found, ?_⟩
    rw [Bool.and_eq_true, decide_eq_true_eq]
    exact ⟨started.1, by omega⟩
  have nonempty : a.applicableInvestitures t c.person c.permission c.scope ≠ [] :=
    List.ne_nil_of_mem (lasts first resolved)
  by_cases one : ∃ s, ∀ i ∈ a.applicableInvestitures t c.person c.permission c.scope,
      signature i = s
  · obtain ⟨s, same⟩ := one
    have all : a.declarationsAt t c = a.applicableInvestitures t c.person c.permission c.scope :=
      resolve_of_same nonempty same
    have later : a.declarationsAt t c ≠ [] := by
      rw [all]
      exact nonempty
    refine ⟨later, steady_of_same later declared ?_ fun i member => same i (lasts i member)⟩
    rw [all]
    exact same
  · have differ_later := fun s same => one ⟨s, same⟩
    have differ_now : ∀ s, ¬ ∀ i ∈ a.applicableInvestitures now c.person c.permission c.scope,
        signature i = s :=
      fun s same => one ⟨s, fun i member => same i (shrinks i member)⟩
    have chosen : a.declarationsAt now c = _ := resolve_of_differing differ_now
    rw [chosen] at resolved
    split at resolved
    · next selected single =>
      obtain ⟨-, picked⟩ := List.mem_filter.mp resolved
      have picked : first.id = selected := by simpa using picked
      have selects : selected ∈ selectedIds
          (a.applicableInvestitures now c.person c.permission c.scope) a.resolutions
          c.permission c.scope := by
        rw [← List.mem_dedup, single]
        simp
      have still : (selectedIds (a.applicableInvestitures t c.person c.permission c.scope)
          a.resolutions c.permission c.scope).dedup = [selected] := by
        have resolution := (mem_selectedIds.mp selects).1
        refine dedup_eq_singleton (List.ne_nil_of_mem (a := selected) ?_) fun id member => ?_
        · refine mem_selectedIds.mpr ⟨resolution, first, lasts first ?_, picked⟩
          rw [chosen, single]
          exact resolved
        · obtain ⟨standing, i, stands, same⟩ := mem_selectedIds.mp member
          exact eq_of_dedup_singleton single
            (mem_selectedIds.mpr ⟨standing, i, shrinks i stands, same⟩)
      have later : a.declarationsAt t c =
          (a.applicableInvestitures t c.person c.permission c.scope).filter
            (fun i => i.id == selected) := by
        have resolves : a.declarationsAt t c = _ := resolve_of_differing differ_later
        rw [resolves, still]
      have only : ∀ i ∈ a.investitures, i.id = selected → i = first := by
        intro i member same
        have stands := (mem_applicableInvestitures.mp
          (resolveDeclarations_subset (by
            rw [chosen, single]
            exact resolved : first ∈ a.declarationsAt now c))).1
        exact List.inj_on_of_nodup_map distinct member stands (same.trans picked.symm)
      have member_later : first ∈ a.declarationsAt t c := by
        rw [later, List.mem_filter]
        refine ⟨lasts first ?_, by simpa using picked⟩
        rw [chosen, single]
        exact resolved
      refine ⟨List.ne_nil_of_mem member_later,
        steady_of_same (s := signature first) (List.ne_nil_of_mem member_later) declared
          (fun i member => ?_) fun i member => ?_⟩
      · rw [later, List.mem_filter] at member
        rw [only i (mem_applicableInvestitures.mp member.1).1 (by simpa using member.2)]
      · rw [chosen, single] at member
        obtain ⟨stood, same⟩ := List.mem_filter.mp member
        rw [only i (mem_applicableInvestitures.mp stood).1 (by simpa using same)]
    · cases resolved

/-! ### Grants and supports -/

theorem supportAlive_inv {now : Int} {visited : List Node} {id : String}
    (holds : (a.supportAlive now visited id).holds = true) :
    ∃ s, a.support id = some s ∧ s.active = true ∧
      (visited.length < visitBound ∧ Node.support id ∉ visited) ∧
      ((s.kind = .domain ∧ a.supportAlive now visited id = ⟨true, [s.expires_at], []⟩) ∨
        ∃ g, s.kind = .delegated ∧ s.authority_id.bind a.grant = some g ∧
          (a.grantAlive now (.support id :: visited) g).holds = true ∧
          a.supportAlive now visited id =
            (a.grantAlive now (.support id :: visited) g).entering [s.expires_at]) := by
  rw [supportAlive] at holds ⊢
  cases found : a.support id with
  | none =>
    rw [found] at holds
    cases holds
  | some s =>
    rw [found] at holds
    dsimp only at holds ⊢
    split at holds
    · next guard =>
      refine ⟨s, rfl, guard.1, guard.2.2, ?_⟩
      rw [dif_pos guard]
      cases kind : s.kind with
      | domain => exact .inl ⟨rfl, rfl⟩
      | delegated =>
        rw [kind] at holds
        cases below : s.authority_id.bind a.grant with
        | none =>
          rw [below] at holds
          cases holds
        | some g =>
          rw [below] at holds
          exact .inr ⟨g, rfl, rfl, holds, rfl⟩
    · cases holds

theorem grantAlive_inv {now : Int} {visited : List Node} {g : GrantRecord}
    (holds : (a.grantAlive now visited g).holds = true) :
    ∃ account p, a.account g.account_id = some account ∧ a.permission g.permission_id = some p ∧
      g.withdrawn = false ∧ (visited.length < visitBound ∧ Node.grant g.id ∉ visited) ∧
      (!account.restricted && p.active && a.contains g.scope_ref g.scope_ref) = true ∧
      (a.investitureAllows now account g.permission_id g.scope_ref).holds = true ∧
      (a.supportAlive now (.grant g.id :: visited) g.support_ref).holds = true ∧
      a.grantAlive now visited g =
        ((a.investitureAllows now account g.permission_id g.scope_ref).andThen
          (a.supportAlive now (.grant g.id :: visited) g.support_ref)).entering
            [g.expires_at] := by
  rw [grantAlive] at holds ⊢
  split at holds
  · next guard =>
    rw [dif_pos guard]
    cases held : a.account g.account_id with
    | none =>
      rw [held] at holds
      cases holds
    | some account =>
      cases found : a.permission g.permission_id with
      | none =>
        rw [held, found] at holds
        cases holds
      | some p =>
        rw [held, found] at holds
        dsimp only at holds ⊢
        split at holds
        · next standing =>
          rw [Verdict.entering_holds, Verdict.andThen_holds, Bool.and_eq_true] at holds
          exact ⟨account, p, rfl, rfl, guard.1, ⟨guard.2.2.2, guard.2.2.1⟩, standing, holds.1,
            holds.2, by rw [if_pos standing]⟩
        · cases holds
  · cases holds

theorem andThen_eq {v w : Verdict} (holds : v.holds = true) :
    v.andThen w = ⟨w.holds, v.bounds ++ w.bounds, v.relied ++ w.relied⟩ := by
  rw [Verdict.andThen, if_pos holds]

/-- Before every instant it entered, a grant or support that was alive is alive exactly if
the declarations it rests on resolve. -/
theorem alive_iff (a : Authority) (now t : Int) (visited : List Node) :
    (∀ id, (a.supportAlive now visited id).holds = true →
      (∀ b ∈ (a.supportAlive now visited id).bounds, t < b) →
      ((a.supportAlive t visited id).holds = true ↔
        ∀ c ∈ (a.supportAlive now visited id).relied, a.Declared t c)) ∧
    ∀ g, (a.grantAlive now visited g).holds = true →
      (∀ b ∈ (a.grantAlive now visited g).bounds, t < b) →
      ((a.grantAlive t visited g).holds = true ↔
        ∀ c ∈ (a.grantAlive now visited g).relied, a.Declared t c) := by
  induction fuel : visitBound - visited.length using Nat.strong_induction_on
    generalizing visited with
  | _ fuel ih =>
    subst fuel
    refine ⟨fun id holds early => ?_, fun g holds early => ?_⟩
    · obtain ⟨s, found, active, room, kind⟩ := supportAlive_inv holds
      rw [supportAlive_holds, found]
      rcases kind with ⟨domain, verdict⟩ | ⟨g, delegated, below, alive, verdict⟩
      · rw [verdict] at early ⊢
        have current := early s.expires_at (by simp)
        simp [room, supportCurrent, active, current, domain]
      · rw [verdict] at early ⊢
        have current := early s.expires_at (by simp [Verdict.entering])
        have deeper : visitBound - (Node.support id :: visited).length <
            visitBound - visited.length := by
          rw [List.length_cons]
          omega
        have inner := (ih _ deeper _ rfl).2 g alive
          fun b member => early b (by simp [Verdict.entering, member])
        simp only [Verdict.entering, Option.any_some, supportCurrent, active, current, delegated,
          below, decide_eq_true room, decide_true, Bool.and_self, Bool.true_and]
        exact inner
    · obtain ⟨account, p, held, permitted, standing, room, sound, declared, alive, verdict⟩ :=
        grantAlive_inv holds
      rw [verdict, andThen_eq declared] at early ⊢
      have current := early g.expires_at (by simp [Verdict.entering])
      have deeper : visitBound - (Node.grant g.id :: visited).length <
          visitBound - visited.length := by
        rw [List.length_cons]
        omega
      have inner := (ih _ deeper _ rfl).1 g.support_ref alive
        fun b member => early b (by simp [Verdict.entering, member])
      have resolves := investitureAllows_iff (t := t) declared
      have here : a.grantCurrent t g = (a.investitureAllows t account g.permission_id
          g.scope_ref).holds := by
        simp only [grantCurrent, held, permitted, standing, current, sound, Bool.not_false,
          decide_true, Bool.and_self, Bool.true_and]
      rw [grantAlive_holds, here, decide_eq_true room, Bool.true_and, Bool.and_eq_true, resolves,
        inner]
      simp only [Verdict.entering, List.mem_append]
      exact ⟨fun both c member => member.elim (both.1 c) (both.2 c),
        fun all => ⟨fun c member => all c (.inl member), fun c member => all c (.inr member)⟩⟩

/-! ### Evaluations -/

variable {now t : Int} {account : Option Account} {permission scope : String} {faculty : Faculty}

theorem anyGrant_inv {carries : GrantRecord → Bool} {grants : List GrantRecord}
    (holds : (a.anyGrant now carries grants).holds = true) :
    ∃ g ∈ grants, carries g = true ∧ (a.grantAlive now [] g).holds = true ∧
      (a.grantAlive now [] g).bounds ⊆ (a.anyGrant now carries grants).bounds ∧
      (a.anyGrant now carries grants).relied = (a.grantAlive now [] g).relied := by
  induction grants with
  | nil => cases holds
  | cons g grants ih =>
    rw [anyGrant] at holds ⊢
    split at holds
    · next matching =>
      rw [if_pos matching]
      cases alive : (a.grantAlive now [] g).holds with
      | true =>
        have first : (a.grantAlive now [] g).orElse (a.anyGrant now carries grants) =
            a.grantAlive now [] g := by rw [Verdict.orElse, if_pos alive]
        rw [first]
        exact ⟨g, by simp, matching, alive, List.Subset.refl _, rfl⟩
      | false =>
        rw [Verdict.orElse_holds, alive, Bool.false_or] at holds
        obtain ⟨g', member, carried, living, within, relied⟩ := ih holds
        have later : (a.grantAlive now [] g).orElse (a.anyGrant now carries grants) =
            ⟨(a.anyGrant now carries grants).holds,
              (a.grantAlive now [] g).bounds ++ (a.anyGrant now carries grants).bounds,
              (a.anyGrant now carries grants).relied⟩ := by
          rw [Verdict.orElse, alive]
          rfl
        rw [later]
        exact ⟨g', by simp [member], carried, living,
          List.Subset.trans within (List.subset_append_right _ _), relied⟩
    · next other =>
      rw [if_neg other]
      obtain ⟨g', member, rest⟩ := ih holds
      exact ⟨g', by simp [member], rest⟩

/-- What an action is allowed by: declarations, and the first grant that carries it. -/
theorem allows_inv (holds : (a.allows now account permission faculty scope).holds = true) :
    ∃ holder, account = some holder ∧ holder.restricted = false ∧
      (a.investitureAllows now holder permission scope).holds = true ∧
      ∃ g ∈ a.grants, a.carries holder permission faculty scope g = true ∧
        (a.grantAlive now [] g).holds = true ∧
        (a.investitureAllows now holder permission scope).bounds ⊆
          (a.allows now account permission faculty scope).bounds ∧
        (a.grantAlive now [] g).bounds ⊆ (a.allows now account permission faculty scope).bounds ∧
        (a.allows now account permission faculty scope).relied =
          (a.investitureAllows now holder permission scope).relied ++
            (a.grantAlive now [] g).relied := by
  cases account with
  | none => cases holds
  | some holder =>
    rw [allows] at holds ⊢
    split at holds
    · cases holds
    · next free =>
      rw [if_neg free]
      rw [Verdict.andThen_holds, Bool.and_eq_true] at holds
      obtain ⟨declared, carried⟩ := holds
      obtain ⟨g, member, matching, alive, within, relied⟩ := anyGrant_inv carried
      rw [andThen_eq declared]
      exact ⟨holder, rfl, by simpa using free, declared, g, member, matching, alive,
        List.subset_append_left _ _, List.Subset.trans within (List.subset_append_right _ _), by rw [relied]⟩

theorem allows_of_declared (holds : (a.allows now account permission faculty scope).holds = true)
    (early : ∀ b ∈ (a.allows now account permission faculty scope).bounds, t < b)
    (declared : ∀ c ∈ (a.allows now account permission faculty scope).relied, a.Declared t c) :
    (a.allows t account permission faculty scope).holds = true := by
  obtain ⟨holder, rfl, free, invested, g, member, matching, alive, -, within, relied⟩ :=
    allows_inv holds
  rw [relied] at declared
  have still : (a.investitureAllows t holder permission scope).holds = true :=
    (investitureAllows_iff invested).mpr fun c member => declared c (by simp [member])
  have living : (a.grantAlive t [] g).holds = true :=
    ((a.alive_iff now t []).2 g alive fun b member => early b (within member)).mpr
      fun c member => declared c (by simp [member])
  rw [allows_holds, free, still, Bool.not_false, Bool.and_self, Bool.true_and, List.any_eq_true]
  exact ⟨g, member, by rw [matching, living]; rfl⟩

/-- Where one grant at most carries the action, it is allowed later only if every
declaration it rested on still resolves. -/
theorem declared_of_allows (holds : (a.allows now account permission faculty scope).holds = true)
    (early : ∀ b ∈ (a.allows now account permission faculty scope).bounds, t < b)
    (sole : ∀ holder, account = some holder → ∀ g ∈ a.grants, ∀ g' ∈ a.grants,
      a.carries holder permission faculty scope g = true →
      a.carries holder permission faculty scope g' = true → g = g')
    (later : (a.allows t account permission faculty scope).holds = true) :
    ∀ c ∈ (a.allows now account permission faculty scope).relied, a.Declared t c := by
  obtain ⟨holder, rfl, -, invested, g, member, matching, alive, -, within, relied⟩ :=
    allows_inv holds
  obtain ⟨holder', same, -, invested', g', member', matching', alive', -⟩ := allows_inv later
  cases same
  obtain rfl := sole holder rfl g member g' member' matching matching'
  intro c rests
  rw [relied, List.mem_append] at rests
  rcases rests with top | chain
  · exact (investitureAllows_iff invested).mp invested' c top
  · exact ((a.alive_iff now t []).2 g alive fun b member => early b (within member)).mp alive' c
      chain

theorem declaredGrade_of_signatures {current current' : List Investiture} {purpose : String}
    (head : (current'.map signature).head? = (current.map signature).head?)
    (members : ∀ s, s ∈ current'.map signature ↔ s ∈ current.map signature) :
    declaredGrade current' purpose = declaredGrade current purpose := by
  have mismatch : current'.any (fun i => i.declaration.purposeRef != some purpose) =
      current.any fun i => i.declaration.purposeRef != some purpose := by
    have signed : ∀ l : List Investiture, (l.any fun i => i.declaration.purposeRef != some purpose) =
        (l.map signature).any fun s => s.1 != some purpose := by
      intro l
      rw [List.any_map]
      rfl
    rw [signed, signed, Bool.eq_iff_iff, List.any_eq_true, List.any_eq_true]
    exact exists_congr fun s => and_congr_left fun _ => members s
  cases current with
  | nil =>
    cases current' with
    | nil => rfl
    | cons i rest => cases head
  | cons j tail =>
    cases current' with
    | nil => cases head
    | cons i rest =>
      have same : signature i = signature j := by simpa using head
      have grade : i.declaration.maximumGradeRef = j.declaration.maximumGradeRef :=
        congrArg Prod.snd same
      rw [declaredGrade, declaredGrade, mismatch, grade]

theorem readingMaximum_of_steady {purpose : String}
    (reads : a.readingMaximum now account permission scope purpose ≠ "NONE")
    (early : ∀ b ∈ (a.allows now account permission .exercise scope).bounds, t < b)
    (steady : ∀ c ∈ (a.allows now account permission .exercise scope).relied,
      a.Declared t c ∧ a.Steady now t c) :
    a.readingMaximum t account permission scope purpose =
      a.readingMaximum now account permission scope purpose := by
  have holds : (a.allows now account permission .exercise scope).holds = true := by
    by_contra refused
    exact reads (by unfold readingMaximum; rw [if_neg refused])
  have later := allows_of_declared holds early fun c member => (steady c member).1
  obtain ⟨holder, rfl, -, invested, g, -, -, -, -, -, relied⟩ := allows_inv holds
  unfold readingMaximum
  rw [if_pos later, if_pos holds]
  rcases investitureAllows_inv invested with
    ⟨p, found, free, -⟩ | ⟨p, found, required, -, verdict⟩
  · simp only [found, free, Bool.false_eq_true, if_false]
  · simp only [found, required, if_true]
    have rests : (⟨holder.person_ref, permission, scope⟩ : Consulted) ∈
        (a.allows now (some holder) permission .exercise scope).relied := by
      rw [relied, verdict]
      simp
    obtain ⟨head, members⟩ := (steady _ rests).2
    exact declaredGrade_of_signatures head members

/-- A term, but for the declarations that are listed in it. -/
def InvitationTerm.granted (term : InvitationTerm) : InvitationTerm :=
  { term with authority_declarations := [] }

theorem andThen_inv {v w : Verdict} (holds : (v.andThen w).holds = true) :
    v.holds = true ∧ w.holds = true ∧
      v.andThen w = ⟨true, v.bounds ++ w.bounds, v.relied ++ w.relied⟩ := by
  rw [Verdict.andThen_holds, Bool.and_eq_true] at holds
  exact ⟨holds.1, holds.2, by rw [andThen_eq holds.1, holds.2]⟩

theorem selectorVerdict_of_declared {g : GrantSelector}
    (holds : (a.selectorVerdict now account g).holds = true)
    (early : ∀ b ∈ (a.selectorVerdict now account g).bounds, t < b)
    (declared : ∀ c ∈ (a.selectorVerdict now account g).relied, a.Declared t c) :
    (a.selectorVerdict t account g).holds = true := by
  rw [selectorVerdict] at holds early declared
  obtain ⟨supported, allowed, verdict⟩ := andThen_inv holds
  obtain ⟨invites, grants, verdict'⟩ := andThen_inv allowed
  rw [verdict, verdict'] at early declared
  simp only [List.mem_append] at early declared
  rw [selectorVerdict, Verdict.andThen_holds, Verdict.andThen_holds,
    ((a.alive_iff now t []).1 g.support_ref supported fun b member => early b (.inl member)).mpr
      fun c member => declared c (.inl member),
    allows_of_declared invites (fun b member => early b (.inr (.inl member)))
      fun c member => declared c (.inr (.inl member)),
    allows_of_declared grants (fun b member => early b (.inr (.inr member)))
      fun c member => declared c (.inr (.inr member))]
  rfl

theorem compileFrom_inv {family : Family} {seen : List (String × Faculty × String)}
    {g : GrantSelector} {selectors : List GrantSelector} {terms : List InvitationTerm}
    (compiled : (a.compileFrom now account family seen (g :: selectors)).terms = some terms) :
    ∃ issuer p s support more, account = some issuer ∧ selectorKey g ∉ seen ∧
      a.permissions.find? (fun p => p.id == g.permission_id && p.active && p.family == family) =
        some p ∧
      a.activeScope g.scope_ref = some s ∧ a.support g.support_ref = some support ∧
      (a.selectorVerdict now account g).holds = true ∧
      a.parentCarries issuer support g = true ∧
      (a.compileFrom now account family (selectorKey g :: seen) selectors).terms = some more ∧
      terms = a.termOf now issuer g p s support :: more ∧
      (a.compileFrom now account family seen (g :: selectors)).bounds =
        (a.selectorVerdict now account g).bounds ++
          (a.compileFrom now account family (selectorKey g :: seen) selectors).bounds ∧
      (a.compileFrom now account family seen (g :: selectors)).relied =
        (a.selectorVerdict now account g).relied ++
          (a.compileFrom now account family (selectorKey g :: seen) selectors).relied := by
  simp only [compileFrom] at compiled ⊢
  split at compiled
  · cases compiled
  · next fresh =>
    rw [if_neg fresh]
    split at compiled
    · next p s support issuer held located supported =>
      split at compiled
      · next carried =>
        obtain ⟨verdict, parent⟩ := (Bool.and_eq_true _ _).mp carried
        obtain ⟨more, compiled_rest, rfl⟩ := Option.map_eq_some_iff.mp compiled
        refine ⟨issuer, p, s, support, more, rfl, fresh, held, located, supported, verdict, parent,
          compiled_rest, rfl, ?_, ?_⟩
        · simp only [carried, if_true]
        · simp only [carried, if_true]
      · cases compiled
    · cases compiled

theorem compileFrom_of_declared {family : Family} {selectors : List GrantSelector} :
    ∀ {seen : List (String × Faculty × String)} {terms : List InvitationTerm},
      (a.compileFrom now account family seen selectors).terms = some terms →
      (∀ b ∈ (a.compileFrom now account family seen selectors).bounds, t < b) →
      (∀ c ∈ (a.compileFrom now account family seen selectors).relied, a.Declared t c) →
      ∃ terms', (a.compileFrom t account family seen selectors).terms = some terms' ∧
        terms'.map InvitationTerm.granted = terms.map InvitationTerm.granted := by
  induction selectors with
  | nil =>
    intro seen terms compiled _ _
    cases compiled
    exact ⟨[], rfl, rfl⟩
  | cons g selectors ih =>
    intro seen terms compiled early declared
    obtain ⟨issuer, p, s, support, more, rfl, fresh, held, located, supported, verdict, parent,
      compiled_rest, rfl, bounds, relied⟩ := compileFrom_inv compiled
    rw [bounds] at early
    rw [relied] at declared
    have later := selectorVerdict_of_declared verdict
      (fun b member => early b (List.mem_append_left _ member))
      fun c member => declared c (List.mem_append_left _ member)
    obtain ⟨terms', compiled', granted⟩ := ih compiled_rest
      (fun b member => early b (List.mem_append_right _ member))
      fun c member => declared c (List.mem_append_right _ member)
    refine ⟨a.termOf t issuer g p s support :: terms', ?_, ?_⟩
    · simp only [compileFrom, if_neg fresh, held, located, supported, later, parent, Bool.and_self,
        if_true, compiled', Option.map_some]
    · rw [List.map_cons, List.map_cons, granted]
      rfl

/-! ### What of the declarations is entered -/

/-- Every triple relied on resolves, and the ends of what it resolves to are entered. -/
def Entered (a : Authority) (now : Int) (bounds : List Int) (relied : List Consulted) : Prop :=
  ∀ c ∈ relied, a.Declared now c ∧
    ∀ i ∈ a.declarationsAt now c, ∀ b ∈ a.investitureBounds i, b ∈ bounds

theorem Entered.mono {bounds bounds' : List Int} {relied : List Consulted}
    (entered : Entered a now bounds relied) (within : bounds ⊆ bounds') :
    Entered a now bounds' relied :=
  fun c member => ⟨(entered c member).1,
    fun i resolved b ends => within ((entered c member).2 i resolved b ends)⟩

theorem Entered.append {bounds bounds' : List Int} {relied relied' : List Consulted}
    (entered : Entered a now bounds relied) (entered' : Entered a now bounds' relied') :
    Entered a now (bounds ++ bounds') (relied ++ relied') := by
  intro c member
  rcases List.mem_append.mp member with first | second
  · exact entered.mono (List.subset_append_left _ _) c first
  · exact entered'.mono (List.subset_append_right _ _) c second

theorem investitureAllows_entered {holder : Account}
    (holds : (a.investitureAllows now holder permission scope).holds = true) :
    Entered a now (a.investitureAllows now holder permission scope).bounds
      (a.investitureAllows now holder permission scope).relied := by
  rcases investitureAllows_inv holds with ⟨p, -, -, verdict⟩ | ⟨p, -, -, declared, verdict⟩
  · rw [verdict]
    exact nofun
  · rw [verdict]
    intro c member
    rw [List.mem_singleton.mp member]
    exact ⟨declared, fun i resolved b ends => List.mem_flatMap.mpr ⟨i, resolved, ends⟩⟩

theorem alive_entered (a : Authority) (now : Int) (visited : List Node) :
    (∀ id, (a.supportAlive now visited id).holds = true →
      Entered a now (a.supportAlive now visited id).bounds
        (a.supportAlive now visited id).relied) ∧
    ∀ g, (a.grantAlive now visited g).holds = true →
      Entered a now (a.grantAlive now visited g).bounds (a.grantAlive now visited g).relied := by
  induction fuel : visitBound - visited.length using Nat.strong_induction_on
    generalizing visited with
  | _ fuel ih =>
    subst fuel
    refine ⟨fun id holds => ?_, fun g holds => ?_⟩
    · obtain ⟨s, -, -, room, kind⟩ := supportAlive_inv holds
      rcases kind with ⟨-, verdict⟩ | ⟨g, -, -, alive, verdict⟩
      · rw [verdict]
        exact nofun
      · have inner := (ih _ (by rw [List.length_cons]; omega) _ rfl).2 g alive
        rw [verdict]
        exact inner.mono (List.subset_append_right _ _)
    · obtain ⟨holder, p, -, -, -, room, -, declared, alive, verdict⟩ := grantAlive_inv holds
      have inner := (ih _ (by rw [List.length_cons]; omega) _ rfl).1 g.support_ref alive
      rw [verdict, andThen_eq declared]
      exact ((investitureAllows_entered declared).append inner).mono
        (List.subset_append_right _ _)

theorem allows_entered (holds : (a.allows now account permission faculty scope).holds = true) :
    Entered a now (a.allows now account permission faculty scope).bounds
      (a.allows now account permission faculty scope).relied := by
  obtain ⟨holder, -, -, declared, g, -, -, alive, top, chain, relied⟩ := allows_inv holds
  rw [relied]
  intro c member
  rcases List.mem_append.mp member with first | second
  · exact (investitureAllows_entered declared).mono top c first
  · exact ((a.alive_entered now []).2 g alive).mono chain c second

theorem selectorVerdict_entered {g : GrantSelector}
    (holds : (a.selectorVerdict now account g).holds = true) :
    Entered a now (a.selectorVerdict now account g).bounds
      (a.selectorVerdict now account g).relied := by
  rw [selectorVerdict] at holds ⊢
  obtain ⟨supported, allowed, verdict⟩ := andThen_inv holds
  obtain ⟨invites, grants, verdict'⟩ := andThen_inv allowed
  rw [verdict, verdict']
  exact ((a.alive_entered now []).1 g.support_ref supported).append
    ((allows_entered invites).append (allows_entered grants))

theorem compileFrom_entered {family : Family} {selectors : List GrantSelector} :
    ∀ {seen : List (String × Faculty × String)} {terms : List InvitationTerm},
      (a.compileFrom now account family seen selectors).terms = some terms →
      Entered a now (a.compileFrom now account family seen selectors).bounds
        (a.compileFrom now account family seen selectors).relied := by
  induction selectors with
  | nil =>
    intro seen terms _
    exact nofun
  | cons g selectors ih =>
    intro seen terms compiled
    obtain ⟨-, -, -, -, more, -, -, -, -, -, verdict, -, rest, -, bounds, relied⟩ :=
      compileFrom_inv compiled
    rw [bounds, relied]
    exact (selectorVerdict_entered verdict).append (ih rest)

/-- Before the deadline, a triple for which nothing starts is steady. -/
theorem steady_of_entered {bounds : List Int} {relied : List Consulted} (after : now ≤ t)
    (distinct : (a.investitures.map (·.id)).Nodup) (entered : Entered a now bounds relied)
    (early : ∀ b ∈ bounds, t < b) (quiet : ∀ c ∈ relied, a.NoStart now t c) :
    ∀ c ∈ relied, a.Declared t c ∧ a.Steady now t c := by
  intro c member
  obtain ⟨declared, ends⟩ := entered c member
  exact steady_of_noStart after distinct (quiet c member) declared
    fun i resolved b within => early b (ends i resolved b within)

/-- Before its deadline an answer stands exactly as long as the declarations it rests on
resolve, and a grade as long as they resolve to what they did. They do so whenever none
of them starts in between. -/
theorem deadline_sound (a : Authority) (now t : Int) :
    (∀ g, (a.grantAlive now [] g).holds = true → t < deadline (a.grantAlive now [] g).bounds →
      ((a.grantAlive t [] g).holds = true ↔
        ∀ c ∈ (a.grantAlive now [] g).relied, a.Declared t c)) ∧
    (∀ account permission faculty scope,
      (a.allows now account permission faculty scope).holds = true →
      t < deadline (a.allows now account permission faculty scope).bounds →
      ((∀ c ∈ (a.allows now account permission faculty scope).relied, a.Declared t c) →
        (a.allows t account permission faculty scope).holds = true) ∧
      ((∀ holder, account = some holder → ∀ g ∈ a.grants, ∀ g' ∈ a.grants,
          a.carries holder permission faculty scope g = true →
          a.carries holder permission faculty scope g' = true → g = g') →
        (a.allows t account permission faculty scope).holds = true →
        ∀ c ∈ (a.allows now account permission faculty scope).relied, a.Declared t c) ∧
      (now ≤ t → (a.investitures.map (·.id)).Nodup →
        (∀ c ∈ (a.allows now account permission faculty scope).relied, a.NoStart now t c) →
        ∀ c ∈ (a.allows now account permission faculty scope).relied,
          a.Declared t c ∧ a.Steady now t c)) ∧
    (∀ account permission scope purpose,
      a.readingMaximum now account permission scope purpose ≠ "NONE" →
      t < deadline (a.allows now account permission .exercise scope).bounds →
      (∀ c ∈ (a.allows now account permission .exercise scope).relied,
        a.Declared t c ∧ a.Steady now t c) →
      a.readingMaximum t account permission scope purpose =
        a.readingMaximum now account permission scope purpose) ∧
    ∀ account family selectors terms,
      (a.compile now account family selectors).terms = some terms →
      t < deadline (a.compile now account family selectors).bounds →
      ((∀ c ∈ (a.compile now account family selectors).relied, a.Declared t c) →
        ∃ terms', (a.compile t account family selectors).terms = some terms' ∧
          terms'.map InvitationTerm.granted = terms.map InvitationTerm.granted) ∧
      (now ≤ t → (a.investitures.map (·.id)).Nodup →
        (∀ c ∈ (a.compile now account family selectors).relied, a.NoStart now t c) →
        ∀ c ∈ (a.compile now account family selectors).relied, a.Declared t c) := by
  refine ⟨fun g alive early => (a.alive_iff now t []).2 g alive (lt_deadline early),
    fun account permission faculty scope holds early =>
      ⟨allows_of_declared holds (lt_deadline early),
        declared_of_allows holds (lt_deadline early), fun after distinct quiet =>
          steady_of_entered after distinct (allows_entered holds) (lt_deadline early) quiet⟩,
    fun account permission scope purpose reads early =>
      readingMaximum_of_steady reads (lt_deadline early),
    fun account family selectors terms compiled early =>
      ⟨compileFrom_of_declared compiled (lt_deadline early), fun after distinct quiet c member =>
        (steady_of_entered after distinct (compileFrom_entered compiled) (lt_deadline early)
          quiet c member).1⟩⟩

end Authority

/-! ### A declaration that starts before the deadline -/

/-- A declaration for reading in one scope, from an instant, up to a grade. -/
def readingInvestiture (id : String) (startsAt : Int) (grade : String) : Investiture where
  id := id
  person_ref := "person"
  permission_id := "read_people"
  scope_ref := "scope"
  declaration :=
    { holderPersonRef := some "person", revision := some 1, startsAt := some startsAt,
      termination := .expires (some 100), issuerPersonRef := some "issuer",
      issuerCapacityRef := some "capacity", functionRef := some "function",
      purposeRef := some "purpose", maximumGradeRef := some grade,
      independenceDeclarationRef := some "independence",
      replacementOrChallengeProcedureRef := some "procedure",
      continuousObligationAcceptanceRef := .null, matters := some [], partitions := some [],
      risks := some [], populationRef := some "population" }
  expires_at := 100
  active := true
  revision := 1

def readingAccount : Account := ⟨"account", "person", false, 1, none⟩

/-- One grant on a domain support, a declaration in force since 0 and another from 50 on. -/
def readingAuthority : Authority where
  accounts := [readingAccount]
  permissions := [⟨"read_people", "Read people", .application, 1, true, true⟩]
  scopes := [⟨"scope", none, "Scope", "purpose", 1, true⟩]
  supports := [⟨"support", .domain, none, "Support", 100, true, 1⟩]
  grants := [⟨"grant", "account", "read_people", .exercise, "scope", "support", 100, false, 1⟩]
  investitures := [readingInvestiture "first" 0 "CONTENT", readingInvestiture "second" 50 "EXCERPT"]
  rules := []
  revalidationEvents := []
  resolutions := []

/-- At 10 reading is allowed with a deadline of 100; at 60 the two declarations disagree,
nothing resolves them, and reading is refused. -/
theorem started_declaration_before_deadline :
    (readingAuthority.allows 10 (some readingAccount) "read_people" .exercise "scope").holds = true ∧
      deadline (readingAuthority.allows 10 (some readingAccount) "read_people" .exercise
        "scope").bounds = 100 ∧
      (readingAuthority.allows 60 (some readingAccount) "read_people" .exercise
        "scope").holds = false ∧
      readingAuthority.readingMaximum 10 (some readingAccount) "read_people" "scope" "purpose" =
        "CONTENT" ∧
      readingAuthority.readingMaximum 60 (some readingAccount) "read_people" "scope" "purpose" =
        "NONE" := by
  decide +kernel

end LedgerDesk.Access
