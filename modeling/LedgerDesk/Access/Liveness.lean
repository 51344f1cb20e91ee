import LedgerDesk.Access.Authority

/-!
# When a grant is alive

The recursion through supports and grants is a guarded walk: a grant is alive exactly
when a chain of current grants and supports leads from it to a domain support, repeats
nothing and stays within the bound. Withdrawing and deactivating only take chains away.
-/
namespace LedgerDesk.Access

open Foundation

namespace Verdict

@[simp] theorem of_holds (holds : Bool) : (Verdict.of holds).holds = holds := rfl

@[simp] theorem entering_holds (v : Verdict) (bounds : List Int) :
    (v.entering bounds).holds = v.holds := rfl

@[simp] theorem andThen_holds (v w : Verdict) : (v.andThen w).holds = (v.holds && w.holds) := by
  rw [andThen]
  cases taken : v.holds
  · simp [taken]
  · simp

@[simp] theorem orElse_holds (v w : Verdict) : (v.orElse w).holds = (v.holds || w.holds) := by
  rw [orElse]
  cases taken : v.holds
  · simp
  · simp [taken]

end Verdict

namespace Authority

variable (a : Authority)

/-- The grant, its account, its permission, its scope and its declarations are current. -/
def grantCurrent (now : Int) (g : GrantRecord) : Bool :=
  !g.withdrawn && now < g.expires_at &&
    match a.account g.account_id, a.permission g.permission_id with
    | some account, some p =>
      !account.restricted && p.active && a.contains g.scope_ref g.scope_ref &&
        (a.investitureAllows now account g.permission_id g.scope_ref).holds
    | _, _ => false

def supportCurrent (now : Int) (s : SupportDefinition) : Bool := s.active && now < s.expires_at

def nodeCurrent (now : Int) : Node → Bool
  | .support id => (a.support id).any (supportCurrent now)
  | .grant id => (a.grant id).any (a.grantCurrent now)

def isDomain : Node → Bool
  | .support id => (a.support id).any fun s => s.kind == .domain
  | .grant _ => false

/-- A delegated support rests on a grant, and a grant on a support. -/
def restsOn : Node → Option Node
  | .support id => ((a.support id).bind (·.authority_id)).map .grant
  | .grant id => (a.grant id).map fun g => .support g.support_ref

/-- The chain of a grant: everything on it is current and it ends in a domain support. -/
def LiveChain (now : Int) (g : GrantRecord) (path : List Node) : Prop :=
  a.grantCurrent now g = true ∧ ∃ rest, path = .grant g.id :: rest ∧
    Leads (a.nodeCurrent now) a.isDomain a.restsOn (.support g.support_ref) rest

variable {a}

theorem grant_of_find {id : String} {g : GrantRecord} (found : a.grant id = some g) :
    g.id = id := by
  have same := List.find?_some found
  simpa using same

theorem supportAlive_holds (a : Authority) (now : Int) (visited : List Node) (id : String) :
    (a.supportAlive now visited id).holds =
      (decide (visited.length < visitBound ∧ Node.support id ∉ visited) &&
        (a.support id).any fun s => supportCurrent now s && (s.kind == .domain ||
          (s.authority_id.bind a.grant).any fun g =>
            (a.grantAlive now (.support id :: visited) g).holds)) := by
  rw [supportAlive]
  cases a.support id with
  | none => simp
  | some s =>
    dsimp only
    by_cases room : visited.length < visitBound ∧ Node.support id ∉ visited
    · by_cases current : s.active = true ∧ now < s.expires_at
      · rw [dif_pos ⟨current.1, current.2, room⟩]
        cases kind : s.kind with
        | domain => simp [room, supportCurrent, current, kind]
        | delegated =>
          cases authority : s.authority_id.bind a.grant with
          | none => simp [kind, authority]
          | some g => simp [room, supportCurrent, current, kind, authority]
      · have stale : supportCurrent now s = false := by simpa [supportCurrent] using current
        rw [dif_neg fun all => current ⟨all.1, all.2.1⟩]
        simp [stale]
    · rw [dif_neg fun all => room all.2.2, decide_eq_false room]
      rfl

theorem grantAlive_holds (a : Authority) (now : Int) (visited : List Node) (g : GrantRecord) :
    (a.grantAlive now visited g).holds =
      (decide (visited.length < visitBound ∧ Node.grant g.id ∉ visited) && a.grantCurrent now g &&
        (a.supportAlive now (.grant g.id :: visited) g.support_ref).holds) := by
  rw [grantAlive]
  by_cases room : visited.length < visitBound ∧ Node.grant g.id ∉ visited
  · by_cases held : g.withdrawn = false ∧ now < g.expires_at
    · rw [dif_pos ⟨held.1, held.2, room.2, room.1⟩, Verdict.entering_holds, grantCurrent]
      cases a.account g.account_id with
      | none => simp
      | some account =>
        cases a.permission g.permission_id with
        | none => simp
        | some p =>
          simp only
          cases !account.restricted && p.active && a.contains g.scope_ref g.scope_ref
          · simp
          · simp [room, held]
    · have stale : a.grantCurrent now g = false := by
        rw [grantCurrent, Bool.and_eq_false_iff]
        left
        simpa using held
      rw [dif_neg fun all => held ⟨all.1, all.2.1⟩, stale, Bool.and_false, Bool.false_and]
      rfl
  · rw [dif_neg fun all => room ⟨all.2.2.2, all.2.2.1⟩, decide_eq_false room]
    rfl

/-- The two recursive functions are one walk over supports and grants. -/
theorem alive_eq_walk (a : Authority) (now : Int) (visited : List Node) :
    (∀ id, (a.supportAlive now visited id).holds =
      guardedWalk (a.nodeCurrent now) a.isDomain a.restsOn visitBound visited (.support id)) ∧
    ∀ id g, a.grant id = some g → (a.grantAlive now visited g).holds =
      guardedWalk (a.nodeCurrent now) a.isDomain a.restsOn visitBound visited (.grant id) := by
  induction fuel : visitBound - visited.length using Nat.strong_induction_on
    generalizing visited with
  | _ fuel ih =>
    subst fuel
    by_cases room : visited.length < visitBound
    · have deeper : ∀ node : Node,
          visitBound - (node :: visited).length < visitBound - visited.length := by
        intro node
        rw [List.length_cons]
        omega
      refine ⟨fun id => ?_, fun id g found => ?_⟩
      · rw [supportAlive_holds, guardedWalk_eq, nodeCurrent, isDomain, restsOn]
        cases found : a.support id with
        | none => simp
        | some s =>
          cases authority : s.authority_id with
          | none => simp [authority, Bool.and_assoc]
          | some aid =>
            simp only [authority, Option.any_some, Option.bind_some, Option.map_some,
              Bool.and_assoc]
            cases below : a.grant aid with
            | some g => rw [Option.any_some, (ih _ (deeper _) _ rfl).2 aid g below]
            | none =>
              have missing : a.nodeCurrent now (.grant aid) = false := by simp [nodeCurrent, below]
              have stuck : guardedWalk (a.nodeCurrent now) a.isDomain a.restsOn visitBound
                  (.support id :: visited) (.grant aid) = false := by
                rw [guardedWalk_eq, missing, Bool.and_false, Bool.false_and]
              rw [stuck, Option.any_none]
      · obtain rfl := grant_of_find found
        rw [grantAlive_holds, guardedWalk_eq, nodeCurrent, isDomain, restsOn, found,
          (ih _ (deeper _) _ rfl).1]
        simp
    · refine ⟨fun id => ?_, fun id g _ => ?_⟩
      · rw [supportAlive_holds, guardedWalk_eq]
        simp [room]
      · rw [grantAlive_holds, guardedWalk_eq]
        simp [room]

/-- A grant is alive exactly when a chain without repetition, within the bound, leads from
it to a domain support and is current throughout. -/
theorem grantAlive_iff (a : Authority) (now : Int) (g : GrantRecord) :
    (a.grantAlive now [] g).holds = true ↔
      ∃ path, a.LiveChain now g path ∧ path.Nodup ∧ path.length ≤ visitBound := by
  rw [grantAlive_holds, (a.alive_eq_walk now [.grant g.id]).1, Bool.and_eq_true, guardedWalk_iff]
  constructor
  · rintro ⟨current, path, leads, nodup, apart, within⟩
    rw [Bool.and_eq_true] at current
    refine ⟨.grant g.id :: path, ⟨current.2, path, rfl, leads⟩, ?_, ?_⟩
    · refine List.nodup_cons.mpr ⟨fun member => ?_, nodup⟩
      exact apart _ member (by simp)
    · simp only [List.length_cons, List.length_nil] at within ⊢
      omega
  · rintro ⟨path, ⟨current, rest, rfl, leads⟩, nodup, within⟩
    obtain ⟨fresh, nodup_rest⟩ := List.nodup_cons.mp nodup
    refine ⟨?_, rest, leads, nodup_rest, fun u member seen => ?_, ?_⟩
    · rw [current]
      rfl
    · rw [List.mem_singleton.mp seen] at member
      exact fresh member
    · simp only [List.length_cons, List.length_nil] at within ⊢
      omega

theorem anyGrant_holds (a : Authority) (now : Int) (carries : GrantRecord → Bool)
    (grants : List GrantRecord) : (a.anyGrant now carries grants).holds =
      grants.any fun g => carries g && (a.grantAlive now [] g).holds := by
  induction grants with
  | nil => rfl
  | cons g grants ih =>
    rw [anyGrant, List.any_cons]
    split
    · next matching => rw [Verdict.orElse_holds, ih, matching, Bool.true_and]
    · next other =>
      rw [Bool.not_eq_true] at other
      rw [ih, other, Bool.false_and, Bool.false_or]

theorem allows_holds (a : Authority) (now : Int) (account : Account) (permission : String)
    (faculty : Faculty) (scope : String) :
    (a.allows now (some account) permission faculty scope).holds =
      (!account.restricted && (a.investitureAllows now account permission scope).holds &&
        a.grants.any fun g => a.carries account permission faculty scope g &&
          (a.grantAlive now [] g).holds) := by
  simp only [allows]
  split
  · next restricted => simp [restricted]
  · next free =>
    rw [Bool.not_eq_true] at free
    rw [Verdict.andThen_holds, anyGrant_holds, free]
    rfl

/-! ### Taking grants and supports away -/

section Restrict

variable (withdrawn inactive : String → Bool)

def restrictGrant (g : GrantRecord) : GrantRecord :=
  if withdrawn g.id then { g with withdrawn := true, revision := g.revision + 1 } else g

def restrictSupport (s : SupportDefinition) : SupportDefinition :=
  if inactive s.id then { s with active := false, revision := s.revision + 1 } else s

@[simp] theorem restrictGrant_id (g : GrantRecord) : (restrictGrant withdrawn g).id = g.id := by
  rw [restrictGrant]
  split <;> rfl

@[simp] theorem restrictGrant_support_ref (g : GrantRecord) :
    (restrictGrant withdrawn g).support_ref = g.support_ref := by
  rw [restrictGrant]
  split <;> rfl

@[simp] theorem restrictSupport_id (s : SupportDefinition) :
    (restrictSupport inactive s).id = s.id := by
  rw [restrictSupport]
  split <;> rfl

@[simp] theorem restrictSupport_kind (s : SupportDefinition) :
    (restrictSupport inactive s).kind = s.kind := by
  rw [restrictSupport]
  split <;> rfl

@[simp] theorem restrictSupport_authority_id (s : SupportDefinition) :
    (restrictSupport inactive s).authority_id = s.authority_id := by
  rw [restrictSupport]
  split <;> rfl

variable (a) in
/-- The snapshot after the given grants are withdrawn and the given supports deactivated. -/
def restrict : Authority :=
  { a with
    grants := a.grants.map (restrictGrant withdrawn)
    supports := a.supports.map (restrictSupport inactive) }

def removes : Node → Bool
  | .grant id => withdrawn id
  | .support id => inactive id

theorem restrict_grant (a : Authority) (id : String) :
    (a.restrict withdrawn inactive).grant id = (a.grant id).map (restrictGrant withdrawn) := by
  rw [grant, restrict, List.find?_map]
  simp only [Function.comp_def, restrictGrant_id]
  rfl

theorem restrict_support (a : Authority) (id : String) :
    (a.restrict withdrawn inactive).support id =
      (a.support id).map (restrictSupport inactive) := by
  rw [support, restrict, List.find?_map]
  simp only [Function.comp_def, restrictSupport_id]
  rfl

theorem restrict_grantCurrent (a : Authority) (now : Int) (g : GrantRecord) :
    (a.restrict withdrawn inactive).grantCurrent now (restrictGrant withdrawn g) =
      (!withdrawn g.id && a.grantCurrent now g) := by
  rw [restrictGrant]
  split
  · next taken =>
    rw [taken]
    rfl
  · next kept =>
    rw [Bool.not_eq_true] at kept
    rw [kept]
    rfl

theorem restrict_nodeCurrent (a : Authority) (now : Int) (node : Node) :
    (a.restrict withdrawn inactive).nodeCurrent now node =
      (!removes withdrawn inactive node && a.nodeCurrent now node) := by
  cases node with
  | grant id =>
    rw [nodeCurrent, restrict_grant]
    cases found : a.grant id with
    | none => simp [nodeCurrent, found]
    | some g =>
      obtain rfl := grant_of_find found
      simp only [Option.map_some, Option.any_some, restrict_grantCurrent, nodeCurrent, found,
        removes]
  | support id =>
    rw [nodeCurrent, restrict_support]
    cases found : a.support id with
    | none => simp [nodeCurrent, found]
    | some s =>
      have same : s.id = id := by simpa using List.find?_some found
      subst same
      simp only [Option.map_some, Option.any_some, nodeCurrent, found, removes]
      rw [restrictSupport]
      split
      · next taken =>
        rw [taken]
        rfl
      · next kept =>
        rw [Bool.not_eq_true] at kept
        rw [kept, Bool.not_false, Bool.true_and]

theorem restrict_isDomain (a : Authority) (node : Node) :
    (a.restrict withdrawn inactive).isDomain node = a.isDomain node := by
  cases node with
  | grant id => rfl
  | support id =>
    rw [isDomain, restrict_support, isDomain]
    cases a.support id <;> simp

theorem restrict_restsOn (a : Authority) (node : Node) :
    (a.restrict withdrawn inactive).restsOn node = a.restsOn node := by
  cases node with
  | grant id =>
    rw [restsOn, restrict_grant, restsOn]
    cases a.grant id <;> simp
  | support id =>
    rw [restsOn, restrict_support, restsOn]
    cases a.support id <;> simp

/-- The chains that are left are the chains that pass through nothing taken away. -/
theorem restrict_liveChain (a : Authority) (now : Int) (g : GrantRecord) (path : List Node) :
    (a.restrict withdrawn inactive).LiveChain now (restrictGrant withdrawn g) path ↔
      a.LiveChain now g path ∧ ∀ node ∈ path, removes withdrawn inactive node = false := by
  have ends : (a.restrict withdrawn inactive).isDomain = a.isDomain :=
    funext (restrict_isDomain withdrawn inactive a)
  have rests : (a.restrict withdrawn inactive).restsOn = a.restsOn :=
    funext (restrict_restsOn withdrawn inactive a)
  rw [LiveChain, LiveChain, restrict_grantCurrent, restrictGrant_id, restrictGrant_support_ref,
    ends, rests, Bool.and_eq_true, Bool.not_eq_true']
  constructor
  · rintro ⟨⟨standing, current⟩, rest, rfl, leads⟩
    have kept : ∀ node ∈ rest, removes withdrawn inactive node = false ∧
        a.nodeCurrent now node = true := by
      intro node member
      have sound := leads.ok_of_mem member
      rwa [restrict_nodeCurrent, Bool.and_eq_true, Bool.not_eq_true'] at sound
    refine ⟨⟨current, rest, rfl, leads.of_ok fun node member => (kept node member).2⟩, ?_⟩
    intro node member
    rcases List.mem_cons.mp member with rfl | later
    · exact standing
    · exact (kept node later).1
  · rintro ⟨⟨current, rest, rfl, leads⟩, kept⟩
    refine ⟨⟨kept (.grant g.id) (by simp), current⟩, rest, rfl, leads.of_ok fun node member => ?_⟩
    rw [restrict_nodeCurrent, kept node (by simp [member]), leads.ok_of_mem member]
    rfl

theorem restrict_grantAlive {a : Authority} {now : Int} {g : GrantRecord}
    (alive : ((a.restrict withdrawn inactive).grantAlive now []
      (restrictGrant withdrawn g)).holds = true) : (a.grantAlive now [] g).holds = true := by
  obtain ⟨path, chain, nodup, within⟩ := (grantAlive_iff _ now _).mp alive
  exact (grantAlive_iff a now g).mpr
    ⟨path, ((restrict_liveChain withdrawn inactive a now g path).mp chain).1, nodup, within⟩

theorem restrict_carries (a : Authority) (account : Account) (permission : String)
    (faculty : Faculty) (scope : String) (g : GrantRecord) :
    (a.restrict withdrawn inactive).carries account permission faculty scope
      (restrictGrant withdrawn g) = a.carries account permission faculty scope g := by
  rw [restrictGrant]
  split <;> rfl

theorem restrict_allows {a : Authority} {now : Int} {account : Option Account}
    {permission : String} {faculty : Faculty} {scope : String}
    (allowed : ((a.restrict withdrawn inactive).allows now account permission faculty
      scope).holds = true) : (a.allows now account permission faculty scope).holds = true := by
  cases account with
  | none => cases allowed
  | some account =>
    rw [allows_holds, Bool.and_eq_true, List.any_eq_true] at allowed ⊢
    obtain ⟨standing, g', member, carried⟩ := allowed
    obtain ⟨g, stands, rfl⟩ := List.mem_map.mp member
    rw [Bool.and_eq_true, restrict_carries] at carried
    refine ⟨standing, g, stands, ?_⟩
    rw [Bool.and_eq_true]
    exact ⟨carried.1, restrict_grantAlive withdrawn inactive carried.2⟩

end Restrict

/-- A grant is alive exactly if an acyclic chain within the bound leads from it to a
domain support with everything on it current. Withdrawing grants and deactivating supports
kills every grant whose chains all pass through them, makes no grant alive that was not,
and allows nothing that was not allowed. -/
theorem grant_liveness (a : Authority) (now : Int) :
    (∀ g, (a.grantAlive now [] g).holds = true ↔
      ∃ path, a.LiveChain now g path ∧ path.Nodup ∧ path.length ≤ visitBound) ∧
    ∀ withdrawn inactive : String → Bool,
      (∀ g, (∀ path, a.LiveChain now g path → path.Nodup → path.length ≤ visitBound →
          ∃ node ∈ path, removes withdrawn inactive node = true) →
        ((a.restrict withdrawn inactive).grantAlive now []
          (restrictGrant withdrawn g)).holds = false) ∧
      (∀ g, ((a.restrict withdrawn inactive).grantAlive now []
          (restrictGrant withdrawn g)).holds = true → (a.grantAlive now [] g).holds = true) ∧
      ∀ account permission faculty scope,
        ((a.restrict withdrawn inactive).allows now account permission faculty
          scope).holds = true → (a.allows now account permission faculty scope).holds = true := by
  refine ⟨grantAlive_iff a now, fun withdrawn inactive => ⟨fun g through => ?_,
    fun g alive => restrict_grantAlive withdrawn inactive alive,
    fun account permission faculty scope allowed => restrict_allows withdrawn inactive allowed⟩⟩
  rw [Bool.eq_false_iff]
  intro alive
  obtain ⟨path, chain, nodup, within⟩ := (grantAlive_iff _ now _).mp alive
  obtain ⟨standing, kept⟩ := (restrict_liveChain withdrawn inactive a now g path).mp chain
  obtain ⟨node, member, removed⟩ := through path standing nodup within
  rw [kept node member] at removed
  cases removed

end Authority

end LedgerDesk.Access
