import LedgerDesk.Gateway.Budget
import LedgerDesk.Gateway.Coherence
import LedgerDesk.Runtime.Coherence

/-!
# Reservations across rebuilds

A gateway is built with its runtime and has a reservation counter of its own. A call keeps the
gateway that it was given, while the registry may give a successor to the calls after it: the
counter of the one says nothing of what the other holds.
-/
namespace LedgerDesk.Runtime

open Foundation LedgerDesk.Agents LedgerDesk.Gateway

variable {ι : Type*}

/-- One process: its runtimes, their gateways, and the calls that were given one. -/
structure Process (ι : Type*) where
  registry : Registry
  fleet : FleetState BuildId ι
  handed : ι → Bool

inductive ProcessAct (ι : Type*) where
  | registry (act : RegistryAct)
  /-- A call asks for the runtime of its organisation. -/
  | hand (call : ι)
  | gateway (act : GatewayAction ι)

def Build.isBuilt (build : Build) : Bool :=
  match build.phase with
  | .built _ => true
  | _ => false

section Process

variable (sha256Hex : String → String) (tables : TextTables) (declared : DeclaredConfidence)
variable (runIdFor : OrgId → RunId) (configs : BuildId → GatewayConfig) (gateway : ι → BuildId)
variable (calls : ι → GatewayCall)

def processStart : Process ι where
  registry := .empty
  fleet := fleetStart configs gateway
  handed _ := false

/-- A call goes on once the runtime that it was given is built. -/
def Process.ready (p : Process ι) (i : ι) : Bool :=
  p.handed i && p.registry.builds[gateway i]?.any Build.isBuilt

variable [DecidableEq ι]

def processStep (p : Process ι) : ProcessAct ι → Option (Process ι)
  | .registry act => (registryStep runIdFor p.registry act).map fun r => { p with registry := r }
  | .hand i =>
    match p.registry.runtimeFor runIdFor (calls i).org_id with
    | .ok (b, r) =>
      if b = gateway i then
        some { p with registry := r, handed := Function.update p.handed i true }
      else none
    | .error _ => none
  | .gateway act =>
    if act.caller.all (p.ready gateway) then
      (fleetStep sha256Hex tables declared configs gateway calls p.fleet act).map fun f =>
        { p with fleet := f }
    else none

end Process

section Reservations

variable (configs : BuildId → GatewayConfig) (gateway : ι → BuildId) (calls : ι → GatewayCall)

/-- A call that has ended and holds nothing. -/
def Over (phase : CallPhase) : Prop :=
  (∃ result, phase = .returned result) ∨ ∃ code, phase = .failed code false

/-- The step is the admission of the call past the budget check of its gateway. -/
def AdmittedBy (tr : Transition (Process ι) (ProcessAct ι)) (i : ι) : Prop :=
  tr.act = .gateway (.admitCall i) ∧ ∃ spentMicro seen,
    tr.source.fleet.phase i = .asked spentMicro seen ∧ tr.target.fleet.phase i = .calling

/-- The step takes the runtime of a build out of the registry. -/
def Discards (tr : Transition (Process ι) (ProcessAct ι)) (b : BuildId) : Prop :=
  ∃ orgId, tr.source.registry.runtimes orgId = some b ∧ tr.target.registry.runtimes orgId ≠ some b

/-- No runtime is discarded that was given to a call which is not over. -/
def Orderly (tr : Transition (Process ι) (ProcessAct ι)) : Prop :=
  ∀ b, Discards tr b → ∀ i, tr.source.handed i = true → gateway i = b →
    Over (tr.source.fleet.phase i)

variable [DecidableEq ι]

/-- What a call holds and has not recorded. -/
def unrecorded (p : Process ι) (j : ι) : Int := outstanding calls (p.fleet.view (gateway j)) j

/-- What the gateway of a call still holds for it though its row is in the ledger. -/
def recordedHeld (p : Process ι) (j : ι) : Int := heldTwice calls (p.fleet.view (gateway j)) j

variable [Fintype ι]

/-- The counter that the check of the call adds has every unrecorded reservation of its
organisation in it. -/
def CountsEvery (p : Process ι) (i : ι) : Prop :=
  ∑ j with (calls j).org_id = (calls i).org_id, unrecorded gateway calls p j ≤
    p.fleet.inFlightMicro (gateway i)

end Reservations

section Runs

variable {sha256Hex : String → String} {tables : TextTables} {declared : DeclaredConfidence}
variable {runIdFor : OrgId → RunId} {configs : BuildId → GatewayConfig} {gateway : ι → BuildId}
variable {calls : ι → GatewayCall} [DecidableEq ι]

/-! ### What one step can do -/

/-- A step of a call moves the counter of its gateway by what its own reservation moves. -/
theorem inFlight_of_gatewayStep {config : GatewayConfig} {s t : GatewayState ι}
    {act : GatewayAction ι} {i : ι}
    (taken : gatewayStep sha256Hex tables declared config calls s act = some t)
    (acting : act.caller = some i) :
    t.inFlightMicro =
      s.inFlightMicro + (reservation (calls i) (t.phase i) - reservation (calls i) (s.phase i)) ∧
    ∀ j, j ≠ i → t.phase j = s.phase j := by
  obtain ⟨p, new, -, phase, -⟩ := gatewayStep_call taken acting
  have others : ∀ j, j ≠ i → t.phase j = s.phase j := by
    intro j other
    rw [phase, Function.update_of_ne other]
  refine ⟨?_, others⟩
  rcases gatewayStep_moves config taken with ⟨j, q, delta, new', moves⟩ | ⟨id, row, rfl⟩
  · have self : t.phase j = q := by rw [moves.phase, Function.update_self]
    have balance := moves.balance
    rw [← self] at balance
    rw [moves.inFlight]
    by_cases same : j = i
    · subst same
      omega
    · -- The phase of the caller is then as it was, and the counter too.
      have still : t.phase i = s.phase i := by
        rw [moves.phase, Function.update_of_ne (Ne.symm same)]
      rw [others j same] at balance
      rw [still]
      omega
  · exact (by omega : ∀ a b : Int, a = a + (b - b)) _ _

/-- A call that is over takes no step. -/
theorem unfinished_of_gatewayStep {config : GatewayConfig} {s t : GatewayState ι}
    {act : GatewayAction ι} {i : ι}
    (taken : gatewayStep sha256Hex tables declared config calls s act = some t)
    (acting : act.caller = some i) : ¬Over (s.phase i) := by
  intro ended
  have stuck : gatewayStep sha256Hex tables declared config calls s act = none := by
    rcases ended with ⟨result, phase⟩ | ⟨code, phase⟩
    · cases act <;> cases acting <;> simp [gatewayStep, phase]
    · cases act <;> cases acting <;> simp [gatewayStep, phase]
  rw [stuck] at taken
  cases taken

/-! ### What every run keeps -/

omit [DecidableEq ι] in
theorem reservation_start (i : ι) :
    reservation (calls i) ((fleetStart configs gateway).phase i) = 0 := by
  change reservation (calls i) (if _ then _ else _) = 0
  split
  · rfl
  · rfl

section Accounts

variable [Fintype ι]

/-- Every counter is the sum of the reservations of the calls of its own gateway. -/
def Accounted (gateway : ι → BuildId) (calls : ι → GatewayCall) (f : FleetState BuildId ι) : Prop :=
  ∀ g, f.inFlightMicro g = ∑ i with gateway i = g, reservation (calls i) (f.phase i)

theorem accounted_of_fleetStep {f f' : FleetState BuildId ι} {act : GatewayAction ι}
    (taken : fleetStep sha256Hex tables declared configs gateway calls f act = some f')
    (accounted : Accounted gateway calls f) : Accounted gateway calls f' := by
  rcases fleetStep_cases taken with ⟨i, u, acting, moved, rfl⟩ | ⟨id, row, -, -, rfl⟩
  · obtain ⟨counter, others⟩ := inFlight_of_gatewayStep moved acting
    intro g
    change Function.update f.inFlightMicro (gateway i) u.inFlightMicro g = _
    by_cases own : g = gateway i
    · subst own
      rw [Function.update_self, counter]
      change f.inFlightMicro (gateway i) + _ = _
      have member : i ∈ ({j | gateway j = gateway i} : Finset ι) := by simp
      have rest : ∑ j ∈ ({j | gateway j = gateway i} : Finset ι).erase i,
            reservation (calls j) (u.phase j) =
          ∑ j ∈ ({j | gateway j = gateway i} : Finset ι).erase i,
            reservation (calls j) (f.phase j) := by
        refine Finset.sum_congr rfl fun j member => ?_
        rw [others j (Finset.ne_of_mem_erase member)]
        rfl
      rw [accounted, ← Finset.add_sum_erase _ _ member]
      change _ = ∑ j with gateway j = gateway i, reservation (calls j) (u.phase j)
      rw [← Finset.add_sum_erase _ (fun j => reservation (calls j) (u.phase j)) member, rest]
      change _ + (_ - reservation (calls i) (f.phase i)) = _
      omega
    · rw [Function.update_of_ne own, accounted]
      refine Finset.sum_congr rfl fun j member => ?_
      have other : j ≠ i := by
        rintro rfl
        exact own (by simpa using (Finset.mem_filter.mp member).2.symm)
      change _ = reservation (calls j) (u.phase j)
      rw [others j other]
      rfl
  · exact accounted

theorem accounted_of_step {p p' : Process ι} {act : ProcessAct ι}
    (taken : processStep sha256Hex tables declared runIdFor configs gateway calls p act = some p')
    (accounted : Accounted gateway calls p.fleet) : Accounted gateway calls p'.fleet := by
  cases act with
  | registry act =>
    obtain ⟨r, -, rfl⟩ := Option.map_eq_some_iff.mp taken
    exact accounted
  | hand i =>
    simp only [processStep] at taken
    split at taken
    · split at taken
      · cases taken
        exact accounted
      · cases taken
    · cases taken
  | gateway act =>
    simp only [processStep] at taken
    split at taken
    · obtain ⟨f, moved, rfl⟩ := Option.map_eq_some_iff.mp taken
      exact accounted_of_fleetStep moved accounted
    · cases taken

omit [DecidableEq ι] in
theorem accounted_start : Accounted gateway calls (processStart configs gateway).fleet := fun _ =>
  (Finset.sum_eq_zero fun i _ => reservation_start i).symm

/-- The counter holds what its calls have not recorded, and what it holds for recorded ones. -/
theorem Accounted.split {p : Process ι} (accounted : Accounted gateway calls p.fleet) (g : BuildId) :
    p.fleet.inFlightMicro g = ∑ j with gateway j = g, unrecorded gateway calls p j +
      ∑ j with gateway j = g, recordedHeld gateway calls p j := by
  rw [accounted, ← Finset.sum_add_distrib]
  refine Finset.sum_congr rfl fun j _ => ?_
  rw [unrecorded, recordedHeld, outstanding, heldTwice]
  split
  · exact (zero_add _).symm
  · exact (add_zero _).symm

end Accounts

/-- In an orderly run the calls that are not over have the runtime that stands. -/
structure Current (gateway : ι → BuildId) (calls : ι → GatewayCall) (p : Process ι) : Prop where
  stands : ∀ i, p.handed i = true → ¬Over (p.fleet.phase i) →
    p.registry.runtimes (calls i).org_id = some (gateway i)
  idle : ∀ i, p.handed i = false → reservation (calls i) (p.fleet.phase i) = 0

omit [DecidableEq ι] in
/-- What stands for a call that is not over stands after an orderly step. -/
theorem Current.kept {tr : Transition (Process ι) (ProcessAct ι)}
    (current : Current gateway calls tr.source) (orderly : Orderly gateway tr) {i : ι}
    (handed : tr.source.handed i = true) (going : ¬Over (tr.source.fleet.phase i)) :
    tr.target.registry.runtimes (calls i).org_id = some (gateway i) := by
  by_contra discarded
  exact going (orderly _ ⟨_, current.stands i handed going, discarded⟩ i handed rfl)

theorem current_of_step {tr : Transition (Process ι) (ProcessAct ι)}
    (taken : processStep sha256Hex tables declared runIdFor configs gateway calls tr.source tr.act =
      some tr.target)
    (orderly : Orderly gateway tr) (current : Current gateway calls tr.source) :
    Current gateway calls tr.target := by
  obtain ⟨p, act, p'⟩ := tr
  change Current gateway calls p at current
  change processStep sha256Hex tables declared runIdFor configs gateway calls p act = some p' at taken
  change Current gateway calls p'
  have kept : ∀ {i}, p.handed i = true → ¬Over (p.fleet.phase i) →
      p'.registry.runtimes (calls i).org_id = some (gateway i) :=
    fun handed going => current.kept orderly handed going
  cases act with
  | registry act =>
    obtain ⟨r, -, rfl⟩ := Option.map_eq_some_iff.mp taken
    exact ⟨fun i handed going => kept handed going, current.idle⟩
  | hand i =>
    simp only [processStep] at taken
    split at taken
    · next b r called =>
      split at taken
      · next own =>
        cases taken
        refine ⟨fun j handed going => ?_, fun j handed => ?_⟩
        · by_cases same : j = i
          · subst same
            rw [← own]
            exact stands_of_runtimeFor called
          · exact kept (by simpa [Function.update_of_ne same] using handed) going
        · by_cases same : j = i
          · subst same
            simp at handed
          · exact current.idle j (by simpa [Function.update_of_ne same] using handed)
      · cases taken
    · cases taken
  | gateway act =>
    simp only [processStep] at taken
    split at taken
    · next ready =>
      obtain ⟨f, moved, rfl⟩ := Option.map_eq_some_iff.mp taken
      rcases fleetStep_cases moved with ⟨i, u, acting, step, rfl⟩ | ⟨id, row, -, -, rfl⟩
      · obtain ⟨-, others⟩ := inFlight_of_gatewayStep step acting
        have handed : p.handed i = true := by
          rw [acting] at ready
          exact (Bool.and_eq_true_iff.mp ready).1
        refine ⟨fun j given going => ?_, fun j idle => ?_⟩
        · by_cases same : j = i
          · subst same
            exact kept handed (unfinished_of_gatewayStep step acting)
          · refine kept given fun ended => going ?_
            change Over (u.phase j)
            rw [others j same]
            exact ended
        · have other : j ≠ i := by
            rintro rfl
            rw [handed] at idle
            cases idle
          change reservation (calls j) (u.phase j) = 0
          rw [others j other]
          exact current.idle j idle
      · exact ⟨fun i handed going => kept handed going, current.idle⟩
    · cases taken

omit [DecidableEq ι] in
theorem current_start : Current gateway calls (processStart configs gateway) where
  stands _ handed := by cases handed
  idle i _ := reservation_start i

theorem unrecorded_le (p : Process ι) (j : ι) :
    unrecorded gateway calls p j ≤ reservation (calls j) (p.fleet.phase j) := by
  rw [unrecorded, outstanding]
  split
  · exact reservation_nonneg _ _
  · exact le_rfl

/-- A call is given a gateway of its own organisation, and holds nothing before. -/
structure Given (runIdFor : OrgId → RunId) (gateway : ι → BuildId) (calls : ι → GatewayCall)
    (p : Process ι) : Prop where
  coherent : p.registry.Coherent runIdFor
  built : ∀ i, p.handed i = true →
    ∃ build, p.registry.builds[gateway i]? = some build ∧ build.org_id = (calls i).org_id
  idle : ∀ i, p.handed i = false → reservation (calls i) (p.fleet.phase i) = 0

theorem given_of_step {p p' : Process ι} {act : ProcessAct ι}
    (taken : processStep sha256Hex tables declared runIdFor configs gateway calls p act = some p')
    (given : Given runIdFor gateway calls p) : Given runIdFor gateway calls p' := by
  cases act with
  | registry act =>
    obtain ⟨r, moved, rfl⟩ := Option.map_eq_some_iff.mp taken
    refine ⟨coherent_of_step moved given.coherent, fun i handed => ?_, given.idle⟩
    obtain ⟨build, found, org⟩ := given.built i handed
    obtain ⟨build', found', same⟩ := build_of_step moved found
    exact ⟨build', found', same.trans org⟩
  | hand i =>
    simp only [processStep] at taken
    split at taken
    · next b r called =>
      split at taken
      · next own =>
        cases taken
        have coherent := given.coherent.runtimeFor called
        refine ⟨coherent, fun j handed => ?_, fun j handed => ?_⟩
        · by_cases same : j = i
          · subst same
            obtain ⟨build, found, org, -⟩ := coherent.standing _ b (stands_of_runtimeFor called)
            exact ⟨build, own ▸ found, org⟩
          · obtain ⟨build, found, org⟩ :=
              given.built j (by simpa [Function.update_of_ne same] using handed)
            obtain ⟨build', found', sameOrg⟩ := build_of_runtimeFor called found
            exact ⟨build', found', sameOrg.trans org⟩
        · by_cases same : j = i
          · subst same
            simp at handed
          · exact given.idle j (by simpa [Function.update_of_ne same] using handed)
      · cases taken
    · cases taken
  | gateway act =>
    simp only [processStep] at taken
    split at taken
    · next ready =>
      obtain ⟨f, moved, rfl⟩ := Option.map_eq_some_iff.mp taken
      refine ⟨given.coherent, given.built, fun j idle => ?_⟩
      rcases fleetStep_cases moved with ⟨i, u, acting, step, rfl⟩ | ⟨id, row, -, -, rfl⟩
      · obtain ⟨-, others⟩ := inFlight_of_gatewayStep step acting
        have other : j ≠ i := by
          rintro rfl
          rw [acting] at ready
          have handed := (Bool.and_eq_true_iff.mp ready).1
          change p.handed j = false at idle
          rw [handed] at idle
          cases idle
        change reservation (calls j) (u.phase j) = 0
        rw [others j other]
        exact given.idle j idle
      · exact given.idle j idle
    · cases taken

omit [DecidableEq ι] in
theorem given_start : Given runIdFor gateway calls (processStart configs gateway) where
  coherent := empty_coherent
  built _ handed := by cases handed
  idle i _ := reservation_start i

/-- A call on a gateway of another organisation was not given it, and holds nothing. -/
theorem Given.unrecorded_of_ne {p : Process ι} {i j : ι} (given : Given runIdFor gateway calls p)
    (handed : p.handed i = true) (same : gateway j = gateway i)
    (other : (calls j).org_id ≠ (calls i).org_id) : unrecorded gateway calls p j = 0 := by
  have idle : p.handed j = false := by
    cases held : p.handed j with
    | false => rfl
    | true =>
      obtain ⟨build, found, org⟩ := given.built i handed
      obtain ⟨build', found', org'⟩ := given.built j held
      rw [same, found] at found'
      cases found'
      exact absurd (org'.symm.trans org) other
  have none := given.idle j idle
  rw [unrecorded, outstanding]
  split
  · rfl
  · exact none

variable [Fintype ι]

/-- What the other gateways of the organisation hold has to fit into what the own one holds for
calls that are recorded already. -/
theorem Given.counts_iff {p : Process ι} {i : ι} (given : Given runIdFor gateway calls p)
    (accounted : Accounted gateway calls p.fleet) (handed : p.handed i = true) :
    CountsEvery gateway calls p i ↔
      ∑ j with (calls j).org_id = (calls i).org_id ∧ gateway j ≠ gateway i,
        unrecorded gateway calls p j ≤
      ∑ j with gateway j = gateway i, recordedHeld gateway calls p j := by
  have parts : ∑ j with (calls j).org_id = (calls i).org_id, unrecorded gateway calls p j =
      ∑ j with gateway j = gateway i, unrecorded gateway calls p j +
        ∑ j with (calls j).org_id = (calls i).org_id ∧ gateway j ≠ gateway i,
          unrecorded gateway calls p j := by
    simp only [Finset.sum_filter]
    rw [← Finset.sum_add_distrib]
    refine Finset.sum_congr rfl fun j _ => ?_
    by_cases org : (calls j).org_id = (calls i).org_id
    · by_cases same : gateway j = gateway i
      · simp [org, same]
      · simp [org, same]
    · by_cases same : gateway j = gateway i
      · simp [org, same, given.unrecorded_of_ne handed same org]
      · simp [org, same]
  rw [CountsEvery, parts, accounted.split]
  constructor
  · intro counts
    omega
  · intro fits
    omega

/-- Where the calls that are not over have the runtime that stands, an admission counts them all. -/
theorem Current.counts {p : Process ι} {i : ι} (current : Current gateway calls p)
    (accounted : Accounted gateway calls p.fleet) (handed : p.handed i = true)
    (going : ¬Over (p.fleet.phase i)) : CountsEvery gateway calls p i := by
  have stands := current.stands i handed going
  have own : ∀ j, (calls j).org_id = (calls i).org_id → gateway j ≠ gateway i →
      unrecorded gateway calls p j ≤ 0 := by
    intro j org other
    refine (unrecorded_le p j).trans (le_of_eq ?_)
    cases given : p.handed j with
    | false => exact current.idle j given
    | true =>
      by_cases ended : Over (p.fleet.phase j)
      · rcases ended with ⟨result, phase⟩ | ⟨code, phase⟩
        · rw [phase]
          rfl
        · rw [phase]
          rfl
      · have same := current.stands j given ended
        rw [org, stands] at same
        exact absurd (Option.some.inj same).symm other
  rw [CountsEvery, accounted, Finset.sum_filter, Finset.sum_filter]
  refine Finset.sum_le_sum fun j _ => ?_
  by_cases org : (calls j).org_id = (calls i).org_id
  · rw [if_pos org]
    by_cases same : gateway j = gateway i
    · rw [if_pos same]
      exact unrecorded_le p j
    · rw [if_neg same]
      exact own j org same
  · rw [if_neg org]
    split
    · exact reservation_nonneg _ _
    · exact le_rfl

/-! ### Every admission -/

omit [Fintype ι] in
theorem handed_of_admitted {tr : Transition (Process ι) (ProcessAct ι)} {i : ι}
    (taken : processStep sha256Hex tables declared runIdFor configs gateway calls tr.source tr.act =
      some tr.target)
    (admitted : AdmittedBy tr i) : tr.source.handed i = true := by
  rw [admitted.1] at taken
  simp only [processStep] at taken
  split at taken
  · next ready => exact (Bool.and_eq_true_iff.mp ready).1
  · cases taken

end Runs

/-! ### A rebuild between two calls -/

/-- Two calls of the racing organisation, each with a runtime of its own when there are two. -/
def rebuildStep (gateway : Bool → BuildId) :
    Process Bool → ProcessAct Bool → Option (Process Bool) :=
  processStep (fun _ => "7c40138d8ecf19f7f24af0a9520289dfc8e09e9e0760865d8ff8b61736105b53")
    asciiTables (fun _ => none) id (fun _ => raceConfig) gateway fun _ => raceCall

/-- The first call leaves with its reservation; an admission evicts the runtime, and the second call
is given the successor. -/
def rebuildActs : List (ProcessAct Bool) :=
  [.hand true, .registry (.completes 0 "kb"), .gateway (.spend true), .gateway (.admitCall true),
    .registry (.evictRuntime "org"), .hand false, .registry (.completes 1 "kb2"),
    .gateway (.spend false)]

def rebuilt (i : Bool) : BuildId := if i then 0 else 1

end LedgerDesk.Runtime
