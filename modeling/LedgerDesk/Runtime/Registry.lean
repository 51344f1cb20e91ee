import LedgerDesk.Foundation.Runs

/-!
# The registry of runtimes

One process holds a runtime for each organisation that it serves, and claims the run that the
runtime writes into. The two maps are written together: when a runtime is asked for, when one is
evicted, and when the handler of a failed build runs. What happens up to the first `await` of a
function is one step.
-/
namespace LedgerDesk.Runtime

open Foundation

abbrev OrgId := String
abbrev RunId := String

/-! ### `run_registry.ts` -/

/-- The organisation that holds a run. -/
abbrev RunClaims := RunId → Option OrgId

/-- A run that another organisation holds is refused. -/
def claimRun (claims : RunClaims) (runId : RunId) (orgId : OrgId) : Except OrgId RunClaims :=
  match claims runId with
  | some holder =>
    if holder ≠ orgId then .error holder else .ok (Function.update claims runId (some orgId))
  | none => .ok (Function.update claims runId (some orgId))

def releaseRun (claims : RunClaims) (runId : RunId) (orgId : OrgId) : RunClaims :=
  if claims runId = some orgId then Function.update claims runId none else claims

/-! ### `agents.ts` -/

/-- What of a runtime the registry looks at. -/
structure OrgRuntime where
  org_id : OrgId
  run_id : RunId
  kb_snapshot : String
  deriving DecidableEq, Repr

/-- The build of a runtime. One that was rejected is still pending for those who wait for it, until
its handler has run. -/
inductive BuildPhase where
  | pending
  | built (runtime : OrgRuntime)
  | rejected
  | failed
  deriving DecidableEq, Repr

structure Build where
  org_id : OrgId
  run_id : RunId
  phase : BuildPhase
  deriving DecidableEq, Repr

/-- A promise is named by the place of its build among all that were begun. -/
abbrev BuildId := Nat

structure Registry where
  runtimes : OrgId → Option BuildId
  runs : RunClaims
  builds : List Build

def Registry.empty : Registry where
  runtimes _ := none
  runs _ := none
  builds := []

variable (runIdFor : OrgId → RunId)

namespace Registry

/-- `runtimeFor`: the promise that stands, or that of a build which is begun. -/
def runtimeFor (r : Registry) (orgId : OrgId) : Except OrgId (BuildId × Registry) :=
  match r.runtimes orgId with
  | some existing => .ok (existing, r)
  | none =>
    match claimRun r.runs (runIdFor orgId) orgId with
    | .error holder => .error holder
    | .ok runs => .ok (r.builds.length, {
        runtimes := Function.update r.runtimes orgId (some r.builds.length)
        runs := runs
        builds := r.builds ++ [⟨orgId, runIdFor orgId, .pending⟩] })

def evictRuntime (r : Registry) (orgId : OrgId) : Registry :=
  match r.runtimes orgId with
  | none => r
  | some _ => { r with
      runtimes := Function.update r.runtimes orgId none
      runs := releaseRun r.runs (runIdFor orgId) orgId }

/-- `refuseIfRuntimeIsStale`: the refusal evicts on the way out. -/
def refuseIfRuntimeIsStale (r : Registry) (runtime : OrgRuntime) (head : String) : Registry :=
  if runtime.kb_snapshot = head then r else r.evictRuntime runIdFor runtime.org_id

def setPhase (r : Registry) (b : BuildId) (build : Build) (phase : BuildPhase) : Registry :=
  { r with builds := r.builds.set b { build with phase := phase } }

/-- The handler of a failed build: whatever stands for the organisation is not cached, and the
claim goes with it. -/
def failed (r : Registry) (build : Build) : Registry :=
  { r with
    runtimes := Function.update r.runtimes build.org_id none
    runs := releaseRun r.runs build.run_id build.org_id }

end Registry

/-- What happens to the registry. -/
inductive RegistryAct where
  | runtimeFor (orgId : OrgId)
  | evictRuntime (orgId : OrgId)
  | refuseIfRuntimeIsStale (runtime : OrgRuntime) (head : String)
  /-- The build of a runtime completes, under the snapshot that it has read. -/
  | completes (build : BuildId) (kb_snapshot : String)
  | rejects (build : BuildId)
  /-- The handler of a rejected build runs. -/
  | caught (build : BuildId)
  deriving DecidableEq, Repr

/-- A call of `runtimeFor` that throws changes nothing. -/
def registryStep (r : Registry) : RegistryAct → Option Registry
  | .runtimeFor orgId =>
    match r.runtimeFor runIdFor orgId with
    | .ok (_, r') => some r'
    | .error _ => some r
  | .evictRuntime orgId => some (r.evictRuntime runIdFor orgId)
  | .refuseIfRuntimeIsStale runtime head => some (r.refuseIfRuntimeIsStale runIdFor runtime head)
  | .completes b kb_snapshot =>
    match r.builds[b]? with
    | some build =>
      if build.phase = .pending then
        some (r.setPhase b build (.built ⟨build.org_id, build.run_id, kb_snapshot⟩))
      else none
    | none => none
  | .rejects b =>
    match r.builds[b]? with
    | some build => if build.phase = .pending then some (r.setPhase b build .rejected) else none
    | none => none
  | .caught b =>
    match r.builds[b]? with
    | some build =>
      if build.phase = .rejected then some ((r.setPhase b build .failed).failed build) else none
    | none => none

end LedgerDesk.Runtime
