import LedgerDesk.Agents.Canonical
import LedgerDesk.Foundation.HeadLock

/-!
# The private-phase fence

One row holds the epoch of the guarded sources and the phase that is active over them. Every
function takes that row for update without waiting before it reads anything else of the fence.
What a function reads of other tables is an argument here, and may be anything. A `jsonb` value
keeps its keys under one order and no key twice.
-/
namespace LedgerDesk.Intake

open LedgerDesk.Agents

inductive SessionUser where
  | inc03_intake_runtime
  | inc03_intake_reader
  | inc03_intake_control
  | other
  deriving DecidableEq, Repr

/-- The role a connection was opened as, and the process that serves it. -/
structure Session where
  session_user : SessionUser
  backend_pid : Nat
  deriving DecidableEq, Repr

structure PrivatePhase where
  id : String
  source_id : String
  incarnation : String
  namespace_ : String
  reception_id : String
  artifact_id : String
  generation : Nat
  evidence_id : String
  principal : String
  participant_plan : Json
  connection_role : SessionUser
  backend_pid : Nat
  deadline_ms : Int
  started_at : Int

inductive CompletionKind where
  | participants_closed
  | controller_reconciled
  deriving DecidableEq, Repr

structure PhaseCompletion where
  phase_id : String
  kind : CompletionKind
  connection_role : SessionUser
  backend_pid : Nat
  observation : Json
  completed_at : Int

/-- `fence_head`, `private_phase` and `phase_completion`. The head is there from the start, and
nothing takes it away. -/
structure Fence where
  epoch : Nat
  active_phase : Option String
  phases : List PrivatePhase
  completions : List PhaseCompletion

structure Raised where
  message : String
  errcode : String
  deriving DecidableEq, Repr

namespace Fence

def phase (f : Fence) (id : String) : Option PrivatePhase := f.phases.find? fun p => p.id == id

def completed (f : Fence) (id : String) : Bool := f.completions.any fun c => c.phase_id == id

/-- `no_private_phase`, with the epoch it returns. -/
def no_private_phase (f : Fence) : Except Raised (Fence × Nat) :=
  if f.active_phase.isSome then .error ⟨"Private phase unresolved", "55P03"⟩
  else .ok ({ f with epoch := f.epoch + 1 }, f.epoch + 1)

end Fence

/-! ### What begins a phase -/

structure Live where
  enabled : Bool
  source_id : String
  incarnation : String
  expires_at : Int
  revision : Nat
  generation : Nat

structure NamespaceAdmission where
  namespace_ : String
  source_id : String
  generation : Nat
  enabled : Bool

structure Evidence where
  id : String
  phase : String
  route : String
  backend_pid : Nat
  control_revision : Nat
  status : Nat
  recorded_at : Int
  reception_id : Option String
  artifact_id : Option String
  generation : Option Nat
  principal : String

/-- An attempt beside the reception it is of. -/
structure AttemptOfReception where
  reception_id : String
  generation : Nat
  artifact_id : String
  incarnation : String
  state : String
  expires_at : Int
  principal : String
  stopped : Bool
  current_generation : Nat

structure ReceiptKey where
  reception_id : String
  artifact_id : String
  generation : Nat
  deriving DecidableEq

/-- The rows of other tables as the statement sees them, those of a namespace under its name. -/
structure BeginReads where
  live : Option Live
  namespace_admission : List NamespaceAdmission
  evidence : String → List Evidence
  attempts : String → List AttemptOfReception
  receipts : String → List ReceiptKey

structure BeginArgs where
  p_id : String
  p_namespace : String
  p_evidence : String
  p_source : String
  p_incarnation : String
  p_plan : Json
  p_deadline : Int

def texts : List Json → Option (List String)
  | [] => some []
  | .text value :: rest => (texts rest).map (value :: ·)
  | _ :: _ => none

/-- An object of arrays of strings. -/
def planOf : Json → Option (List (String × List String))
  | .object members => members.mapM fun (participant, methods) =>
    match methods with
    | .array items => (texts items).map (participant, ·)
    | _ => none
  | _ => none

/-- An object of strings, under the order of keys the database keeps. -/
def textsOf : Json → Option (List (String × String))
  | .object members => members.mapM fun (key, value) =>
    match value with
    | .text value => some (key, value)
    | _ => none
  | _ => none

def keysOf : Json → List String
  | .object members => members.map Prod.fst
  | _ => []

def methodAllowed (participant method : String) : Bool :=
  if participant == "objects" then
    ["create", "append", "read_stage", "read", "seal", "fence"].contains method
  else participant == "verifier" && method == "verify"

/-- One to six methods, none of them twice and each the participant's. -/
def methodsAllowed (participant : String) (methods : Json) : Bool :=
  match methods with
  | .array items =>
    match texts items with
    | some methods =>
      methods.length != 0 && decide (methods.length ≤ 6) &&
        methods.all (methodAllowed participant) && decide methods.Nodup
    | none => false
  | _ => false

/-- The plans a route may carry. -/
def planAllowed (session : Session) (route : String) (plan : Json) : Bool :=
  let carries (plans : List (List (String × List String))) : Bool :=
    (planOf plan).any plans.contains
  (session.session_user != .inc03_intake_reader || route == "original") &&
    if route == "original" || route == "finalize_reception" then carries [[("objects", ["read"])]]
    else if route == "cancel_reception" || route == "resume_reception" then
      carries [[("objects", ["fence"])]]
    else if route == "upload_original" then
      carries [[("objects", ["create", "append"])],
        [("objects", ["create", "read_stage", "seal"]), ("verifier", ["verify"])]]
    else false

def reopensRoute (route : String) : Bool := route == "cancel_reception" || route == "resume_reception"

section Begin

variable (session : Session) (reads : BeginReads) (args : BeginArgs) (at_ms : Int)

def checkControl : Except Raised Live :=
  let refusal : Raised := ⟨"Private phase current control", "55000"⟩
  match reads.live with
  | none => .error refusal
  | some l =>
    if !l.enabled || l.source_id != args.p_source || l.incarnation != args.p_incarnation ||
        decide (l.expires_at ≤ at_ms) || decide (args.p_deadline ≤ at_ms) ||
        decide (l.expires_at < args.p_deadline) ||
        !reads.namespace_admission.any fun n =>
          n.namespace_ == args.p_namespace && n.source_id == args.p_source &&
            n.generation == l.generation && n.enabled
    then .error refusal
    else .ok l

/-- The evidence of the phase, with its reception, artifact and generation. -/
def checkEvidence (l : Live) : Except Raised (Evidence × String × String × Nat) :=
  let refusal : Raised := ⟨"Private phase evidence", "42501"⟩
  match (reads.evidence args.p_namespace).find? fun e => e.id == args.p_evidence with
  | none => .error refusal
  | some e =>
    match e.reception_id, e.artifact_id, e.generation with
    | some reception_id, some artifact_id, some generation =>
      let admitted := e.phase == "capture_admission" || e.phase == "read_admission" ||
        (e.phase == "effect" && reopensRoute e.route)
      if !admitted || e.backend_pid != session.backend_pid || e.control_revision != l.revision ||
          e.status != 200 || decide (at_ms < e.recorded_at) ||
          decide (e.recorded_at < at_ms - 10000)
      then .error refusal
      else .ok (e, reception_id, artifact_id, generation)
    | _, _, _ => .error refusal

def checkSubject (e : Evidence) (reception_id artifact_id : String) (generation : Nat) :
    Except Raised AttemptOfReception :=
  let refusal : Raised := ⟨"Private phase subject", "42501"⟩
  match (reads.attempts args.p_namespace).find? fun a =>
      a.reception_id == reception_id && a.generation == generation with
  | none => .error refusal
  | some a =>
    -- a sealed original of a stopped reception may still be read under its receipt
    let retained_original := a.stopped && e.route == "original" && a.state == "sealed" &&
      (reads.receipts args.p_namespace).contains ⟨reception_id, artifact_id, generation⟩
    let other_incarnation := a.incarnation != args.p_incarnation &&
      !(reopensRoute e.route ||
        ((e.route == "original" || e.route == "finalize_reception") && a.state == "sealed"))
    if a.artifact_id != artifact_id || a.current_generation != generation ||
        a.principal != e.principal || other_incarnation || (a.stopped && !retained_original) ||
        (e.route == "upload_original" && decide (a.expires_at ≤ at_ms))
    then .error refusal
    else .ok a

def checkPlan (route : String) : Except Raised Unit :=
  match args.p_plan with
  | .object [] => .error ⟨"Private phase participants", "22023"⟩
  | .object members =>
    if !(keysOf args.p_plan).contains "objects" ||
        (keysOf args.p_plan).any fun key => key != "objects" && key != "verifier"
    then .error ⟨"Private phase participants", "22023"⟩
    else if !members.all fun m => methodsAllowed m.1 m.2 then
      .error ⟨"Private phase methods", "22023"⟩
    else if !planAllowed session route args.p_plan then .error ⟨"Private phase route", "42501"⟩
    else .ok ()
  | _ => .error ⟨"Private phase participants", "22023"⟩

/-- The row the phase is registered by. -/
def phaseRow : Except Raised PrivatePhase := do
  let l ← checkControl reads args at_ms
  let (e, reception_id, artifact_id, generation) ← checkEvidence session reads args at_ms l
  let a ← checkSubject reads args at_ms e reception_id artifact_id generation
  checkPlan session args e.route
  return {
    id := args.p_id, source_id := args.p_source, incarnation := args.p_incarnation
    namespace_ := args.p_namespace, reception_id, artifact_id, generation
    evidence_id := args.p_evidence, principal := e.principal, participant_plan := args.p_plan
    connection_role := session.session_user, backend_pid := session.backend_pid
    deadline_ms := if e.route == "upload_original" then min args.p_deadline a.expires_at
      else args.p_deadline
    started_at := at_ms }

def checkIdentity : Except Raised Unit :=
  if (session.session_user != .inc03_intake_runtime &&
        session.session_user != .inc03_intake_reader) ||
      (args.p_namespace != "intake_trial" && args.p_namespace != "intake_restore")
  then .error ⟨"Private phase identity", "42501"⟩
  else .ok ()

end Begin

/-! ### What ends it -/

structure FinishArgs where
  p_id : String
  p_source : String
  p_incarnation : String
  p_evidence : String
  p_ack : Json

structure ReconcileArgs where
  p_id : String
  p_source : String
  p_incarnation : String
  p_observation : Json

/-- What each participant acknowledges. -/
def closedBy (id participant : String) : List (String × String) :=
  [("id", id), ("profile", "intake-phase-closed/1"), ("participant", participant)]

/-- The participants of the plan have each acknowledged, and nobody else has. -/
def acknowledged (phase : PrivatePhase) (ack : Json) : Bool :=
  (keysOf ack == keysOf phase.participant_plan) &&
    (keysOf phase.participant_plan).all fun participant =>
      (ack.member participant).bind textsOf == some (closedBy phase.id participant)

/-- `(… ->> key)::integer`, where it is one. -/
def integerOf (json : Json) (key : String) : Option Int :=
  match json.member key with
  | some (.number (.integer value)) => some value
  | some (.text value) => value.toInt?
  | _ => none

/-- `… ->> key`, where that is text. -/
def textOf (json : Json) (key : String) : Option String :=
  match json.member key with
  | some (.text value) => some value
  | _ => none

def given (json : Json) (key : String) : Bool :=
  match json.member key with
  | none | some .null => false
  | some _ => true

/-- The observation is of the runtime of the phase, and that runtime has ended. -/
def observed (phase : PrivatePhase) (observation : Json) : Bool :=
  textOf observation "profile" == some "intake-controller-closure/1" &&
    textOf observation "phaseId" == some phase.id &&
    integerOf observation "backendPid" == some (phase.backend_pid : Int) &&
    textOf observation "mode" == some "runtime-ended-participants-closed" &&
    match observation.member "runtimeProcess" with
    | some (.object process) =>
      textOf (.object process) "observed" == some "closed" &&
        (integerOf (.object process) "pid").isSome && given (.object process) "startTicks" &&
        given (.object process) "bootId"
    | _ => false

/-! ### The calls -/

inductive FenceCall where
  | begin_phase (session : Session) (reads : BeginReads) (args : BeginArgs) (at_ms : Int)
  | finish_phase (session : Session) (args : FinishArgs) (at_ms : Int)
  | assert_fence_epoch (expected : Nat)
  /-- With the backends that are alive. -/
  | reconcile_phase (session : Session) (alive : List Nat) (args : ReconcileArgs) (at_ms : Int)
  /-- A statement on a guarded table, by its trigger. -/
  | source_mutation

/-- What a call has done, with the epoch it leaves. -/
inductive Done where
  | begun (phase : String) (epoch : Nat)
  | ended (phase : String) (epoch : Nat)
  /-- The phase had ended before, and the epoch is the head's. -/
  | repeated (phase : String) (epoch : Nat)
  | asserted (expected : Nat)
  | reconciled (phase : String) (epoch : Nat)
  | mutated (epoch : Nat)
  deriving DecidableEq, Repr

namespace Fence

def begin_phase (f : Fence) (session : Session) (reads : BeginReads) (args : BeginArgs)
    (at_ms : Int) : Except Raised (Fence × Done) := do
  checkIdentity session args
  let (f, phase_epoch) ← f.no_private_phase
  let row ← phaseRow session reads args at_ms
  if (f.phase args.p_id).isSome then
    throw ⟨"duplicate key value violates unique constraint \"private_phase_pkey\"", "23505"⟩
  return ({ f with active_phase := some args.p_id, phases := f.phases ++ [row] },
    .begun args.p_id phase_epoch)

/-- The active phase is completed, and the head is free. -/
def retire (f : Fence) (completion : PhaseCompletion) : Except Raised Fence :=
  if f.completed completion.phase_id then
    .error ⟨"duplicate key value violates unique constraint \"phase_completion_pkey\"", "23505"⟩
  else
    .ok { f with epoch := f.epoch + 1, active_phase := none
                 completions := f.completions ++ [completion] }

def finish_phase (f : Fence) (session : Session) (args : FinishArgs) (at_ms : Int) :
    Except Raised (Fence × Done) :=
  let owner : Raised := ⟨"Private phase owner", "42501"⟩
  match f.phase args.p_id with
  | none => .error owner
  | some p =>
    if p.source_id != args.p_source || p.incarnation != args.p_incarnation ||
        p.evidence_id != args.p_evidence || p.connection_role != session.session_user ||
        p.backend_pid != session.backend_pid
    then .error owner
    else if f.active_phase != some args.p_id then
      if f.active_phase.isNone && f.completed args.p_id then
        .ok (f, .repeated args.p_id f.epoch)
      else .error ⟨"Private phase no longer current", "40001"⟩
    else if !(keysOf args.p_ack == keysOf p.participant_plan) then
      .error ⟨"Private phase acknowledgment set", "42501"⟩
    else if !acknowledged p args.p_ack then .error ⟨"Private phase acknowledgment", "42501"⟩
    else do
      let f ← f.retire ⟨args.p_id, .participants_closed, session.session_user,
        session.backend_pid, args.p_ack, at_ms⟩
      return (f, .ended args.p_id f.epoch)

def assert_fence_epoch (f : Fence) (expected : Nat) : Except Raised (Fence × Done) :=
  if f.active_phase.isSome || f.epoch != expected then
    .error ⟨"Admission source changed", "40001"⟩
  else .ok ({ f with epoch := f.epoch + 1 }, .asserted expected)

def reconcile_phase (f : Fence) (session : Session) (alive : List Nat) (args : ReconcileArgs)
    (at_ms : Int) : Except Raised (Fence × Done) :=
  let predecessor : Raised := ⟨"Private recovery predecessor", "42501"⟩
  if session.session_user != .inc03_intake_control then
    .error ⟨"Private recovery actor", "42501"⟩
  else
    match f.phase args.p_id with
    | none => .error predecessor
    | some p =>
      if f.active_phase != some args.p_id || p.source_id != args.p_source ||
          p.incarnation != args.p_incarnation || alive.contains p.backend_pid
      then .error predecessor
      else
        let participants := (args.p_observation.member "participants").getD .null
        if !observed p args.p_observation ||
            !(keysOf participants == keysOf p.participant_plan)
        then .error ⟨"Private recovery observation", "42501"⟩
        else if !acknowledged p participants then
          .error ⟨"Private recovery participants", "42501"⟩
        else do
          let f ← f.retire ⟨args.p_id, .controller_reconciled, session.session_user,
            session.backend_pid, args.p_observation, at_ms⟩
          return (f, .reconciled args.p_id f.epoch)

def source_mutation (f : Fence) : Except Raised (Fence × Done) := do
  let (f, epoch) ← f.no_private_phase
  return (f, .mutated epoch)

def call (f : Fence) : FenceCall → Except Raised (Fence × Done)
  | .begin_phase session reads args at_ms => f.begin_phase session reads args at_ms
  | .finish_phase session args at_ms => f.finish_phase session args at_ms
  | .assert_fence_epoch expected => f.assert_fence_epoch expected
  | .reconcile_phase session alive args at_ms => f.reconcile_phase session alive args at_ms
  | .source_mutation => f.source_mutation

/-- As the migration installs it. -/
def installed : Fence := ⟨1, none, [], []⟩

end Fence

end LedgerDesk.Intake
