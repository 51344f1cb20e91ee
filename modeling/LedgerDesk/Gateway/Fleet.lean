import LedgerDesk.Gateway.Machine

/-!
# Several gateways over one ledger

Every gateway is a process with settings and a reservation counter of its own. What they
share is the ledger: a row one of them commits is what another finds, asks the sum of, or
replays.
-/
namespace LedgerDesk.Gateway

open Foundation LedgerDesk.Agents LedgerDesk.Ledger

variable {γ ι : Type*}

/-- The call a step is a step of. -/
def GatewayAction.caller : GatewayAction ι → Option ι
  | .lookup i _ | .spend i | .admitCall i | .providerAnswers i _ _ | .providerFails i
  | .timesOut i | .record i _ _ | .resume i | .storeFails i _ => some i
  | .foreign _ _ => none

structure FleetState (γ ι : Type*) where
  ledger : List (LedgerRecord ι)
  inFlightMicro : γ → Int
  phase : ι → CallPhase

namespace FleetState

/-- The state as one gateway has it. -/
def view (s : FleetState γ ι) (g : γ) : GatewayState ι where
  ledger := s.ledger
  inFlightMicro := s.inFlightMicro g
  phase := s.phase

/-- What a step of one gateway leaves. -/
def after [DecidableEq γ] (s : FleetState γ ι) (g : γ) (t : GatewayState ι) : FleetState γ ι where
  ledger := t.ledger
  inFlightMicro := Function.update s.inFlightMicro g t.inFlightMicro
  phase := t.phase

def rows (s : FleetState γ ι) : List ChainedRow := s.ledger.map LedgerRecord.row

@[simp] theorem view_ledger (s : FleetState γ ι) (g : γ) : (s.view g).ledger = s.ledger := rfl

@[simp] theorem view_phase (s : FleetState γ ι) (g : γ) : (s.view g).phase = s.phase := rfl

end FleetState

section Fleet

variable (sha256Hex : String → String) (tables : TextTables) (declared : DeclaredConfidence)
variable (configs : γ → GatewayConfig) (gateway : ι → γ) (calls : ι → GatewayCall)

def fleetStart : FleetState γ ι where
  ledger := []
  inFlightMicro _ := 0
  phase i := if cacheEnabled (configs (gateway i)) then .lookingUp else .asking

variable [DecidableEq γ] [DecidableEq ι]

/-- A call moves through its own gateway. No writer but a gateway files an `agent_call`. -/
def fleetStep (s : FleetState γ ι) (act : GatewayAction ι) : Option (FleetState γ ι) :=
  match act with
  | .foreign id row =>
    if row.class = .agent_call then none
    else if s.ledger.any fun record => record.id == id then none
    else some { s with ledger := s.ledger ++ [⟨id, row, none⟩] }
  | _ =>
    match act.caller with
    | none => none
    | some i =>
      (gatewayStep sha256Hex tables declared (configs (gateway i)) calls
        (s.view (gateway i)) act).map (s.after (gateway i))

variable {sha256Hex tables declared configs gateway calls}

theorem fleetStep_cases {s t : FleetState γ ι} {act : GatewayAction ι}
    (taken : fleetStep sha256Hex tables declared configs gateway calls s act = some t) :
    (∃ i u, act.caller = some i ∧
      gatewayStep sha256Hex tables declared (configs (gateway i)) calls
        (s.view (gateway i)) act = some u ∧ t = s.after (gateway i) u) ∨
    ∃ id row, act = .foreign id row ∧ row.class ≠ .agent_call ∧
      t = { s with ledger := s.ledger ++ [⟨id, row, none⟩] } := by
  cases act with
  | foreign id row =>
    simp only [fleetStep] at taken
    split at taken
    · cases taken
    · next other =>
      split at taken
      · cases taken
      · cases taken
        exact .inr ⟨id, row, rfl, other, rfl⟩
  | _ =>
    simp only [fleetStep, GatewayAction.caller, Option.map_eq_some_iff] at taken
    obtain ⟨u, moved, rfl⟩ := taken
    exact .inl ⟨_, u, rfl, moved, rfl⟩

end Fleet

/-! ### The key of a call -/

/-- What the cache tells calls apart by, within an organisation. -/
structure CacheKey where
  input_hash : String
  prompt_version_id : String
  prompt_hash : String
  state_hash : String
  model_requested : String
  sampling : String
  seed : Option Int
  deriving DecidableEq

section Key

variable (sha256Hex : String → String) (config : GatewayConfig) (request : GatewayCall)

def callKey : CacheKey where
  input_hash := inputHash sha256Hex request
  prompt_version_id := request.prompt_version_id
  prompt_hash := sha256Hex request.prompt_text
  state_hash := configStateHash sha256Hex config
  model_requested := request.model_requested
  sampling := canonicalJson (samplingJson request.sampling)
  seed := request.seed

/-- A row in which a column of the key is null has no key. -/
def rowKey (row : LedgerRowContent) : Option CacheKey :=
  row.input_hash.bind fun input_hash =>
  row.prompt_version_id.bind fun prompt_version_id =>
  row.prompt_hash.bind fun prompt_hash =>
  row.model_requested.bind fun model_requested =>
  row.sampling.map fun sampling =>
    { input_hash, prompt_version_id, prompt_hash, state_hash := row.state_hash, model_requested,
      sampling := canonicalJson sampling, seed := row.seed }

/-- A row of a call that was answered by the provider. -/
def uncached (row : LedgerRowContent) : Bool :=
  row.class == .agent_call && (row.output.member "response").isSome && !cacheHit row.output

/-- The row that a row out of the chain says it repeats. -/
def sourceSeq (row : LedgerRowContent) : Option Json :=
  (row.output.member "cache").bind (·.member "source_seq")

/-- The lookup finds the rows of its key that are not copies. -/
theorem answers_iff (row : LedgerRowContent) :
    answers sha256Hex config request row = true ↔
      uncached row = true ∧ rowKey row = some (callKey sha256Hex config request) := by
  rcases row with ⟨_, _, _, _, _, prompt_version_id, model_requested, _, sampling, _, input_hash, _,
    prompt_hash, _⟩
  cases input_hash <;> cases prompt_version_id <;> cases prompt_hash <;> cases model_requested <;>
    cases sampling <;>
    simp [answers, uncached, rowKey, callKey, and_assoc, and_comm, and_left_comm]

end Key

end LedgerDesk.Gateway
