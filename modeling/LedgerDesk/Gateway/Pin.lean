import LedgerDesk.Gateway.Machine

/-!
# The model pin

A fresh answer is held against the pin after its row is written. An answer out of the
chain is not held against it at all, and the row of a call the pin refused is in the chain.
-/
namespace LedgerDesk.Gateway

open Foundation LedgerDesk.Agents LedgerDesk.Ledger

section Pin

variable (sha256Hex : String → String) (tables : TextTables) (declared : DeclaredConfidence)
variable (config : GatewayConfig) {ι : Type*} [DecidableEq ι] (calls : ι → GatewayCall)

/-- How the phase of a call may move in one step of the gateway. -/
inductive PhaseMove (s : GatewayState ι) (act : GatewayAction ι) (i : ι) :
    CallPhase → CallPhase → Prop
  | stay (p) : PhaseMove s act i p p
  | hit {hit latency_ms} (looked : act = .lookup i latency_ms)
      (found : findCached sha256Hex config (calls i) s.ledger = some hit)
      (clean : assertResponseIsClean tables hit.response_text (calls i) = none) :
      PhaseMove s act i .lookingUp (.appendingHit hit latency_ms)
  | missed : PhaseMove s act i .lookingUp .asking
  | asked (spentMicro seen) : PhaseMove s act i .asking (.asked spentMicro seen)
  | admitted {spentMicro seen} : PhaseMove s act i (.asked spentMicro seen) .calling
  | answered {response latency_ms} : PhaseMove s act i .calling (.appending response latency_ms)
  | hitRecorded {hit latency_ms} (ledger) :
      PhaseMove s act i (.appendingHit hit latency_ms) (.recordedHit hit latency_ms ledger)
  | recorded {response latency_ms} (ledger) :
      PhaseMove s act i (.appending response latency_ms) (.recorded response latency_ms ledger)
  | hitReturned {hit latency_ms ledger} : PhaseMove s act i (.recordedHit hit latency_ms ledger)
      (.returned (hitResult sha256Hex (calls i) hit latency_ms ledger))
  | returned {response latency_ms ledger}
      (pinned : (calls i).pin_model = true → response.model = (calls i).model_requested) :
      PhaseMove s act i (.recorded response latency_ms ledger)
        (.returned (responseResult sha256Hex (calls i) response latency_ms ledger))
  | failed (p code reserved) : PhaseMove s act i p (.failed code reserved)

/-- What a pinned call holds, or has returned, out of the chain or fresh, carries the model
it asked for. -/
def PinKept (request : GatewayCall) : CallPhase → Prop
  | .appendingHit hit _ | .recordedHit hit _ _ => hit.model_returned = request.model_requested
  | .returned result => result.model_returned = request.model_requested
  | _ => True

/-- The call is being served, or has been served, by another model. -/
def PinBroken (request : GatewayCall) : CallPhase → Prop
  | .appendingHit hit _ | .recordedHit hit _ _ => hit.model_returned ≠ request.model_requested
  | .returned result => result.model_returned ≠ request.model_requested
  | .failed _ _ => True
  | _ => False

/-- What the chain would answer the call with came from the model it asked for, or is
refused for what it carries. -/
def ServesPin (ledger : List (LedgerRecord ι)) (request : GatewayCall) : Prop :=
  ∀ hit, findCached sha256Hex config request ledger = some hit →
    hit.model_returned = request.model_requested ∨
      assertResponseIsClean tables hit.response_text request ≠ none

variable {sha256Hex tables declared config calls}

theorem setPhase_move {s t : GatewayState ι} {act : GatewayAction ι} {i : ι} {old p : CallPhase}
    (same : t.phase = s.phase) (phase : s.phase i = old)
    (move : PhaseMove sha256Hex tables config calls s act i old p) (j : ι) :
    PhaseMove sha256Hex tables config calls s act j (s.phase j) ((t.setPhase i p).phase j) := by
  by_cases own : j = i
  · subst own
    rw [phase, GatewayState.setPhase_self]
    exact move
  · rw [GatewayState.setPhase_of_ne _ _ own, same]
    exact .stay _

theorem lookupStep_phase {s : GatewayState ι} {i : ι} {latency_ms : Nat}
    (phase : s.phase i = .lookingUp) (j : ι) :
    PhaseMove sha256Hex tables config calls s (.lookup i latency_ms) j (s.phase j)
      ((lookupStep sha256Hex tables config calls s i latency_ms).phase j) := by
  rw [lookupStep]
  split
  · next hit found =>
    split
    · exact setPhase_move rfl phase (.failed _ _ _) j
    · next clean => exact setPhase_move rfl phase (.hit rfl found clean) j
  · split
    · exact setPhase_move rfl phase (.failed _ _ _) j
    · exact setPhase_move rfl phase .missed j

theorem admitStep_phase {s : GatewayState ι} {i : ι} {spentMicro : Int} {seen : Nat}
    (phase : s.phase i = .asked spentMicro seen) (act : GatewayAction ι) (j : ι) :
    PhaseMove sha256Hex tables config calls s act j (s.phase j)
      ((admitStep tables config calls s i spentMicro).phase j) := by
  rw [admitStep]
  split
  · exact setPhase_move rfl phase (.failed _ _ _) j
  · split
    · exact setPhase_move rfl phase (.failed _ _ _) j
    · exact setPhase_move rfl phase .admitted j

theorem recordStep_phase {s t : GatewayState ι} {i : ι} {id : Nat} {now : String}
    {facts : RowFacts} {next : LedgerRef → CallPhase} {act : GatewayAction ι} {old : CallPhase}
    (taken : recordStep sha256Hex s i id now facts next = some t) (phase : s.phase i = old)
    (move : ∀ ref, PhaseMove sha256Hex tables config calls s act i old (next ref)) (j : ι) :
    PhaseMove sha256Hex tables config calls s act j (s.phase j) (t.phase j) := by
  simp only [recordStep] at taken
  split at taken
  · cases taken
  · split at taken
    · cases taken
    · cases taken
      exact setPhase_move rfl phase (move _) j

/-- The pin is checked where a fresh answer is returned, and nowhere else. -/
theorem resumeStep_phase {s : GatewayState ι} {i : ι} {response : ProviderResponse}
    {latency_ms : Nat} {ledger : LedgerRef}
    (phase : s.phase i = .recorded response latency_ms ledger) (act : GatewayAction ι) (j : ι) :
    PhaseMove sha256Hex tables config calls s act j (s.phase j)
      ((resumeStep sha256Hex calls s i response latency_ms ledger).phase j) := by
  rw [resumeStep]
  split
  · exact setPhase_move rfl phase (.failed _ _ _) j
  · next unrefused =>
    refine setPhase_move rfl phase (.returned fun pinned => ?_) j
    simpa [pinned] using unrefused

theorem gatewayStep_phase {s t : GatewayState ι} {act : GatewayAction ι}
    (taken : gatewayStep sha256Hex tables declared config calls s act = some t) (j : ι) :
    PhaseMove sha256Hex tables config calls s act j (s.phase j) (t.phase j) := by
  cases act with
  | lookup i latency_ms =>
    simp only [gatewayStep] at taken
    split at taken
    · next phase =>
      cases taken
      exact lookupStep_phase phase j
    · cases taken
  | spend i =>
    simp only [gatewayStep] at taken
    split at taken
    · next phase =>
      cases taken
      exact setPhase_move rfl phase (.asked _ _) j
    · cases taken
  | admitCall i =>
    simp only [gatewayStep] at taken
    split at taken
    · next phase =>
      cases taken
      exact admitStep_phase phase _ j
    · cases taken
  | providerAnswers i response latency_ms =>
    simp only [gatewayStep] at taken
    split at taken
    · next phase =>
      split at taken
      · cases taken
        exact setPhase_move rfl phase (.failed _ _ _) j
      · cases taken
        exact setPhase_move rfl phase .answered j
    · cases taken
  | providerFails i =>
    simp only [gatewayStep] at taken
    split at taken
    · next phase =>
      cases taken
      exact setPhase_move rfl phase (.failed _ _ _) j
    · cases taken
  | timesOut i =>
    simp only [gatewayStep] at taken
    split at taken
    · next phase =>
      cases taken
      exact setPhase_move rfl phase (.failed _ _ _) j
    · cases taken
  | record i id now =>
    simp only [gatewayStep] at taken
    split at taken
    · next phase => exact recordStep_phase taken phase .recorded j
    · next phase => exact recordStep_phase taken phase .hitRecorded j
    · cases taken
  | resume i =>
    simp only [gatewayStep] at taken
    split at taken
    · next phase =>
      cases taken
      exact resumeStep_phase phase _ j
    · next phase =>
      cases taken
      exact setPhase_move rfl phase .hitReturned j
    · cases taken
  | storeFails i code =>
    simp only [gatewayStep] at taken
    split at taken
    · cases taken
    · split at taken
      case h_7 => cases taken
      all_goals
        cases taken
        next phase => exact setPhase_move rfl phase (.failed _ _ _) j
  | foreign id row =>
    simp only [gatewayStep] at taken
    split at taken
    · cases taken
    · cases taken
      exact .stay _

/-! ### Pinned calls over a run -/

omit [DecidableEq ι] in
theorem PhaseMove.pinKept {s : GatewayState ι} {act : GatewayAction ι} {i : ι} {p q : CallPhase}
    (move : PhaseMove sha256Hex tables config calls s act i p q)
    (pinned : (calls i).pin_model = true)
    (serves : ∀ latency_ms, act = .lookup i latency_ms →
      ServesPin sha256Hex tables config s.ledger (calls i))
    (kept : PinKept (calls i) p) : PinKept (calls i) q := by
  cases move with
  | stay => exact kept
  | hit looked found clean =>
    rcases serves _ looked _ found with same | refused
    · exact same
    · exact absurd clean refused
  | hitRecorded => exact kept
  | hitReturned => exact kept
  | returned checked => exact checked pinned
  | missed | asked | admitted | answered | recorded | failed => trivial

omit [DecidableEq ι] in
theorem PhaseMove.pinBroken {s : GatewayState ι} {act : GatewayAction ι} {i : ι} {p q : CallPhase}
    (move : PhaseMove sha256Hex tables config calls s act i p q)
    (broken : PinBroken (calls i) p) : PinBroken (calls i) q := by
  cases move with
  | stay => exact broken
  | hitRecorded => exact broken
  | hitReturned => exact broken
  | failed => trivial
  | hit | missed | asked | admitted | answered | recorded | returned => cases broken

/-- A lookup that finds another model's answer sends the call on to serve it. -/
theorem pinBroken_of_lookup {s t : GatewayState ι} {i : ι} {latency_ms : Nat}
    (taken : gatewayStep sha256Hex tables declared config calls s (.lookup i latency_ms) = some t)
    (unserved : ¬ ServesPin sha256Hex tables config s.ledger (calls i)) :
    PinBroken (calls i) (t.phase i) := by
  simp only [ServesPin, not_forall, not_or, not_not] at unserved
  obtain ⟨hit, found, other, clean⟩ := unserved
  simp only [gatewayStep] at taken
  split at taken
  · cases taken
    simp only [lookupStep, found, clean, GatewayState.setPhase_self]
    exact other
  · cases taken

/-- Where every lookup of a pinned call finds nothing, the answer of the model it asked
for, or an answer it refuses, no pinned call returns another model's answer. A pinned
call whose lookup finds another model's answer returns that or nothing. -/
theorem pin_kept_iff_served {history : List (Nat × ChainedRow)} {s : GatewayState ι}
    {ts : List (Transition (GatewayState ι) (GatewayAction ι))}
    (run : Run (gatewayStep sha256Hex tables declared config calls)
      (gatewayStart config history) ts s) :
    ((∀ tr ∈ ts, ∀ i latency_ms, (calls i).pin_model = true → tr.act = .lookup i latency_ms →
        ServesPin sha256Hex tables config tr.source.ledger (calls i)) →
      ∀ i result, (calls i).pin_model = true → s.phase i = .returned result →
        result.model_returned = (calls i).model_requested) ∧
    ∀ tr ∈ ts, ∀ i latency_ms, tr.act = .lookup i latency_ms →
      ¬ ServesPin sha256Hex tables config tr.source.ledger (calls i) →
      ∀ us u, Run (gatewayStep sha256Hex tables declared config calls) tr.target us u →
        ∀ result, u.phase i = .returned result →
          result.model_returned ≠ (calls i).model_requested := by
  refine ⟨fun served i result pinned returned => ?_,
    fun tr member i latency_ms looked unserved us u rest result returned => ?_⟩
  · have kept := (run.invariant_of
      (P := fun s => ∀ i, (calls i).pin_model = true → PinKept (calls i) (s.phase i))
      (fun tr => ∀ i latency_ms, (calls i).pin_model = true → tr.act = .lookup i latency_ms →
        ServesPin sha256Hex tables config tr.source.ledger (calls i))
      (fun tr taken serves kept i pinned => (gatewayStep_phase taken i).pinKept pinned
        (fun latency_ms looked => serves i latency_ms pinned looked) (kept i pinned))
      served (fun i _ => by
        rw [gatewayStart]
        dsimp only
        split <;> trivial)).1 i pinned
    rw [returned] at kept
    exact kept
  · have taken := run.steps tr member
    rw [looked] at taken
    have broken := (rest.invariant (P := fun s => PinBroken (calls i) (s.phase i))
      (fun _ _ _ taken broken => (gatewayStep_phase taken i).pinBroken broken)
      (pinBroken_of_lookup taken unserved)).1
    rw [returned] at broken
    exact broken

end Pin

/-! ### A refused answer served to the retry -/

def pinConfig (run_id : String) : GatewayConfig where
  run_id := run_id
  schema_version := "1"
  ruleset_hash := "r"
  kb_snapshot := "kb:none"
  toolchain := .object []
  cutMicro := 10
  scope := .run
  restarts := 0
  cache := true
  replay := false

def pinCall : GatewayCall where
  agent := .draft
  org_id := "org"
  ticket_id := none
  prompt_version_id := "p"
  prompt_text := "p"
  locale := "en"
  model_requested := "m"
  sampling := ⟨.integer 0, .integer 1, 6, none⟩
  seed := some 0
  input_path := "db"
  split_id := none
  pin_model := true
  price := ⟨0, 1000⟩
  body_redacted := "b"
  kb_context := []
  redaction := .object []
  canaries := []
  removals := []

def pinStep (run_id : String) :
    GatewayState Unit → GatewayAction Unit → Option (GatewayState Unit) :=
  gatewayStep (fun _ => "7c40138d8ecf19f7f24af0a9520289dfc8e09e9e0760865d8ff8b61736105b53")
    ⟨id, id⟩ (fun _ => none) (pinConfig run_id) (fun _ => pinCall)

def pinHistory (s : GatewayState Unit) : List (Nat × ChainedRow) :=
  s.ledger.map fun record => (record.id, record.row)

/-- Asked for `m`, answered by `n`. -/
def pinRefusal : List (GatewayAction Unit) :=
  [.lookup () 1, .spend (), .admitCall (), .providerAnswers () ⟨"n", "ok", 1, 6⟩ 1,
    .record () 1 "t", .resume ()]

def pinRetry : List (GatewayAction Unit) := [.lookup () 1, .record () 2 "t", .resume ()]

def CallPhase.refusedByPin : CallPhase → Bool
  | .failed .E_MODEL_UNEXPECTED _ => true
  | _ => false

def CallPhase.modelReturned : CallPhase → Option String
  | .returned result => some result.model_returned
  | _ => none

private theorem pinRetry_outcome :
    ((perform (pinStep "first") (gatewayStart (pinConfig "first") []) pinRefusal).bind fun s =>
      (perform (pinStep "second") (gatewayStart (pinConfig "second") (pinHistory s))
        pinRetry).map fun t =>
        (((s.phase ()).refusedByPin, (t.phase ()).modelReturned))) =
      some (true, some "n") := by
  decide +kernel

/-- A pinned call is refused because another model answered it. Its row stands, and the
same call made again in the next run is served that answer. -/
theorem pinned_retry_served_by_other_model :
    ∃ s ts, Run (pinStep "first") (gatewayStart (pinConfig "first") []) ts s ∧
      (s.phase ()).refusedByPin = true ∧
      ∃ t us, Run (pinStep "second") (gatewayStart (pinConfig "second") (pinHistory s)) us t ∧
        pinCall.pin_model = true ∧
        ∃ result, t.phase () = .returned result ∧
          result.model_returned ≠ pinCall.model_requested := by
  have outcome := pinRetry_outcome
  simp only [Option.bind_eq_some_iff, Option.map_eq_some_iff, Prod.mk.injEq] at outcome
  obtain ⟨s, first, t, second, refused, served⟩ := outcome
  refine ⟨s, _, run_of_perform _ _ _ _ first, refused, t, _, run_of_perform _ _ _ _ second, rfl, ?_⟩
  cases phase : t.phase () with
  | returned result =>
    simp only [phase, CallPhase.modelReturned, Option.some.injEq] at served
    exact ⟨result, rfl, by rw [served]; decide⟩
  | _ => simp [phase, CallPhase.modelReturned] at served

def pinAnswer : List (GatewayAction Unit) :=
  [.spend (), .admitCall (), .providerAnswers () ⟨"m", "ok", 1, 6⟩ 1, .record () 1 "t", .resume ()]

theorem pinned_fresh_call_returns_its_model :
    ∃ s ts, Run (pinStep "first") (gatewayStart (pinConfig "first") []) ts s ∧
      ∃ result, s.phase () = .returned result ∧ result.model_returned = "m" := by
  obtain ⟨s, looked, unanswered⟩ : ∃ s,
      pinStep "first" (gatewayStart (pinConfig "first") []) (.lookup () 1) = some s ∧
        ((perform (pinStep "first") s pinAnswer).map fun t =>
          (t.phase ()).modelReturned.isSome) = some true :=
    ⟨_, rfl, by decide +kernel⟩
  obtain ⟨t, performed, answered⟩ := Option.map_eq_some_iff.mp unanswered
  have run : Run (pinStep "first") (gatewayStart (pinConfig "first") []) _ t :=
    .step looked (run_of_perform _ _ _ _ performed)
  have served := (pin_kept_iff_served run).1
  cases phase : t.phase () with
  | returned result =>
    refine ⟨t, _, run, result, phase, served (fun tr member i latency_ms _ act => ?_) () result rfl phase⟩
    rcases List.mem_cons.mp member with rfl | later
    · intro hit found
      cases found
    · have listed := act_mem_of_transitions later
      rw [act] at listed
      simp [pinAnswer] at listed
  | _ => simp [phase, CallPhase.modelReturned] at answered

end LedgerDesk.Gateway
