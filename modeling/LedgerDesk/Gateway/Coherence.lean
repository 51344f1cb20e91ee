import LedgerDesk.Gateway.Fleet
import LedgerDesk.Gateway.Pin

/-!
# Coherence of cache and replay

Two calls of one key are told apart by nothing the lookup asks for. They are given one text
as long as no second answer is filed under a key that has one, which is the case where calls
are made one after another and every gateway asks the chain first.
-/
namespace LedgerDesk.Gateway

open Foundation LedgerDesk.Agents LedgerDesk.Ledger

/-! ### What a step of a call can do -/

section CallStep

variable (sha256Hex : String → String) (tables : TextTables) (declared : DeclaredConfidence)
variable (config : GatewayConfig) {ι : Type*} (calls : ι → GatewayCall)

/-- A step of call `i`, with the phases it leads between and the rows it files. -/
inductive CallStep (s : GatewayState ι) (i : ι) :
    GatewayAction ι → CallPhase → CallPhase → List (LedgerRecord ι) → Prop
  | found {hit latency_ms}
      (answered : findCached sha256Hex config (calls i) s.ledger = some hit)
      (clean : assertResponseIsClean tables hit.response_text (calls i) = none) :
      CallStep s i (.lookup i latency_ms) .lookingUp (.appendingHit hit latency_ms) []
  | unclean {hit latency_ms code}
      (answered : findCached sha256Hex config (calls i) s.ledger = some hit)
      (refused : assertResponseIsClean tables hit.response_text (calls i) = some code) :
      CallStep s i (.lookup i latency_ms) .lookingUp (.failed code false) []
  | missed {latency_ms}
      (unanswered : findCached sha256Hex config (calls i) s.ledger = none)
      (asks : config.replay = false) :
      CallStep s i (.lookup i latency_ms) .lookingUp .asking []
  | unreplayed {latency_ms}
      (unanswered : findCached sha256Hex config (calls i) s.ledger = none)
      (replays : config.replay = true) :
      CallStep s i (.lookup i latency_ms) .lookingUp (.failed .E_REPLAY_CACHE_MISS false) []
  | asked {spentMicro seen} : CallStep s i (.spend i) .asking (.asked spentMicro seen) []
  | admitted {spentMicro seen} : CallStep s i (.admitCall i) (.asked spentMicro seen) .calling []
  | heldBack {spentMicro seen code} :
      CallStep s i (.admitCall i) (.asked spentMicro seen) (.failed code false) []
  | answered {response latency_ms}
      (clean : assertResponseIsClean tables response.text (calls i) = none) :
      CallStep s i (.providerAnswers i response latency_ms) .calling
        (.appending response latency_ms) []
  | unanswered {act code reserved} (acting : act.caller = some i) :
      CallStep s i act .calling (.failed code reserved) []
  | filed {response latency_ms id now row ref}
      (appended : appendRow sha256Hex
        (responseFacts sha256Hex config (calls i) declared response latency_ms) now s.rows =
          some row) :
      CallStep s i (.record i id now) (.appending response latency_ms)
        (.recorded response latency_ms ref) [⟨id, row, some i⟩]
  | copied {hit latency_ms id now row ref}
      (appended : appendRow sha256Hex (hitFacts sha256Hex config (calls i) hit latency_ms) now
        s.rows = some row) :
      CallStep s i (.record i id now) (.appendingHit hit latency_ms)
        (.recordedHit hit latency_ms ref) [⟨id, row, some i⟩]
  | returned {response latency_ms ref} :
      CallStep s i (.resume i) (.recorded response latency_ms ref)
        (.returned (responseResult sha256Hex (calls i) response latency_ms ref)) []
  | unexpected {response latency_ms ref} :
      CallStep s i (.resume i) (.recorded response latency_ms ref)
        (.failed .E_MODEL_UNEXPECTED false) []
  | repeated {hit latency_ms ref} :
      CallStep s i (.resume i) (.recordedHit hit latency_ms ref)
        (.returned (hitResult sha256Hex (calls i) hit latency_ms ref)) []
  | lost {p code reserved} (waits : ∀ q, p ≠ .returned q)
      (store : code = .E_LEDGER_WRITE_FAILED ∨ code = .driverError) :
      CallStep s i (.storeFails i code) p (.failed code reserved) []

/-- The step is one of call `i`, and nothing else moves. -/
def CallSteps [DecidableEq ι] (s : GatewayState ι) (i : ι) (act : GatewayAction ι)
    (t : GatewayState ι) : Prop :=
  ∃ p new, CallStep sha256Hex tables declared config calls s i act (s.phase i) p new ∧
    t.phase = Function.update s.phase i p ∧ t.ledger = s.ledger ++ new

variable {sha256Hex tables declared config calls} [DecidableEq ι]

/-- A step that commits nothing. -/
theorem CallStep.moves {s t : GatewayState ι} {i : ι} {act : GatewayAction ι}
    {old p : CallPhase} (step : CallStep sha256Hex tables declared config calls s i act old p [])
    (phase : s.phase i = old) (moved : t.phase = Function.update s.phase i p)
    (kept : t.ledger = s.ledger) :
    CallSteps sha256Hex tables declared config calls s i act t := by
  refine ⟨p, [], ?_, moved, ?_⟩
  · rw [phase]
    exact step
  · rw [kept, List.append_nil]

theorem lookupStep_call {s : GatewayState ι} {i : ι} {latency_ms : Nat}
    (phase : s.phase i = .lookingUp) :
    CallSteps sha256Hex tables declared config calls s i (.lookup i latency_ms)
      (lookupStep sha256Hex tables config calls s i latency_ms) := by
  rw [lookupStep]
  split
  · next hit found =>
    split
    · next code refused => exact (CallStep.unclean found refused).moves phase rfl rfl
    · next clean => exact (CallStep.found found clean).moves phase rfl rfl
  · next nothing =>
    split
    · next replays => exact (CallStep.unreplayed nothing replays).moves phase rfl rfl
    · next asks =>
      exact (CallStep.missed nothing (Bool.eq_false_of_not_eq_true asks)).moves phase rfl rfl

theorem admitStep_call {s : GatewayState ι} {i : ι} {spentMicro : Int} {seen : Nat}
    (phase : s.phase i = .asked spentMicro seen) :
    CallSteps sha256Hex tables declared config calls s i (.admitCall i)
      (admitStep tables config calls s i spentMicro) := by
  rw [admitStep]
  split
  · exact CallStep.heldBack.moves phase rfl rfl
  · split
    · exact CallStep.heldBack.moves phase rfl rfl
    · exact CallStep.admitted.moves phase rfl rfl

theorem recordStep_call {s t : GatewayState ι} {i : ι} {id : Nat} {now : String}
    {facts : RowFacts} {next : LedgerRef → CallPhase} {old : CallPhase}
    (taken : recordStep sha256Hex s i id now facts next = some t) (phase : s.phase i = old)
    (step : ∀ row ref, appendRow sha256Hex facts now s.rows = some row →
      CallStep sha256Hex tables declared config calls s i (.record i id now) old (next ref)
        [⟨id, row, some i⟩]) :
    CallSteps sha256Hex tables declared config calls s i (.record i id now) t := by
  simp only [recordStep] at taken
  split at taken
  · cases taken
  · split at taken
    · cases taken
    · next row appended =>
      cases taken
      refine ⟨_, _, ?_, rfl, rfl⟩
      rw [phase]
      exact step row _ appended

theorem resumeStep_call {s : GatewayState ι} {i : ι} {response : ProviderResponse}
    {latency_ms : Nat} {ref : LedgerRef} (phase : s.phase i = .recorded response latency_ms ref) :
    CallSteps sha256Hex tables declared config calls s i (.resume i)
      (resumeStep sha256Hex calls s i response latency_ms ref) := by
  rw [resumeStep]
  split
  · exact CallStep.unexpected.moves phase rfl rfl
  · exact CallStep.returned.moves phase rfl rfl

theorem gatewayStep_call {s t : GatewayState ι} {act : GatewayAction ι} {i : ι}
    (taken : gatewayStep sha256Hex tables declared config calls s act = some t)
    (acting : act.caller = some i) :
    CallSteps sha256Hex tables declared config calls s i act t := by
  cases act with
  | lookup j latency_ms =>
    cases acting
    simp only [gatewayStep] at taken
    split at taken
    · next phase =>
      cases taken
      exact lookupStep_call phase
    · cases taken
  | spend j =>
    cases acting
    simp only [gatewayStep] at taken
    split at taken
    · next phase =>
      cases taken
      exact CallStep.asked.moves phase rfl rfl
    · cases taken
  | admitCall j =>
    cases acting
    simp only [gatewayStep] at taken
    split at taken
    · next phase =>
      cases taken
      exact admitStep_call phase
    · cases taken
  | providerAnswers j response latency_ms =>
    cases acting
    simp only [gatewayStep] at taken
    split at taken
    · next phase =>
      split at taken
      · cases taken
        exact (CallStep.unanswered rfl).moves phase rfl rfl
      · next clean =>
        cases taken
        exact (CallStep.answered clean).moves phase rfl rfl
    · cases taken
  | providerFails j =>
    cases acting
    simp only [gatewayStep] at taken
    split at taken
    · next phase =>
      cases taken
      exact (CallStep.unanswered rfl).moves phase rfl rfl
    · cases taken
  | timesOut j =>
    cases acting
    simp only [gatewayStep] at taken
    split at taken
    · next phase =>
      cases taken
      exact (CallStep.unanswered rfl).moves phase rfl rfl
    · cases taken
  | record j id now =>
    cases acting
    simp only [gatewayStep] at taken
    split at taken
    · next phase => exact recordStep_call taken phase fun _ _ appended => .filed appended
    · next phase => exact recordStep_call taken phase fun _ _ appended => .copied appended
    · cases taken
  | resume j =>
    cases acting
    simp only [gatewayStep] at taken
    split at taken
    · next phase =>
      cases taken
      exact resumeStep_call phase
    · next phase =>
      cases taken
      exact CallStep.repeated.moves phase rfl rfl
    · cases taken
  | storeFails j code =>
    cases acting
    simp only [gatewayStep] at taken
    split at taken
    · cases taken
    · next known =>
      have store : code = .E_LEDGER_WRITE_FAILED ∨ code = .driverError := by
        by_contra other
        exact known (not_or.mp other)
      split at taken
      case h_7 => cases taken
      all_goals
        cases taken
        next phase => exact (CallStep.lost (by simp) store).moves phase rfl rfl
  | foreign id row => cases acting

end CallStep

/-! ### The rows a call files -/

section Rows

variable {sha256Hex : String → String} {config : GatewayConfig} {request : GatewayCall}
variable {ι : Type*}

theorem appendRow_content {facts : RowFacts} {now : String} {rows : List ChainedRow}
    {row : ChainedRow} (appended : appendRow sha256Hex facts now rows = some row) :
    row.toLedgerRowContent = buildRow facts now (visibleHead rows facts.org_id facts.run_id) := by
  simp only [appendRow] at appended
  split at appended
  · cases appended
  · next linked =>
    split at appended
    · cases appended
      exact (linkRow_eq_some linked).1
    · cases appended

/-- The row answers calls of the organisation and the key. -/
structure StandsFor (row : LedgerRowContent) (org_id : String) (key : CacheKey) : Prop where
  uncached : uncached row = true
  org : row.org_id = org_id
  key : rowKey row = some key

/-- A row of the organisation and the key carries the text. -/
def Standing (ledger : List (LedgerRecord ι)) (org_id : String) (key : CacheKey)
    (text : String) : Prop :=
  ∃ record ∈ ledger, StandsFor record.row.toLedgerRowContent org_id key ∧
    record.row.output.memberText "response" = some text

/-- The hit is read off a row of the organisation and the key. -/
def HitStands (ledger : List (LedgerRecord ι)) (org_id : String) (key : CacheKey)
    (hit : CachedCall) : Prop :=
  ∃ record ∈ ledger, StandsFor record.row.toLedgerRowContent org_id key ∧
    record.row.seq = hit.seq ∧ record.row.output.memberText "response" = some hit.response_text

/-- The row cost nothing and repeats a row of its organisation and key, which it names. -/
structure Repeats (ledger : List (LedgerRecord ι)) (row : LedgerRowContent) : Prop where
  free : row.cost_micro = 0
  source : ∃ key hit, rowKey row = some key ∧ HitStands ledger row.org_id key hit ∧
    sourceSeq row = some (.number (.integer hit.seq)) ∧
    row.output.memberText "response" = some hit.response_text

theorem HitStands.standing {ledger : List (LedgerRecord ι)} {org_id : String} {key : CacheKey}
    {hit : CachedCall} (stands : HitStands ledger org_id key hit) :
    Standing ledger org_id key hit.response_text := by
  obtain ⟨record, member, answers, -, text⟩ := stands
  exact ⟨record, member, answers, text⟩

section Mono

variable {ledger : List (LedgerRecord ι)} (new : List (LedgerRecord ι))

theorem Standing.mono {org_id : String} {key : CacheKey} {text : String}
    (stands : Standing ledger org_id key text) : Standing (ledger ++ new) org_id key text := by
  obtain ⟨record, member, found⟩ := stands
  exact ⟨record, List.mem_append_left new member, found⟩

theorem HitStands.mono {org_id : String} {key : CacheKey} {hit : CachedCall}
    (stands : HitStands ledger org_id key hit) : HitStands (ledger ++ new) org_id key hit := by
  obtain ⟨record, member, found⟩ := stands
  exact ⟨record, List.mem_append_left new member, found⟩

theorem Repeats.mono {row : LedgerRowContent} (repeats : Repeats ledger row) :
    Repeats (ledger ++ new) row := by
  obtain ⟨free, key, hit, keyed, stands, named⟩ := repeats
  exact ⟨free, key, hit, keyed, stands.mono new, named⟩

end Mono

theorem buildRow_text (facts : RowFacts) (now : String) (head : Option LedgerHead) :
    (buildRow facts now head).output.memberText "response" = some facts.response_text := rfl

theorem responseRow_stands (declared : DeclaredConfidence) (response : ProviderResponse)
    (latency_ms : Nat) (now : String) (head : Option LedgerHead) :
    StandsFor (buildRow (responseFacts sha256Hex config request declared response latency_ms)
      now head) request.org_id (callKey sha256Hex config request) :=
  ⟨rfl, rfl, rfl⟩

theorem hitRow_repeats {ledger : List (LedgerRecord ι)} {hit : CachedCall}
    (stands : HitStands ledger request.org_id (callKey sha256Hex config request) hit)
    (latency_ms : Nat) (now : String) (head : Option LedgerHead) :
    Repeats ledger (buildRow (hitFacts sha256Hex config request hit latency_ms) now head) :=
  ⟨rfl, _, hit, rfl, stands, rfl, rfl⟩

theorem hitRow_copied (hit : CachedCall) (latency_ms : Nat) (now : String)
    (head : Option LedgerHead) :
    uncached (buildRow (hitFacts sha256Hex config request hit latency_ms) now head) = false := rfl

/-! ### What the lookup finds -/

theorem findRow_stands {ledger : List (LedgerRecord ι)} {record : LedgerRecord ι}
    (found : findRow sha256Hex config request ledger = some record) :
    record ∈ ledger ∧ StandsFor record.row.toLedgerRowContent request.org_id
      (callKey sha256Hex config request) := by
  have first := List.argmin_mem found
  simp only [List.mem_filter, Bool.and_eq_true, beq_iff_eq, answers_iff] at first
  obtain ⟨member, org, answer, key⟩ := first
  exact ⟨member, answer, org, key⟩

theorem findCached_stands {ledger : List (LedgerRecord ι)} {hit : CachedCall}
    (found : findCached sha256Hex config request ledger = some hit) :
    HitStands ledger request.org_id (callKey sha256Hex config request) hit := by
  obtain ⟨record, first, read⟩ := Option.bind_eq_some_iff.mp found
  obtain ⟨member, stands⟩ := findRow_stands first
  simp only [cachedCall] at read
  split at read
  · cases read
  · next text =>
    cases read
    exact ⟨record, member, stands, rfl, text⟩

/-- Every row of a call carries the text it was answered with. -/
def TextsStand (ledger : List (LedgerRecord ι)) : Prop :=
  ∀ record ∈ ledger, record.row.class = .agent_call →
    ∃ text, record.row.output.memberText "response" = some text

theorem uncached_class {row : LedgerRowContent} (standing : uncached row = true) :
    row.class = .agent_call := by
  simp only [uncached, Bool.and_eq_true, beq_iff_eq] at standing
  exact standing.1.1

/-- What stands is found. -/
theorem findCached_some {ledger : List (LedgerRecord ι)} (texts : TextsStand ledger)
    {record : LedgerRecord ι} (member : record ∈ ledger)
    (stands : StandsFor record.row.toLedgerRowContent request.org_id
      (callKey sha256Hex config request)) :
    ∃ hit, findCached sha256Hex config request ledger = some hit := by
  cases first : findRow sha256Hex config request ledger with
  | none =>
    have nothing := List.argmin_eq_none.mp first
    rw [List.filter_eq_nil_iff] at nothing
    refine absurd ?_ (nothing record member)
    rw [Bool.and_eq_true, beq_iff_eq, answers_iff]
    exact ⟨stands.org, stands.uncached, stands.key⟩
  | some found =>
    obtain ⟨in_ledger, answer⟩ := findRow_stands first
    obtain ⟨text, carried⟩ := texts found in_ledger (uncached_class answer.uncached)
    rw [findCached, first, Option.bind_some, cachedCall, carried]
    exact ⟨_, rfl⟩

end Rows

/-! ### What every interleaving keeps -/

section Fleet

variable (sha256Hex : String → String) (tables : TextTables) (declared : DeclaredConfidence)
variable {γ ι : Type*} (configs : γ → GatewayConfig) (gateway : ι → γ) (calls : ι → GatewayCall)

def keyOf (i : ι) : CacheKey := callKey sha256Hex (configs (gateway i)) (calls i)

/-- What a call holds passed its own scan, and stands where it was read or filed. -/
def Held (ledger : List (LedgerRecord ι)) (request : GatewayCall) (key : CacheKey) :
    CallPhase → Prop
  | .appendingHit hit _ | .recordedHit hit _ _ =>
    HitStands ledger request.org_id key hit ∧
      assertResponseIsClean tables hit.response_text request = none
  | .appending response _ => assertResponseIsClean tables response.text request = none
  | .recorded response _ _ =>
    Standing ledger request.org_id key response.text ∧
      assertResponseIsClean tables response.text request = none
  | .returned result =>
    Standing ledger request.org_id key result.response_text ∧
      assertResponseIsClean tables result.response_text request = none
  | _ => True

/-- The call is on its way to the provider or comes from there. -/
def CallPhase.usesProvider : CallPhase → Bool
  | .asking | .asked _ _ | .calling | .appending _ _ | .recorded _ _ _ => true
  | _ => false

structure FleetInvariant (s : FleetState γ ι) : Prop where
  texts : TextsStand s.ledger
  copies : ∀ record ∈ s.ledger, record.row.class = .agent_call →
    uncached record.row.toLedgerRowContent = true ∨
      Repeats s.ledger record.row.toLedgerRowContent
  held : ∀ i, Held tables s.ledger (calls i) (keyOf sha256Hex configs gateway calls i) (s.phase i)
  replayed : ∀ i, (configs (gateway i)).replay = true → (s.phase i).usesProvider = false

variable {sha256Hex tables declared configs gateway calls}

theorem Held.mono {ledger : List (LedgerRecord ι)} (new : List (LedgerRecord ι))
    {request : GatewayCall} {key : CacheKey} {p : CallPhase}
    (held : Held tables ledger request key p) : Held tables (ledger ++ new) request key p := by
  cases p with
  | appendingHit | recordedHit => exact ⟨held.1.mono new, held.2⟩
  | recorded | returned => exact ⟨held.1.mono new, held.2⟩
  | _ => exact held

section Step

variable {s : GatewayState ι} {i : ι} {act : GatewayAction ι} {old p : CallPhase}
variable {new : List (LedgerRecord ι)} {config : GatewayConfig}

theorem CallStep.held
    (step : CallStep sha256Hex tables declared config calls s i act old p new)
    (held : Held tables s.ledger (calls i) (callKey sha256Hex config (calls i)) old) :
    Held tables (s.ledger ++ new) (calls i) (callKey sha256Hex config (calls i)) p := by
  cases step with
  | found answered clean => exact ⟨(findCached_stands answered).mono [], clean⟩
  | answered clean => exact clean
  | filed appended =>
    refine ⟨⟨_, List.mem_append_right _ List.mem_cons_self, ?_⟩, held⟩
    rw [appendRow_content appended]
    exact ⟨responseRow_stands declared _ _ _ _, rfl⟩
  | copied => exact ⟨held.1.mono _, held.2⟩
  | returned => exact ⟨held.1.mono [], held.2⟩
  | repeated => exact ⟨(held.1.mono []).standing, held.2⟩
  | _ => trivial

/-- Each row a call files carries a text, and is a copy only of what stands. -/
theorem CallStep.files
    (step : CallStep sha256Hex tables declared config calls s i act old p new)
    (held : Held tables s.ledger (calls i) (callKey sha256Hex config (calls i)) old) :
    ∀ record ∈ new, (∃ text, record.row.output.memberText "response" = some text) ∧
      (uncached record.row.toLedgerRowContent = true ∨
        Repeats s.ledger record.row.toLedgerRowContent) := by
  intro record member
  cases step with
  | filed appended =>
    rw [List.mem_singleton.mp member, appendRow_content appended]
    exact ⟨⟨_, buildRow_text _ _ _⟩, .inl rfl⟩
  | copied appended =>
    rw [List.mem_singleton.mp member, appendRow_content appended]
    exact ⟨⟨_, buildRow_text _ _ _⟩, .inr (hitRow_repeats held.1 _ _ _)⟩
  | _ => cases member

theorem CallStep.replayed
    (step : CallStep sha256Hex tables declared config calls s i act old p new)
    (replays : config.replay = true) (kept : old.usesProvider = false) :
    p.usesProvider = false := by
  cases step with
  | missed _ asks =>
    rw [replays] at asks
    cases asks
  | asked | admitted | answered | filed => cases kept
  | _ => rfl

end Step

theorem fleetStart_invariant :
    FleetInvariant sha256Hex tables configs gateway calls
      (fleetStart configs gateway : FleetState γ ι) where
  texts := by simp [TextsStand, fleetStart]
  copies := by simp [fleetStart]
  held i := by
    simp only [fleetStart]
    split <;> trivial
  replayed i replays := by simp [fleetStart, cacheEnabled, replays, CallPhase.usesProvider]

/-- Where the new rows are sound and each phase is held, the ledger stays sound. -/
theorem FleetInvariant.grow {s t : FleetState γ ι} {new : List (LedgerRecord ι)}
    (inv : FleetInvariant sha256Hex tables configs gateway calls s)
    (ledger : t.ledger = s.ledger ++ new)
    (sound : ∀ record ∈ new, record.row.class = .agent_call →
      (∃ text, record.row.output.memberText "response" = some text) ∧
      (uncached record.row.toLedgerRowContent = true ∨
        Repeats s.ledger record.row.toLedgerRowContent))
    (held : ∀ i, Held tables (s.ledger ++ new) (calls i)
      (keyOf sha256Hex configs gateway calls i) (t.phase i))
    (replayed : ∀ i, (configs (gateway i)).replay = true → (t.phase i).usesProvider = false) :
    FleetInvariant sha256Hex tables configs gateway calls t where
  texts := by
    intro record member of_call
    rw [ledger] at member
    rcases List.mem_append.mp member with before | filed
    · exact inv.texts record before of_call
    · exact (sound record filed of_call).1
  copies := by
    intro record member of_call
    rw [ledger] at member ⊢
    rcases List.mem_append.mp member with before | filed
    · exact (inv.copies record before of_call).imp_right (Repeats.mono new)
    · exact (sound record filed of_call).2.imp_right (Repeats.mono new)
  held i := by
    rw [ledger]
    exact held i
  replayed := replayed

variable [DecidableEq γ] [DecidableEq ι]

theorem fleetStep_call {s t : FleetState γ ι} {act : GatewayAction ι}
    (taken : fleetStep sha256Hex tables declared configs gateway calls s act = some t) :
    (∃ i p new, act.caller = some i ∧
      CallStep sha256Hex tables declared (configs (gateway i)) calls (s.view (gateway i)) i act
        (s.phase i) p new ∧
      t.phase = Function.update s.phase i p ∧ t.ledger = s.ledger ++ new) ∨
    ∃ id row, act = .foreign id row ∧ row.class ≠ .agent_call ∧ t.phase = s.phase ∧
      t.ledger = s.ledger ++ [⟨id, row, none⟩] := by
  rcases fleetStep_cases taken with ⟨i, u, acting, moved, rfl⟩ | ⟨id, row, rfl, other, rfl⟩
  · obtain ⟨p, new, step, phase, ledger⟩ := gatewayStep_call moved acting
    exact .inl ⟨i, p, new, acting, step, phase, ledger⟩
  · exact .inr ⟨id, row, rfl, other, rfl, rfl⟩

theorem fleetStep_invariant {s t : FleetState γ ι} {act : GatewayAction ι}
    (taken : fleetStep sha256Hex tables declared configs gateway calls s act = some t)
    (inv : FleetInvariant sha256Hex tables configs gateway calls s) :
    FleetInvariant sha256Hex tables configs gateway calls t := by
  rcases fleetStep_call taken with
    ⟨i, p, new, -, step, phase, ledger⟩ | ⟨id, row, -, other, phase, ledger⟩
  · refine inv.grow ledger (fun record filed _ => step.files (inv.held i) record filed)
      (fun j => ?_) (fun j replays => ?_)
    · by_cases own : j = i
      · subst own
        rw [phase, Function.update_self]
        exact step.held (inv.held j)
      · rw [phase, Function.update_of_ne own]
        exact (inv.held j).mono new
    · by_cases own : j = i
      · subst own
        rw [phase, Function.update_self]
        exact step.replayed replays (inv.replayed j replays)
      · rw [phase, Function.update_of_ne own]
        exact inv.replayed j replays
  · refine inv.grow ledger (fun record filed of_call => ?_) (fun j => ?_) (fun j replays => ?_)
    · rw [List.mem_singleton.mp filed] at of_call
      exact absurd of_call other
    · rw [phase]
      exact (inv.held j).mono _
    · rw [phase]
      exact inv.replayed j replays

/-! ### One text for each key -/

def OneText (ledger : List (LedgerRecord ι)) : Prop :=
  ∀ org_id key text text', Standing ledger org_id key text → Standing ledger org_id key text' →
    text = text'

variable (sha256Hex configs gateway calls) in
/-- A fresh answer that is filed says what stands under its organisation and key. -/
def Agrees (tr : Transition (FleetState γ ι) (GatewayAction ι)) : Prop :=
  ∀ i id now response latency_ms, tr.act = .record i id now →
    tr.source.phase i = .appending response latency_ms →
    ∀ text, Standing tr.source.ledger (calls i).org_id (keyOf sha256Hex configs gateway calls i)
      text → text = response.text

omit [DecidableEq γ] [DecidableEq ι] in
theorem standing_append {ledger new : List (LedgerRecord ι)} {org_id : String} {key : CacheKey}
    {text : String} (stands : Standing (ledger ++ new) org_id key text) :
    Standing ledger org_id key text ∨ Standing new org_id key text := by
  obtain ⟨record, member, found⟩ := stands
  rcases List.mem_append.mp member with before | filed
  · exact .inl ⟨record, before, found⟩
  · exact .inr ⟨record, filed, found⟩

omit [DecidableEq γ] [DecidableEq ι] in
/-- Only a fresh answer stands for anything it did not stand for before. -/
theorem CallStep.stands {s : GatewayState ι} {i : ι} {act : GatewayAction ι} {old p : CallPhase}
    {new : List (LedgerRecord ι)} {config : GatewayConfig}
    (step : CallStep sha256Hex tables declared config calls s i act old p new)
    {org_id : String} {key : CacheKey} {text : String} (stands : Standing new org_id key text) :
    ∃ id now response latency_ms, act = .record i id now ∧ old = .appending response latency_ms ∧
      org_id = (calls i).org_id ∧ key = callKey sha256Hex config (calls i) ∧
      text = response.text := by
  obtain ⟨record, member, found, carried⟩ := stands
  cases step with
  | filed appended =>
    rw [List.mem_singleton.mp member] at found carried
    rw [appendRow_content appended] at found carried
    refine ⟨_, _, _, _, rfl, rfl, found.org.symm, ?_, (Option.some.inj carried).symm⟩
    exact (Option.some.inj found.key).symm
  | copied appended =>
    rw [List.mem_singleton.mp member, appendRow_content appended] at found
    exact absurd found.uncached (Bool.eq_false_iff.mp (hitRow_copied _ _ _ _))
  | _ => cases member

omit [DecidableEq γ] [DecidableEq ι] in
theorem not_standing_of_other {id : Nat} {row : ChainedRow} (other : row.class ≠ .agent_call)
    {org_id : String} {key : CacheKey} {text : String} :
    ¬ Standing [(⟨id, row, none⟩ : LedgerRecord ι)] org_id key text := by
  rintro ⟨record, member, found, -⟩
  rw [List.mem_singleton.mp member] at found
  exact other (uncached_class found.uncached)

theorem fleetStep_oneText {tr : Transition (FleetState γ ι) (GatewayAction ι)}
    (taken : fleetStep sha256Hex tables declared configs gateway calls tr.source tr.act =
      some tr.target)
    (agrees : Agrees sha256Hex configs gateway calls tr) (one : OneText tr.source.ledger) :
    OneText tr.target.ledger := by
  intro org_id key text text' stands stands'
  rcases fleetStep_call taken with
    ⟨i, p, new, -, step, -, ledger⟩ | ⟨id, row, -, other, -, ledger⟩
  · rw [ledger] at stands stands'
    rcases standing_append stands with before | filed <;>
      rcases standing_append stands' with before' | filed'
    · exact one org_id key text text' before before'
    · obtain ⟨id, now, response, latency_ms, acted, phase, rfl, rfl, rfl⟩ := step.stands filed'
      exact agrees i id now response latency_ms acted phase text before
    · obtain ⟨id, now, response, latency_ms, acted, phase, rfl, rfl, rfl⟩ := step.stands filed
      exact (agrees i id now response latency_ms acted phase text' before').symm
    · -- one step files one answer
      obtain ⟨_, _, response, _, _, phase, -, -, rfl⟩ := step.stands filed
      obtain ⟨_, _, response', _, _, phase', -, -, rfl⟩ := step.stands filed'
      rw [phase] at phase'
      cases phase'
      rfl
  · rw [ledger] at stands stands'
    rcases standing_append stands with before | filed
    · rcases standing_append stands' with before' | filed'
      · exact one org_id key text text' before before'
      · exact absurd filed' (not_standing_of_other other)
    · exact absurd filed (not_standing_of_other other)

/-! ### Calls made one after another -/

def callers (ts : List (Transition (FleetState γ ι) (GatewayAction ι))) : List ι :=
  ts.filterMap fun tr => tr.act.caller

/-- A call that another call has followed takes no step any more. -/
def OneAfterAnother (ts : List (Transition (FleetState γ ι) (GatewayAction ι))) : Prop :=
  ∀ i j, [i, j, i].Sublist (callers ts) → i = j

/-- The call found nothing, and has filed nothing. -/
def CallPhase.unanswered : CallPhase → Bool
  | .asking | .asked _ _ | .calling | .appending _ _ => true
  | _ => false

variable (sha256Hex configs gateway calls) in
/-- A call that found nothing has nothing standing under its key, or another call followed it. -/
def Unanswered (before : List ι) (s : FleetState γ ι) : Prop :=
  ∀ i, (s.phase i).unanswered = true → i ∈ before ∧
    ((∀ text, ¬ Standing s.ledger (calls i).org_id (keyOf sha256Hex configs gateway calls i) text) ∨
      ∃ j, j ≠ i ∧ [i, j].Sublist before)

omit [DecidableEq γ] [DecidableEq ι] in
/-- A call that is left unanswered found nothing in its own step, or stays so. -/
theorem CallStep.unanswered_of {s : GatewayState ι} {i : ι} {act : GatewayAction ι}
    {old p : CallPhase} {new : List (LedgerRecord ι)} {config : GatewayConfig}
    (step : CallStep sha256Hex tables declared config calls s i act old p new)
    (unanswered : p.unanswered = true) :
    new = [] ∧ (findCached sha256Hex config (calls i) s.ledger = none ∨ old.unanswered = true) := by
  cases step with
  | missed nothing => exact ⟨rfl, .inl nothing⟩
  | asked | admitted | answered => exact ⟨rfl, .inr rfl⟩
  | _ => cases unanswered

theorem fleetStep_unanswered {s t : FleetState γ ι} {act : GatewayAction ι}
    (taken : fleetStep sha256Hex tables declared configs gateway calls s act = some t)
    (texts : TextsStand s.ledger) {before : List ι}
    (kept : Unanswered sha256Hex configs gateway calls before s) :
    Unanswered sha256Hex configs gateway calls (before ++ act.caller.toList) t := by
  intro j unanswered
  rcases fleetStep_call taken with
    ⟨i, p, new, acting, step, phase, ledger⟩ | ⟨id, row, rfl, other, phase, ledger⟩
  · rw [acting, Option.toList_some]
    by_cases own : j = i
    · subst own
      rw [phase, Function.update_self] at unanswered
      obtain ⟨rfl, found⟩ := step.unanswered_of unanswered
      rw [List.append_nil] at ledger
      refine ⟨List.mem_append_right _ List.mem_cons_self, ?_⟩
      rcases found with nothing | still
      · refine .inl fun text ⟨record, member, stands, _⟩ => ?_
        rw [ledger] at member
        obtain ⟨hit, found⟩ := findCached_some texts member stands
        rw [FleetState.view_ledger, found] at nothing
        cases nothing
      · rcases (kept j still).2 with nothing | ⟨k, another, followed⟩
        · rw [ledger]
          exact .inl nothing
        · exact .inr ⟨k, another, followed.trans (List.sublist_append_left _ _)⟩
    · rw [phase, Function.update_of_ne own] at unanswered
      obtain ⟨began, -⟩ := kept j unanswered
      refine ⟨List.mem_append_left _ began, .inr ⟨i, Ne.symm own, ?_⟩⟩
      exact (List.singleton_sublist.mpr began).append (List.Sublist.refl [i])
  · rw [GatewayAction.caller, Option.toList_none, List.append_nil]
    rw [phase] at unanswered
    obtain ⟨began, nothing | followed⟩ := kept j unanswered
    · refine ⟨began, .inl fun text stands => ?_⟩
      rw [ledger] at stands
      rcases standing_append stands with still | filed
      · exact nothing text still
      · exact not_standing_of_other other filed
    · exact ⟨began, .inr followed⟩

/-- Along a run whose calls follow one another, a fresh answer is filed under a key of which
nothing stands. -/
theorem agrees_of_oneAfterAnother {s u : FleetState γ ι}
    {ts : List (Transition (FleetState γ ι) (GatewayAction ι))}
    (run : Run (fleetStep sha256Hex tables declared configs gateway calls) s ts u)
    {before : List ι} (kept : Unanswered sha256Hex configs gateway calls before s)
    (inv : FleetInvariant sha256Hex tables configs gateway calls s)
    (follow : ∀ i j, [i, j, i].Sublist (before ++ callers ts) → i = j) :
    ∀ tr ∈ ts, Agrees sha256Hex configs gateway calls tr := by
  induction run generalizing before with
  | done => simp
  | @step s t u act ts taken _ ih =>
    have split : before ++ callers (⟨s, act, t⟩ :: ts) =
        (before ++ act.caller.toList) ++ callers ts := by
      cases acting : act.caller <;> simp [callers, acting]
    intro tr member
    rcases List.mem_cons.mp member with rfl | later
    · intro i id now response latency_ms acted phase text stands
      dsimp only at acted phase stands
      subst acted
      rcases (kept i (by rw [phase]; rfl)).2 with nothing | ⟨j, another, followed⟩
      · exact absurd stands (nothing text)
      · refine absurd (follow i j ?_).symm another
        rw [split]
        exact (followed.append (List.Sublist.refl [i])).trans (List.sublist_append_left _ _)
    · refine ih (fleetStep_unanswered taken inv.texts kept) (fleetStep_invariant taken inv) ?_ tr
        later
      rw [split] at follow
      exact follow

/-! ### Replay -/

/-- The call is being answered with the hit, or has been, or the database refused it. -/
def Served (hit : CachedCall) : CallPhase → Prop
  | .appendingHit held _ | .recordedHit held _ _ => held = hit
  | .returned result => result.cached = true ∧ result.response_text = hit.response_text
  | .failed code _ => code = .E_LEDGER_WRITE_FAILED ∨ code = .driverError
  | _ => False

omit [DecidableEq γ] [DecidableEq ι] in
theorem CallStep.served {s : GatewayState ι} {i : ι} {act : GatewayAction ι} {old p : CallPhase}
    {new : List (LedgerRecord ι)} {config : GatewayConfig} {hit : CachedCall}
    (step : CallStep sha256Hex tables declared config calls s i act old p new)
    (served : Served hit old) : Served hit p := by
  cases step with
  | copied => exact served
  | repeated =>
    cases served
    exact ⟨rfl, rfl⟩
  | lost _ store => exact store
  | _ => cases served

theorem fleetStep_served {s t : FleetState γ ι} {act : GatewayAction ι} {i : ι} {hit : CachedCall}
    (taken : fleetStep sha256Hex tables declared configs gateway calls s act = some t)
    (served : Served hit (s.phase i)) : Served hit (t.phase i) := by
  rcases fleetStep_call taken with ⟨j, p, new, -, step, phase, -⟩ | ⟨_, _, -, -, phase, -⟩
  · rw [phase]
    by_cases own : i = j
    · subst own
      rw [Function.update_self]
      exact step.served served
    · rw [Function.update_of_ne own]
      exact served
  · rw [phase]
    exact served

variable (sha256Hex tables declared configs gateway calls) in
/-- The lookup of the call finds the text. From there the call goes out with it as soon as its
row is taken, and goes nowhere else unless the database refuses it. -/
def AnswersFromChain (s : FleetState γ ι) (i : ι) (text : String) : Prop :=
  ∀ latency_ms, ∃ hit t, hit.response_text = text ∧
    fleetStep sha256Hex tables declared configs gateway calls s (.lookup i latency_ms) = some t ∧
    (∀ us u, Run (fleetStep sha256Hex tables declared configs gateway calls) t us u →
      Served hit (u.phase i)) ∧
    ∀ id now row, (∀ record ∈ s.ledger, record.id ≠ id) →
      appendRow sha256Hex (hitFacts sha256Hex (configs (gateway i)) (calls i) hit latency_ms) now
        s.rows = some row →
      ∃ us u result, Run (fleetStep sha256Hex tables declared configs gateway calls) t us u ∧
        u.phase i = .returned result ∧ result.cached = true ∧ result.response_text = text

theorem answersFromChain {s : FleetState γ ι} {i : ι} {text : String}
    (texts : TextsStand s.ledger) (one : OneText s.ledger) (phase : s.phase i = .lookingUp)
    (stands : Standing s.ledger (calls i).org_id (keyOf sha256Hex configs gateway calls i) text)
    (clean : assertResponseIsClean tables text (calls i) = none) :
    AnswersFromChain sha256Hex tables declared configs gateway calls s i text := by
  intro latency_ms
  obtain ⟨record, member, answers, carried⟩ := stands
  obtain ⟨hit, found⟩ := findCached_some texts member answers
  have same : hit.response_text = text :=
    one _ _ _ _ (findCached_stands found).standing ⟨record, member, answers, carried⟩
  -- the lookup finds a row of the key, and every row of the key says the same
  let t : FleetState γ ι := s.after (gateway i)
    ((s.view (gateway i)).setPhase i (.appendingHit hit latency_ms))
  have looked : fleetStep sha256Hex tables declared configs gateway calls s
      (.lookup i latency_ms) = some t := by
    simp only [fleetStep, GatewayAction.caller, gatewayStep, FleetState.view_phase, phase,
      lookupStep, FleetState.view_ledger, found, same, clean, Option.map_some]
    rfl
  have served : t.phase i = .appendingHit hit latency_ms := GatewayState.setPhase_self _ _ _
  refine ⟨hit, t, same, looked, fun us u run => ?_, fun id now row fresh appended => ?_⟩
  · have start : Served hit (t.phase i) := by
      rw [served]
      exact rfl
    exact (run.invariant (fun _ _ _ taken kept => fleetStep_served taken kept) start).1
  · have unused : (t.ledger.any fun record => record.id == id) = false := by
      rw [List.any_eq_false]
      intro record held
      simpa using fresh record held
    have rows : (t.view (gateway i)).rows = s.rows := rfl
    let u := (((t.view (gateway i)).commit id row (some i)).setPhase i
      (.recordedHit hit latency_ms ⟨id, row.seq, row.row_hash⟩))
    have recorded : fleetStep sha256Hex tables declared configs gateway calls t
        (.record i id now) = some (t.after (gateway i) u) := by
      simp only [fleetStep, GatewayAction.caller, gatewayStep, FleetState.view_phase, served,
        recordStep, FleetState.view_ledger, unused, rows, appended, Option.map_some,
        Bool.false_eq_true, if_false]
      rfl
    have held : (t.after (gateway i) u).phase i =
        .recordedHit hit latency_ms ⟨id, row.seq, row.row_hash⟩ :=
      GatewayState.setPhase_self _ _ _
    let v := ((t.after (gateway i) u).view (gateway i)).setPhase i
      (.returned (hitResult sha256Hex (calls i) hit latency_ms ⟨id, row.seq, row.row_hash⟩))
    have resumed : fleetStep sha256Hex tables declared configs gateway calls
        (t.after (gateway i) u) (.resume i) =
          some ((t.after (gateway i) u).after (gateway i) v) := by
      simp only [fleetStep, GatewayAction.caller, gatewayStep, FleetState.view_phase, held,
        Option.map_some]
      rfl
    exact ⟨_, _, _, .step recorded (.single resumed), GatewayState.setPhase_self _ _ _, rfl, same⟩

/-- In every interleaving a row out of the chain is free and names a standing row of its
organisation and key that the provider answered, and a call of a replaying gateway never goes
to the provider. Where each fresh answer that is filed agrees with what stands, calls of one
organisation and key return one text, and a replaying gateway answers such a call with it. That
is so when calls follow one another through gateways that all ask the chain. -/
theorem cache_and_replay_cohere {s : FleetState γ ι}
    {ts : List (Transition (FleetState γ ι) (GatewayAction ι))}
    (run : Run (fleetStep sha256Hex tables declared configs gateway calls)
      (fleetStart configs gateway) ts s) :
    (∀ record ∈ s.ledger, record.row.class = .agent_call → cacheHit record.row.output = true →
      Repeats s.ledger record.row.toLedgerRowContent) ∧
    (∀ i, (configs (gateway i)).replay = true → (s.phase i).usesProvider = false) ∧
    (OneAfterAnother ts → (∀ g, cacheEnabled (configs g) = true) →
      ∀ tr ∈ ts, Agrees sha256Hex configs gateway calls tr) ∧
    ((∀ tr ∈ ts, Agrees sha256Hex configs gateway calls tr) →
      (∀ i j result result', s.phase i = .returned result → s.phase j = .returned result' →
        (calls i).org_id = (calls j).org_id →
        keyOf sha256Hex configs gateway calls i = keyOf sha256Hex configs gateway calls j →
        result.response_text = result'.response_text) ∧
      ∀ i j result, s.phase j = .returned result →
        assertResponseIsClean tables result.response_text (calls j) = none ∧
        ((configs (gateway i)).replay = true → s.phase i = .lookingUp →
          (calls i).org_id = (calls j).org_id →
          keyOf sha256Hex configs gateway calls i = keyOf sha256Hex configs gateway calls j →
          assertResponseIsClean tables result.response_text (calls i) = none →
          AnswersFromChain sha256Hex tables declared configs gateway calls s i
            result.response_text)) := by
  have start : FleetInvariant sha256Hex tables configs gateway calls (fleetStart configs gateway) :=
    fleetStart_invariant
  have inv := (run.invariant (fun _ _ _ taken kept => fleetStep_invariant taken kept) start).1
  refine ⟨fun record member of_call hit => ?_, inv.replayed, fun follow asks => ?_,
    fun agrees => ?_⟩
  · refine (inv.copies record member of_call).resolve_left fun fresh => ?_
    simp [uncached, hit] at fresh
  · have nothing : Unanswered sha256Hex configs gateway calls []
        (fleetStart configs gateway : FleetState γ ι) := by
      intro i unanswered
      simp [fleetStart, asks, CallPhase.unanswered] at unanswered
    exact agrees_of_oneAfterAnother run nothing start follow
  · have one : OneText s.ledger := by
      refine (run.invariant_of (P := fun s => OneText s.ledger)
        (Agrees sha256Hex configs gateway calls)
        (fun tr taken agrees one => fleetStep_oneText taken agrees one) agrees ?_).1
      rintro org_id key text text' ⟨record, member, -⟩
      cases member
    refine ⟨fun i j result result' returned returned' org key => ?_,
      fun i j result returned => ?_⟩
    · have held := inv.held i
      have held' := inv.held j
      rw [returned] at held
      rw [returned'] at held'
      obtain ⟨stands', -⟩ := held'
      rw [← org, ← key] at stands'
      exact one _ _ _ _ held.1 stands'
    · have held := inv.held j
      rw [returned] at held
      obtain ⟨stands, cleared⟩ := held
      refine ⟨cleared, fun _ waits org key clean => ?_⟩
      rw [← org, ← key] at stands
      exact answersFromChain inv.texts one waits stands clean

end Fleet

/-! ### Two answers to one call -/

def CallPhase.text : CallPhase → Option String
  | .returned result => some result.response_text
  | _ => none

/-- Two gateways of one organisation, with the cache on or off. -/
def twinConfigs (cache : Bool) (second : Bool) : GatewayConfig :=
  { pinConfig (if second then "second" else "first") with cache }

def twinDigest : String → String :=
  fun _ => "7c40138d8ecf19f7f24af0a9520289dfc8e09e9e0760865d8ff8b61736105b53"

/-- One call made through each of them. -/
def twinStep (configs : Bool → GatewayConfig) :
    FleetState Bool Bool → GatewayAction Bool → Option (FleetState Bool Bool) :=
  fleetStep twinDigest ⟨id, id⟩ (fun _ => none) configs id (fun _ => pinCall)

def twinAnswer (second : Bool) (text : String) : List (GatewayAction Bool) :=
  [.spend second, .admitCall second, .providerAnswers second ⟨"m", text, 1, 6⟩ 1,
    .record second (if second then 2 else 1) "t", .resume second]

def twinTexts (s : FleetState Bool Bool) : Option String × Option String :=
  ((s.phase false).text, (s.phase true).text)

private theorem twin_in_turn :
    (perform (twinStep (twinConfigs false)) (fleetStart (twinConfigs false) id)
      (twinAnswer false "one" ++ twinAnswer true "two")).map twinTexts =
        some (some "one", some "two") := by
  decide +kernel

private theorem twin_at_once :
    (perform (twinStep (twinConfigs true)) (fleetStart (twinConfigs true) id)
      ([.lookup false 1, .lookup true 1] ++ twinAnswer false "one" ++ twinAnswer true "two")).map
        twinTexts = some (some "one", some "two") := by
  decide +kernel

/-- One call made through two gateways is answered with two texts: one after the other where
the cache is off, and at the same time where it is on. -/
theorem one_key_two_texts :
    (∀ cache, keyOf twinDigest (twinConfigs cache) id (fun _ => pinCall) false =
      keyOf twinDigest (twinConfigs cache) id (fun _ => pinCall) true) ∧
    (∃ s ts, Run (twinStep (twinConfigs false)) (fleetStart (twinConfigs false) id) ts s ∧
      OneAfterAnother ts ∧ twinTexts s = (some "one", some "two")) ∧
    ∃ s ts, Run (twinStep (twinConfigs true)) (fleetStart (twinConfigs true) id) ts s ∧
      twinTexts s = (some "one", some "two") := by
  refine ⟨fun _ => rfl, ?_, ?_⟩
  · obtain ⟨s, performed, texts⟩ := Option.map_eq_some_iff.mp twin_in_turn
    refine ⟨s, _, run_of_perform _ _ _ _ performed, ?_, texts⟩
    have acting : callers (transitions (twinStep (twinConfigs false))
        (fleetStart (twinConfigs false) id)
        (twinAnswer false "one" ++ twinAnswer true "two")) =
          [false, false, false, false, false, true, true, true, true, true] := by
      have acts := congrArg (List.filterMap GatewayAction.caller) (acts_of_perform performed)
      rwa [List.filterMap_map] at acts
    rw [OneAfterAnother, acting]
    decide
  · obtain ⟨s, performed, texts⟩ := Option.map_eq_some_iff.mp twin_at_once
    exact ⟨s, _, run_of_perform _ _ _ _ performed, texts⟩

/-- The second gateway replays what the first was answered. -/
def replayConfigs (second : Bool) : GatewayConfig :=
  { twinConfigs true second with replay := second }

def CallPhase.isLookingUp : CallPhase → Bool
  | .lookingUp => true
  | _ => false

private theorem replayed_once :
    (perform (twinStep replayConfigs) (fleetStart replayConfigs id)
      (.lookup false 1 :: twinAnswer false "one")).map (fun s =>
        ((s.phase false).text, (s.phase true).isLookingUp)) = some (some "one", true) := by
  decide +kernel

theorem replay_answers_one_call :
    ∃ s ts, Run (twinStep replayConfigs) (fleetStart replayConfigs id) ts s ∧
      AnswersFromChain twinDigest ⟨id, id⟩ (fun _ => none) replayConfigs id (fun _ => pinCall) s
        true "one" := by
  obtain ⟨s, performed, outcome⟩ := Option.map_eq_some_iff.mp replayed_once
  obtain ⟨text, waits⟩ := Prod.mk.inj outcome
  have run := run_of_perform _ _ _ _ performed
  obtain ⟨-, -, agree, cohere⟩ := cache_and_replay_cohere run
  have follow : OneAfterAnother (transitions (twinStep replayConfigs) (fleetStart replayConfigs id)
      (.lookup false 1 :: twinAnswer false "one")) := by
    have acting := congrArg (List.filterMap GatewayAction.caller) (acts_of_perform performed)
    rw [List.filterMap_map] at acting
    have listed : callers (transitions (twinStep replayConfigs) (fleetStart replayConfigs id)
        (.lookup false 1 :: twinAnswer false "one")) = List.replicate 6 false := acting
    rw [OneAfterAnother, listed]
    decide
  have waiting : s.phase true = .lookingUp := by
    cases phase : s.phase true with
    | lookingUp => rfl
    | _ =>
      rw [phase] at waits
      cases waits
  cases phase : s.phase false with
  | returned result =>
    rw [phase, CallPhase.text, Option.some.injEq] at text
    obtain ⟨clean, replays⟩ := (cohere (agree follow (by decide))).2 true false result phase
    refine ⟨s, _, run, ?_⟩
    rw [← text]
    exact replays rfl waiting rfl rfl clean
  | _ =>
    rw [phase] at text
    cases text

end LedgerDesk.Gateway
