import LedgerDesk.Foundation.Checks
import LedgerDesk.Ledger.Store

/-!
# The payloads of a promotion attempt

The trigger checks that the keys of a payload are present; what their values may be is closed
here, and both payloads of an attempt are checked before either row is written.
-/
namespace LedgerDesk.Ledger

open Foundation LedgerDesk.Agents

/-! ### The keys and the closed alphabets -/

def promotionAttemptRequiredKeys : List String :=
  ["attempt_id", "candidate_prompt_version_id", "incumbent_prompt_version_id", "conjuncts",
    "failing_conjunct", "power", "outcome", "interpretation"]

def startRequiredKeys : List String := ["attempt_id", "started_at", "budget_reserved", "code_sha"]

inductive ConjunctName where
  | paired_significant_at_alpha
  | delta_positive
  | battery_in_force_green
  | query_index_within_cmax
  deriving DecidableEq, Repr

def ConjunctName.text : ConjunctName → String
  | .paired_significant_at_alpha => "paired_significant_at_alpha"
  | .delta_positive => "delta_positive"
  | .battery_in_force_green => "battery_in_force_green"
  | .query_index_within_cmax => "query_index_within_cmax"

/-- In the order the specification publishes them. -/
def conjunctNames : List ConjunctName :=
  [.paired_significant_at_alpha, .delta_positive, .battery_in_force_green,
    .query_index_within_cmax]

def conjunctVerdicts : List String := ["PASS", "FAIL", "UNEVALUABLE"]

def failingConjuncts : List String :=
  conjunctNames.map ConjunctName.text ++ ["precondition_underpowered", "aborted_before_evaluation"]

def outcomes : List String := ["PROMOTED", "REJECTED", "ABORTED"]

def interpretations : List String := ["UNDERPOWERED", "INFORMATIVE-NULL", "POWERED-CONCLUSIVE"]

def powerKeys : List String := ["delta", "ci_low", "ci_high", "ci_unit", "mde_n", "mdi"]

def ciUnits : List String := ["clan", "item"]

def powerQuantities : List String := ["delta", "ci_low", "ci_high", "mde_n", "mdi"]

def conjunctReasonMaxBytes : Nat := 240

inductive EvidenceKind where
  | split
  | prompt_version
  | battery
  deriving DecidableEq, Repr

def EvidenceKind.text : EvidenceKind → String
  | .split => "split"
  | .prompt_version => "prompt_version"
  | .battery => "battery"

/-- What a `PASS` has to be accompanied by. -/
def conjunctEvidenceKind : ConjunctName → EvidenceKind
  | .paired_significant_at_alpha => .split
  | .delta_positive => .prompt_version
  | .battery_in_force_green => .battery
  | .query_index_within_cmax => .split

def noCandidateMarker : String := "no candidate generation has been proposed"

/-! ### The refusals -/

/-- `E_CONFIG_INVALID` with its message, and the key its detail names. -/
structure Refusal where
  message : String
  key : String
  deriving DecidableEq, Repr

abbrev Payload := List (String × Json)

/-- What `String.prototype.trim` takes off. -/
def isJsSpace (c : Char) : Bool :=
  let n := c.toNat
  (9 ≤ n && n ≤ 13) || n == 0x20 || n == 0xA0 || n == 0x1680 || (0x2000 ≤ n && n ≤ 0x200A) ||
    n == 0x2028 || n == 0x2029 || n == 0x202F || n == 0x205F || n == 0x3000 || n == 0xFEFF

/-- `value.trim() === ''`. -/
def isBlank (value : String) : Bool := value.toList.all isJsSpace

def isHexDigit (c : Char) : Bool := c.isDigit || ('a' ≤ c && c ≤ 'f')

def isHexDigitAnyCase (c : Char) : Bool := isHexDigit c || ('A' ≤ c && c ≤ 'F')

/-- `/^[0-9a-f]{40}$/`. -/
def isHex40 (value : String) : Bool := value.toList.length == 40 && value.toList.all isHexDigit

/-- `/^[0-9a-f]{8}-[0-9a-f]{4}-[0-9a-f]{4}-[0-9a-f]{4}-[0-9a-f]{12}$/i`. -/
def isUuid (value : String) : Bool :=
  let groups := value.toList.splitOn '-'
  groups.map List.length == [8, 4, 4, 4, 12] && groups.all fun g => g.all isHexDigitAnyCase

/-- A key that is absent, or that carries null, names nothing. -/
def namedMember (payload : Payload) (key place : String) : Except Refusal Json :=
  match payload.lookup key with
  | none | some .null =>
    .error ⟨place ++ ": " ++ key ++ " must be named, and a key carrying null names nothing", key⟩
  | some value => .ok value

def requireObject (value : Option Json) (key place : String) : Except Refusal Payload :=
  match value with
  | some (.object members) => .ok members
  | _ => .error ⟨place ++ ": " ++ key ++ " must be a JSON object", key⟩

def requireNamedString (payload : Payload) (key place : String) : Except Refusal String :=
  match namedMember payload key place with
  | .error refusal => .error refusal
  | .ok (.text value) =>
    if isBlank value then .error ⟨place ++ ": " ++ key ++ " must be a non-empty string", key⟩
    else .ok value
  | .ok _ => .error ⟨place ++ ": " ++ key ++ " must be a non-empty string", key⟩

def requireMember (payload : Payload) (key : String) (alphabet : List String) (place : String) :
    Except Refusal String :=
  match namedMember payload key place with
  | .error refusal => .error refusal
  | .ok (.text value) =>
    if alphabet.contains value then .ok value
    else .error ⟨place ++ ": " ++ key ++ " is outside its closed alphabet", key⟩
  | .ok _ => .error ⟨place ++ ": " ++ key ++ " is outside its closed alphabet", key⟩

/-! ### The start -/

def isNonNegativeNumber : Option Json → Bool
  | some (.number (.integer value)) => decide (0 ≤ value)
  | some (.number (.decimal negative _ _)) => !negative
  | _ => false

def validateStartPayload (payload : Payload) (ts : String) : Except Refusal Unit := do
  checkEach (fun key => (namedMember payload key "start").map fun _ => ()) startRequiredKeys
  let attemptId ← requireNamedString payload "attempt_id" "start"
  ensure (isUuid attemptId) ⟨"start: attempt_id must be a uuid", "attempt_id"⟩
  let startedAt ← requireNamedString payload "started_at" "start"
  ensure (startedAt == ts) ⟨"start: started_at must be the instant the row carries", "started_at"⟩
  let codeSha ← requireNamedString payload "code_sha" "start"
  ensure (isHex40 codeSha) ⟨"start: code_sha must be forty hexadecimal characters", "code_sha"⟩
  ensure (isNonNegativeNumber (payload.lookup "budget_reserved"))
    ⟨"start: budget_reserved must be a number that is not negative", "budget_reserved"⟩

/-! ### The terminal -/

def terminalPlace : String := "promotion_attempt"

/-- `failing_conjunct` is the one key that may carry null. -/
def requirePresent (payload : Payload) (key : String) : Except Refusal Unit :=
  match payload.lookup key with
  | none => .error ⟨terminalPlace ++ ": " ++ key ++ " must be named", key⟩
  | some value =>
    ensure (!value.isNull || key == "failing_conjunct")
      ⟨terminalPlace ++ ": " ++ key ++ " must be named, and a key carrying null names nothing", key⟩

/-- Every verdict but a `PASS` carries its reason, and a `PASS` names its evidence. -/
def checkConjunct (conjuncts : Payload) (evidence : ConjunctName → Option EvidenceKind)
    (name : ConjunctName) : Except Refusal Unit := do
  let path := "conjuncts." ++ name.text
  let entry ← requireObject (conjuncts.lookup name.text) path terminalPlace
  let verdict ← requireMember entry "verdict" conjunctVerdicts (terminalPlace ++ "." ++ path)
  if verdict != "PASS" then
    match entry.lookup "reason" with
    | some (.text reason) =>
      ensure (!isBlank reason)
        ⟨terminalPlace ++ ": " ++ path ++ " is " ++ verdict ++ " and carries no reason",
          path ++ ".reason"⟩
      ensure (decide (reason.utf8ByteSize ≤ conjunctReasonMaxBytes))
        ⟨terminalPlace ++ ": " ++ path ++ " carries a reason above the declared cap",
          path ++ ".reason"⟩
    | _ =>
      .error ⟨terminalPlace ++ ": " ++ path ++ " is " ++ verdict ++ " and carries no reason",
        path ++ ".reason"⟩
  else
    let expected := conjunctEvidenceKind name
    ensure (evidence name == some expected)
      ⟨terminalPlace ++ ": " ++ path ++ " is PASS and names no " ++ expected.text ++ " evidence",
        path⟩

def checkConjuncts (conjuncts : Payload) (evidence : ConjunctName → Option EvidenceKind) :
    Except Refusal Unit := do
  ensure (conjuncts.map Prod.fst == conjunctNames.map ConjunctName.text)
    ⟨terminalPlace ++ ": conjuncts must carry exactly the four published names, in order",
      "conjuncts"⟩
  checkEach (checkConjunct conjuncts evidence) conjunctNames

/-- A quantity is null while no scored run is named, and a number under a named one. -/
def checkQuantity (power : Payload) (scored_run : Option String) (key : String) :
    Except Refusal Unit :=
  match scored_run, power.lookup key with
  | none, some .null => .ok ()
  | none, _ =>
    .error ⟨terminalPlace ++ ": power." ++ key ++ " carries a value while no scored run is named",
      "power." ++ key⟩
  | some _, some (.number _) => .ok ()
  | some _, _ =>
    .error ⟨terminalPlace ++ ": power." ++ key ++
      " must be a finite number under a named scored run", "power." ++ key⟩

def checkPower (power : Payload) (scored_run : Option String) : Except Refusal Unit := do
  let present := power.map Prod.fst
  ensure (present.length == powerKeys.length && powerKeys.all present.contains)
    ⟨terminalPlace ++ ": power must carry exactly the six keys of the 2026-08-21 supersession",
      "power"⟩
  let _ ← requireMember power "ci_unit" ciUnits (terminalPlace ++ ".power")
  checkEach (checkQuantity power scored_run) powerQuantities

/-- The verdict of a conjunct, if it has one. -/
def verdictOf (conjuncts : Payload) (name : ConjunctName) : Option Json :=
  (conjuncts.lookup name.text).bind fun entry => entry.member "verdict"

def hasVerdict (conjuncts : Payload) (verdict : String) (name : ConjunctName) : Bool :=
  match verdictOf conjuncts name with
  | some (.text value) => value == verdict
  | _ => false

def declaresNoCandidate (conjuncts : Payload) : Bool :=
  match (conjuncts.lookup "delta_positive").bind fun entry => entry.member "reason" with
  | some (.text reason) => decide (noCandidateMarker.toList <:+: reason.toList)
  | _ => false

/-- The conjunct that is said to have failed is a conjunct of this name. -/
def failingNames (failing : Json) (name : String) : Bool :=
  match failing with
  | .text value => value == name
  | _ => false

/-- The row against itself. -/
def checkCoherent (payload conjuncts : Payload) (failing : Json)
    (outcome interpretation candidate incumbent : String) : Except Refusal Unit := do
  let aborts := (payload.lookup "abort_reason").any fun reason => !reason.isNull
  ensure (outcome != "PROMOTED" || conjunctNames.all (hasVerdict conjuncts "PASS"))
    ⟨"promotion_attempt: outcome is PROMOTED while a conjunct did not pass", "outcome"⟩
  ensure (!failing.isNull || outcome == "PROMOTED")
    ⟨"promotion_attempt: failing_conjunct is null and the outcome is not PROMOTED",
      "failing_conjunct"⟩
  ensure (failing.isNull || outcome != "PROMOTED")
    ⟨"promotion_attempt: outcome is PROMOTED and a failing conjunct is still named",
      "failing_conjunct"⟩
  ensure (!conjunctNames.any fun name =>
      failingNames failing name.text && hasVerdict conjuncts "PASS" name)
    ⟨"promotion_attempt: failing_conjunct names a conjunct whose verdict is PASS",
      "failing_conjunct"⟩
  ensure (!failingNames failing "precondition_underpowered" || interpretation == "UNDERPOWERED")
    ⟨"promotion_attempt: precondition_underpowered with an interpretation other than UNDERPOWERED",
      "interpretation"⟩
  ensure (!failingNames failing "aborted_before_evaluation" || outcome == "ABORTED")
    ⟨"promotion_attempt: aborted_before_evaluation with an outcome other than ABORTED", "outcome"⟩
  ensure (!failingNames failing "aborted_before_evaluation" || aborts)
    ⟨"promotion_attempt: an aborted attempt must name its abort_reason", "abort_reason"⟩
  ensure (outcome != "ABORTED" || aborts)
    ⟨"promotion_attempt: an aborted attempt must name its abort_reason", "abort_reason"⟩
  ensure (!conjunctNames.all (hasVerdict conjuncts "UNEVALUABLE") ||
      failingNames failing "precondition_underpowered" ||
      failingNames failing "aborted_before_evaluation")
    ⟨"promotion_attempt: every conjunct is UNEVALUABLE, so failing_conjunct can only be " ++
      "precondition_underpowered or aborted_before_evaluation", "failing_conjunct"⟩
  if candidate == incumbent then
    ensure (hasVerdict conjuncts "UNEVALUABLE" .delta_positive && declaresNoCandidate conjuncts)
      ⟨"promotion_attempt: candidate_prompt_version_id equals incumbent_prompt_version_id " ++
        "without delta_positive declaring that no candidate exists", "candidate_prompt_version_id"⟩
  else
    ensure (!declaresNoCandidate conjuncts)
      ⟨"promotion_attempt: delta_positive declares that no candidate exists while the two " ++
        "identifiers differ", "candidate_prompt_version_id"⟩

def validatePromotionAttemptPayload (payload : Payload) (scored_run : Option String)
    (evidence : ConjunctName → Option EvidenceKind) : Except Refusal Unit := do
  checkEach (requirePresent payload) promotionAttemptRequiredKeys
  let attemptId ← requireNamedString payload "attempt_id" terminalPlace
  ensure (isUuid attemptId) ⟨"promotion_attempt: attempt_id must be a uuid", "attempt_id"⟩
  let candidate ← requireNamedString payload "candidate_prompt_version_id" terminalPlace
  let incumbent ← requireNamedString payload "incumbent_prompt_version_id" terminalPlace
  let conjuncts ← requireObject (payload.lookup "conjuncts") "conjuncts" terminalPlace
  checkConjuncts conjuncts evidence
  let power ← requireObject (payload.lookup "power") "power" terminalPlace
  checkPower power scored_run
  let outcome ← requireMember payload "outcome" outcomes terminalPlace
  let interpretation ← requireMember payload "interpretation" interpretations terminalPlace
  let failing := (payload.lookup "failing_conjunct").getD .null
  if !failing.isNull then
    let _ ← requireMember payload "failing_conjunct" failingConjuncts terminalPlace
  checkCoherent payload conjuncts failing outcome interpretation candidate incumbent

/-! ### What a checked payload names -/

theorem namedMember_eq_ok {payload : Payload} {key place : String} {value : Json}
    (named : namedMember payload key place = .ok value) :
    payload.lookup key = some value ∧ value.isNull = false := by
  rw [namedMember] at named
  split at named
  · cases named
  · cases named
  · next not_null found =>
    cases named
    refine ⟨found, ?_⟩
    cases value <;> first | rfl | exact absurd rfl not_null

theorem namesKey_of_named {payload : Payload} {key place : String} {value : Json}
    (named : namedMember payload key place = .ok value) :
    namesKey (.object payload) key = true := by
  obtain ⟨found, not_null⟩ := namedMember_eq_ok named
  simp [namesKey, Json.member, found, not_null]

theorem requireNamedString_eq_ok {payload : Payload} {key place value : String}
    (named : requireNamedString payload key place = .ok value) :
    payload.lookup key = some (.text value) := by
  rw [requireNamedString] at named
  split at named
  · cases named
  · next text found =>
    split at named
    · cases named
    · cases named
      exact (namedMember_eq_ok found).1
  · cases named

theorem requireMember_eq_ok {payload : Payload} {key place value : String}
    {alphabet : List String} (named : requireMember payload key alphabet place = .ok value) :
    payload.lookup key = some (.text value) := by
  rw [requireMember] at named
  split at named
  · cases named
  · next text found =>
    split at named
    · cases named
      exact (namedMember_eq_ok found).1
    · cases named
  · cases named

/-- A checked start names its keys, and its attempt by a text. -/
theorem validateStartPayload_eq_ok {payload : Payload} {ts : String}
    (valid : validateStartPayload payload ts = .ok ()) :
    (∀ key ∈ startRequiredKeys, namesKey (.object payload) key = true) ∧
      ∃ attempt_id, payload.lookup "attempt_id" = some (.text attempt_id) := by
  simp only [validateStartPayload, except_bind_eq_ok] at valid
  obtain ⟨_, present, attempt_id, named, -⟩ := valid
  refine ⟨fun key member => ?_, attempt_id, requireNamedString_eq_ok named⟩
  have passed := checkEach_eq_ok.mp present key member
  cases found : namedMember payload key "start" with
  | error refusal =>
    rw [found] at passed
    cases passed
  | ok value => exact namesKey_of_named found

theorem requirePresent_eq_ok {payload : Payload} {key : String}
    (present : requirePresent payload key = .ok ()) :
    ∃ value, payload.lookup key = some value ∧
      (key ≠ "failing_conjunct" → value.isNull = false) := by
  rw [requirePresent] at present
  split at present
  · cases present
  · next value found =>
    refine ⟨value, found, fun other => ?_⟩
    rw [ensure_eq_ok, Bool.or_eq_true, beq_iff_eq] at present
    simpa [other] using present

/-- What the trigger asks of a terminal, a coherent payload has. -/
theorem checkCoherent_eq_ok {payload conjuncts : Payload} {failing : Json}
    {outcome interpretation candidate incumbent : String}
    (coherent : checkCoherent payload conjuncts failing outcome interpretation candidate incumbent =
      .ok ()) :
    (failing.isNull = true → outcome = "PROMOTED") ∧
      (outcome = "ABORTED" →
        (payload.lookup "abort_reason").any (fun reason => !reason.isNull) = true) := by
  simp only [checkCoherent, except_bind_eq_ok, ensure_eq_ok] at coherent
  obtain ⟨_, -, _, promoted, _, -, _, -, _, -, _, -, _, -, _, aborted, -⟩ := coherent
  constructor
  · intro null
    simpa [null] using promoted
  · intro aborts
    simpa [aborts] using aborted

/-- A checked terminal is complete as the trigger has it, and names its attempt by a text. -/
theorem validatePromotionAttemptPayload_eq_ok {payload : Payload} {scored_run : Option String}
    {evidence : ConjunctName → Option EvidenceKind}
    (valid : validatePromotionAttemptPayload payload scored_run evidence = .ok ()) :
    (∀ key ∈ promotionAttemptRequiredKeys, key ≠ "failing_conjunct" →
        namesKey (.object payload) key = true) ∧
      promotionIncomplete (.object payload) = false ∧
      ∃ attempt_id, payload.lookup "attempt_id" = some (.text attempt_id) := by
  simp only [validatePromotionAttemptPayload, except_bind_eq_ok] at valid
  obtain ⟨_, present, attempt_id, named, _, -, candidate, -, incumbent, -, conjuncts, -, _, -,
    power, -, _, -, outcome, outcome_named, interpretation, -, valid⟩ := valid
  have coherent : checkCoherent payload conjuncts
      ((payload.lookup "failing_conjunct").getD .null) outcome interpretation candidate incumbent =
        .ok () := by
    split at valid
    · obtain ⟨_, -, coherent⟩ := except_bind_eq_ok.mp valid
      exact coherent
    · exact valid
  have named_text := requireMember_eq_ok outcome_named
  have presents := fun key member => requirePresent_eq_ok (checkEach_eq_ok.mp present key member)
  obtain ⟨promoted, aborted⟩ := checkCoherent_eq_ok coherent
  refine ⟨fun key member other => ?_, ?_, attempt_id, requireNamedString_eq_ok named⟩
  · obtain ⟨value, found, not_null⟩ := presents key member
    simp [namesKey, Json.member, found, not_null other]
  · obtain ⟨failing, failing_found, -⟩ := presents "failing_conjunct" (by decide)
    rw [failing_found, Option.getD_some] at promoted
    have outcome_text : (Json.object payload).memberText "outcome" = some outcome := by
      simp only [Json.memberText, Json.member, named_text]
    have not_none : outcome = "ABORTED" → payload.lookup "abort_reason" ≠ none := by
      intro aborts none
      have named := aborted aborts
      rw [none] at named
      cases named
    rw [promotionIncomplete, outcome_text]
    simp only [Json.member, failing_found, Option.isNone_some, Option.any_some, Bool.false_or,
      Bool.or_eq_false_iff, Bool.and_eq_false_iff, bne_eq_false_iff_eq, beq_eq_false_iff_ne,
      Option.some.injEq, ne_eq, Option.isNone_eq_false_iff, Option.isSome_iff_ne_none]
    constructor
    · by_cases null : failing.isNull = true
      · exact .inr (promoted null)
      · exact .inl (by simpa using null)
    · by_cases aborts : outcome = "ABORTED"
      · exact .inr (not_none aborts)
      · exact .inl aborts

end LedgerDesk.Ledger
