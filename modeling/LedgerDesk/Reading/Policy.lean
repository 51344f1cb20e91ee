import LedgerDesk.Agents.Canonical

/-!
# The reading policy

What a material may show in a context is decided tier by tier: the first tier with an applicable row
decides, and one that does not read as a policy decides against. A policy is any JSON value. An
instant is `none` where it is not a finite number.
-/
namespace LedgerDesk.Reading

open Agents (Json JsNumber)

/-! ### JSON values as the code reads them -/

/-- The number, of which only the order matters here. -/
def numberValue : JsNumber → ℚ
  | .integer value => value
  | .decimal negative digits point =>
    let magnitude := digits * (10 : ℚ) ^ (point - (Nat.toDigits 10 digits).length)
    if negative then -magnitude else magnitude

/-- A property of what is not null; `none` is undefined. -/
def field (value : Json) (key : String) : Option Json := value.member key

def isText : Json → Bool
  | .text _ => true
  | _ => false

def text? : Json → Option String
  | .text value => some value
  | _ => none

def items? : Json → Option (List Json)
  | .array items => some items
  | _ => none

/-- `Number.isFinite`, with the number. -/
def finite? : Json → Option ℚ
  | .number value => some (numberValue value)
  | _ => none

/-- `value && typeof value === 'object'`. -/
def isObject : Json → Bool
  | .array _ => true
  | .object _ => true
  | _ => false

/-- `Boolean(value)`. -/
def truthy : Option Json → Bool
  | none => false
  | some .null => false
  | some (.boolean value) => value
  | some (.number value) => value ≠ .integer 0
  | some (.text value) => value ≠ ""
  | some (.array _) => true
  | some (.object _) => true

/-! ### Contexts and grants -/

inductive ReadingAction where
  | list
  | exact
  deriving DecidableEq, Repr

def ReadingAction.text : ReadingAction → String
  | .list => "list"
  | .exact => "exact"

structure ReadingContext where
  deploymentId : String
  scopeId : String
  subjectId : String
  surface : String
  purpose : String
  generation : String
  deriving DecidableEq, Repr

/-- `CONTEXT_KEYS`, each with its value in the context. -/
def ReadingContext.keys (context : ReadingContext) : List (String × String) :=
  [("deploymentId", context.deploymentId), ("scopeId", context.scopeId),
    ("subjectId", context.subjectId), ("surface", context.surface), ("purpose", context.purpose),
    ("generation", context.generation)]

/-- `LEVELS`, in order. -/
inductive Disclosure where
  | NONE
  | EXISTENCE
  | REFERENCE
  | EXCERPT
  | CONTENT
  deriving DecidableEq, Repr

def Disclosure.level : Disclosure → Nat
  | .NONE => 0
  | .EXISTENCE => 1
  | .REFERENCE => 2
  | .EXCERPT => 3
  | .CONTENT => 4

def disclosure? : Json → Option Disclosure
  | .text "NONE" => some .NONE
  | .text "EXISTENCE" => some .EXISTENCE
  | .text "REFERENCE" => some .REFERENCE
  | .text "EXCERPT" => some .EXCERPT
  | .text "CONTENT" => some .CONTENT
  | _ => none

inductive MetadataKey where
  | title
  | locator
  | editorial_state
  | classification
  | reading_conditions
  deriving DecidableEq, Repr

def MetadataKey.text : MetadataKey → String
  | .title => "title"
  | .locator => "locator"
  | .editorial_state => "editorial_state"
  | .classification => "classification"
  | .reading_conditions => "reading_conditions"

/-- `METADATA_KEYS`. -/
def metadataKeys : List MetadataKey :=
  [.title, .locator, .editorial_state, .classification, .reading_conditions]

def metadataKey? (value : Json) : Option MetadataKey :=
  metadataKeys.find? fun key => text? value = some key.text

/-- A grant, but for its binding, which is the context and the action. -/
structure Grant where
  maximum : Disclosure
  metadata : List MetadataKey
  fragmentIds : List String
  fragmentLocatorIds : List String
  validFrom : ℚ
  validUntil : Option ℚ
  deriving DecidableEq

inductive PolicyCause where
  | ALLOWED
  | DENIED
  | INDETERMINATE
  | EXPIRED
  | NOT_YET_VALID
  | CONTEXT_UNAVAILABLE
  | PROFILE_INVALID
  deriving DecidableEq, Repr

structure PolicyDecision where
  cause : PolicyCause
  grant : Option Grant
  deriving DecidableEq

def refused (cause : PolicyCause) : PolicyDecision := ⟨cause, none⟩

section Evaluation

variable (context : ReadingContext) (action : ReadingAction)

def bindingMatches (binding : Json) : Bool :=
  (field binding "action").bind text? = some action.text &&
    context.keys.all fun key => (field binding key.1).bind text? = some key.2

/-- The row of a tier reads as one. -/
def rowShaped (row : Json) : Bool :=
  isObject row &&
    match field row "binding" with
    | none => false
    | some binding =>
      isObject binding && (context.keys.all fun key => (field binding key.1).any isText) &&
        ((field binding "action").bind text?).any (· ∈ ["list", "exact"])

/-- A grant in order: it is of the context, and its window is not empty. -/
def readGrant (grant : Json) : Option Grant := do
  let binding ← field grant "binding"
  guard (bindingMatches context action binding)
  let maximum ← (field grant "maximum").bind disclosure?
  let metadata ← (← (field grant "metadata").bind items?).mapM metadataKey?
  let fragmentIds ← (← (field grant "fragmentIds").bind items?).mapM text?
  let fragmentLocatorIds ← (← (field grant "fragmentLocatorIds").bind items?).mapM text?
  let validFrom ← (field grant "validFrom").bind finite?
  let validUntil ← match field grant "validUntil" with
    | some .null => some none
    | other => (other.bind finite?).map some
  guard (validUntil.all fun ending => validFrom < ending)
  return { maximum, metadata, fragmentIds, fragmentLocatorIds, validFrom, validUntil }

def decideGrant (now : ℚ) (grant : Grant) : PolicyDecision :=
  if now < grant.validFrom then refused .NOT_YET_VALID
  else if grant.validUntil.any fun ending => ending ≤ now then refused .EXPIRED
  else if grant.maximum = .NONE then refused .DENIED
  else ⟨.ALLOWED, some grant⟩

def decideRow (now : ℚ) (row : Json) : PolicyDecision :=
  match (field row "evaluation").bind text? with
  | some "DENY" => refused .DENIED
  | some "GRANT" =>
    match (field row "grant").bind (readGrant context action) with
    | none => refused .INDETERMINATE
    | some grant => decideGrant now grant
  | _ => refused .INDETERMINATE

def applicable (rows : List Json) : List Json :=
  rows.filter fun row => (field row "binding").any (bindingMatches context action)

def evaluateTiers (now : ℚ) : List (Option Json) → PolicyDecision
  | [] => refused .INDETERMINATE
  | tier :: inherited =>
    match tier.bind items? with
    | none => refused .INDETERMINATE
    | some rows =>
      if !rows.all (rowShaped context) then refused .INDETERMINATE
      else match applicable context action rows with
        | [] => evaluateTiers now inherited
        | [row] => decideRow context action now row
        | _ => refused .INDETERMINATE

def evaluatePolicy (hierarchy : Json) (now : Option ℚ) : PolicyDecision :=
  match now with
  | none => refused .INDETERMINATE
  | some now =>
    if !isObject hierarchy then refused .INDETERMINATE
    else evaluateTiers context action now
      [field hierarchy "unit", field hierarchy "inherited", field hierarchy "general"]

end Evaluation

/-! ### Allowed for as long as the grant lasts -/

variable {context : ReadingContext} {action : ReadingAction}

theorem decideGrant_allowed {now : ℚ} {grant found : Grant} :
    decideGrant now grant = ⟨.ALLOWED, some found⟩ ↔
      grant = found ∧ grant.maximum ≠ .NONE ∧ grant.validFrom ≤ now ∧
        ∀ ending ∈ grant.validUntil, now < ending := by
  rw [decideGrant]
  split
  · next early =>
    simp only [refused, PolicyDecision.mk.injEq, reduceCtorEq, false_and, false_iff, not_and]
    intro _ _ started
    exact absurd early (not_lt.mpr started)
  · next started =>
    split
    · next late =>
      obtain ⟨ending, until_then, ended⟩ := (Option.any_eq_true _ _).mp late
      simp only [refused, PolicyDecision.mk.injEq, reduceCtorEq, false_and, false_iff, not_and,
        not_forall]
      intro _ _ _
      exact ⟨ending, until_then, not_lt.mpr (of_decide_eq_true ended)⟩
    · next lasting =>
      have lasts : ∀ ending ∈ grant.validUntil, now < ending := by
        intro ending until_then
        by_contra ended
        exact lasting ((Option.any_eq_true _ _).mpr
          ⟨ending, until_then, decide_eq_true (not_lt.mp ended)⟩)
      split
      · next nothing => simp [refused, nothing]
      · next something =>
        simp only [PolicyDecision.mk.injEq, true_and, Option.some.injEq]
        exact ⟨fun same => ⟨same, something, not_lt.mp started, lasts⟩, fun h => h.1⟩

theorem decideRow_allowed {now : ℚ} {row : Json} {found : Grant} :
    decideRow context action now row = ⟨.ALLOWED, some found⟩ ↔
      (field row "evaluation").bind text? = some "GRANT" ∧
        (field row "grant").bind (readGrant context action) = some found ∧
        decideGrant now found = ⟨.ALLOWED, some found⟩ := by
  rw [decideRow]
  split
  · next denied => simp [refused, denied]
  · next granted =>
    split
    · next unread => simp [refused, unread]
    · next grant read =>
      rw [granted, read]
      constructor
      · intro allowed
        obtain ⟨same, -⟩ := decideGrant_allowed.mp allowed
        exact ⟨rfl, by rw [same], same ▸ allowed⟩
      · rintro ⟨-, same, allowed⟩
        rw [Option.some.inj same]
        exact allowed
  · next _ other =>
    constructor
    · nofun
    · rintro ⟨granted, -⟩
      exact absurd granted other

theorem evaluateTiers_later {now later : ℚ} {found : Grant} (after : now ≤ later)
    (lasting : ∀ ending ∈ found.validUntil, later < ending) {tiers : List (Option Json)}
    (allowed : evaluateTiers context action now tiers = ⟨.ALLOWED, some found⟩) :
    evaluateTiers context action later tiers = ⟨.ALLOWED, some found⟩ := by
  induction tiers with
  | nil => cases allowed
  | cons tier inherited ih =>
    rw [evaluateTiers] at allowed ⊢
    split at allowed
    · cases allowed
    · split at allowed
      · cases allowed
      · next shaped =>
        rw [if_neg shaped]
        split at allowed
        · next none_applies => exact ih allowed
        · next row decides =>
          obtain ⟨granted, read, in_force⟩ := decideRow_allowed.mp allowed
          obtain ⟨-, something, started, -⟩ := decideGrant_allowed.mp in_force
          refine decideRow_allowed.mpr ⟨granted, read, ?_⟩
          exact decideGrant_allowed.mpr ⟨rfl, something, started.trans after, lasting⟩
        · cases allowed

/-- What a policy allows, it allows for as long as the grant lasts. -/
theorem evaluatePolicy_later {now later : ℚ} {found : Grant} {hierarchy : Json} (after : now ≤ later)
    (lasting : ∀ ending ∈ found.validUntil, later < ending)
    (allowed : evaluatePolicy context action hierarchy (some now) = ⟨.ALLOWED, some found⟩) :
    evaluatePolicy context action hierarchy (some later) = ⟨.ALLOWED, some found⟩ := by
  simp only [evaluatePolicy] at allowed ⊢
  split at allowed
  · cases allowed
  · next object =>
    rw [if_neg object]
    exact evaluateTiers_later after lasting allowed

/-- Only what allows carries a grant. -/
theorem evaluateTiers_grant {now : ℚ} {found : Grant} {cause : PolicyCause}
    {tiers : List (Option Json)}
    (decided : evaluateTiers context action now tiers = ⟨cause, some found⟩) : cause = .ALLOWED := by
  induction tiers with
  | nil => cases decided
  | cons tier inherited ih =>
    rw [evaluateTiers] at decided
    split at decided
    · cases decided
    · split at decided
      · cases decided
      · split at decided
        · exact ih decided
        · rw [decideRow] at decided
          split at decided
          · cases decided
          · split at decided
            · cases decided
            · rw [decideGrant] at decided
              split_ifs at decided
              all_goals cases decided
              rfl
          · cases decided
        · cases decided

theorem evaluatePolicy_grant {now : Option ℚ} {found : Grant} {hierarchy : Json}
    (decided : (evaluatePolicy context action hierarchy now).grant = some found) :
    evaluatePolicy context action hierarchy now = ⟨.ALLOWED, some found⟩ := by
  cases known : evaluatePolicy context action hierarchy now with
  | mk cause grant =>
    rw [known] at decided
    subst decided
    rw [evaluatePolicy.eq_def] at known
    split at known
    · cases known
    · split at known
      · cases known
      · rw [evaluateTiers_grant known]

end LedgerDesk.Reading
