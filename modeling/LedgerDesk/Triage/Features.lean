import LedgerDesk.Agents.Fixed
import LedgerDesk.Triage.Escalation

/-!
# The feature vector of a ticket

What the rule reads, from the record of a ticket, its account and the answer of a triage. The two
scores are rounded to the scale of their columns before they are judged, so the value judged is
the value stored.
-/
namespace LedgerDesk.Triage

open Agents (toFixed numberOf toFixed_units numberOf_fixedText)
open Gateway (TextTables)
open Queue (Severity AccountTier ValueBand normalisedSeverity)

def storedScale : ℚ := 1000

def untriagedSeverity : Severity := .one

def noSlaInstant : WithTop ℚ := ⊤

/-- Half away from zero, at three decimals. -/
def quantiseStored (value : ℚ) : ℚ :=
  let magnitude : ℚ := ⌊|value| * storedScale + 1 / 2⌋ / storedScale
  if value < 0 then -magnitude else magnitude

def storedDecimals : Nat := 3

/-- `numeric(4,3)` as text. -/
def formatStored (value : ℚ) : String := toFixed storedDecimals (quantiseStored value)

/-- The priority anomalies that are about an account. -/
inductive AccountAnomaly where
  | unknownTier
  | unknownValueBand
  deriving DecidableEq, Repr

structure NormalisedAccount where
  tier : AccountTier
  valueBand : ValueBand
  anomalies : List AccountAnomaly
  deriving DecidableEq, Repr

def accountTier : String → Option AccountTier
  | "standard" => some .standard
  | "premium" => some .premium
  | _ => none

def valueBandOf : Int → Option ValueBand
  | 1 => some .one
  | 2 => some .two
  | 3 => some .three
  | 4 => some .four
  | 5 => some .five
  | _ => none

/-- An account nobody can identify is served as `standard` in the lowest band. -/
def normaliseAccount (tier : String) (valueBand : Int) : NormalisedAccount where
  tier := (accountTier tier).getD .standard
  valueBand := (valueBandOf valueBand).getD .one
  anomalies :=
    (if (accountTier tier).isSome then [] else [.unknownTier]) ++
      if (valueBandOf valueBand).isSome then [] else [.unknownValueBand]

structure TicketFacts where
  id : String
  createdAt : ℚ
  slaDueAt : Option ℚ
  language : String
  retries : Int
  deriving DecidableEq, Repr

structure AccountFacts where
  tier : String
  valueBand : Int
  deriving DecidableEq, Repr

structure TriageReading where
  category : String
  severity : Severity
  sentiment : ℚ
  confidence : ℚ
  deriving DecidableEq, Repr

structure FeatureInput where
  ticket : TicketFacts
  account : AccountFacts
  triage : Option TriageReading
  redactedBodyLength : Option Nat
  /-- The result count of a retrieval that ran. -/
  retrieval : Option Nat
  /-- The verdict on a draft that was validated. -/
  validation : Option Bool
  policyFlags : List PolicyFlag
  deriving DecidableEq, Repr

structure FeatureResult where
  features : EscalationFeatures
  stored : Option TriageReading
  anomalies : List AccountAnomaly
  deriving DecidableEq

def featuresFromTicket (input : FeatureInput) : FeatureResult :=
  let account := normaliseAccount input.account.tier input.account.valueBand
  let stored := input.triage.map fun reading =>
    { reading with
      sentiment := quantiseStored reading.sentiment
      confidence := quantiseStored reading.confidence }
  { features :=
      { id := input.ticket.id
        createdAt := input.ticket.createdAt
        slaDueAt := match input.ticket.slaDueAt with
          | some instant => instant
          | none => noSlaInstant
        tier := account.tier
        valueBand := account.valueBand
        severity := match stored with
          | some reading => reading.severity
          | none => untriagedSeverity
        sentiment := stored.map TriageReading.sentiment
        confidence := stored.map TriageReading.confidence
        retries := input.ticket.retries
        language := input.ticket.language
        redactedBodyLength := input.redactedBodyLength
        -- an absent step is not a step that found nothing
        kbResultCount := input.retrieval
        grounded := input.validation
        policyFlags := input.policyFlags }
    stored := stored
    anomalies := account.anomalies }

/-- What is judged is what is stored. -/
theorem judged_is_stored (input : FeatureInput) :
    (featuresFromTicket input).features.confidence =
        (featuresFromTicket input).stored.map TriageReading.confidence ∧
      (featuresFromTicket input).features.sentiment =
        (featuresFromTicket input).stored.map TriageReading.sentiment :=
  ⟨rfl, rfl⟩

/-- A ticket nobody has triaged escalates on nothing but its record, as long as the severity that
stands in for the missing one is below the floor of the premium clause. -/
theorem untriaged_stage {tables : TextTables} {thresholds : EscalationThresholds} {now : ℚ}
    {input : FeatureInput} {clause : String}
    (floor : normalisedSeverity untriagedSeverity < thresholds.premiumSeverity)
    (untriaged : input.triage = none) (unredacted : input.redactedBodyLength = none)
    (unretrieved : input.retrieval = none) (unvalidated : input.validation = none)
    (fired : (evaluateEscalation tables (featuresFromTicket input).features now thresholds).clause =
      some clause) :
    clauseStage clause = some .record := by
  rcases evaluateEscalation_cases tables (featuresFromTicket input).features now thresholds with
    ⟨found, member, fires, verdict⟩ | ⟨-, verdict⟩
  · rw [verdict, Option.some.injEq] at fired
    subst clause
    simp only [escalationClauses, List.mem_cons, List.not_mem_nil, or_false] at member
    rcases member with rfl | rfl | rfl | rfl | rfl | rfl | rfl | rfl
    · rfl
    · rfl
    · rfl
    · rfl
    -- the four that remain read what only a triage or a draft brings
    · simp [featuresFromTicket, effectiveConfidence, untriaged, unredacted] at fires
    · simp [featuresFromTicket, untriaged] at fires
    · simp only [featuresFromTicket, untriaged, Option.map_none, isPremiumHighSeverity,
        Bool.and_eq_true, decide_eq_true_eq] at fires
      exact absurd fires.2 (not_le.mpr floor)
    · simp [featuresFromTicket, effectiveGrounded, unretrieved, unvalidated] at fires
  · rw [verdict] at fired
    cases fired

/-! ### What is stored and what is judged -/

/-- The units of the stored value nearest to a value, further from zero of two as near. -/
def storedUnits (value : ℚ) : Int :=
  if value < 0 then -⌊|value| * storedScale + 1 / 2⌋ else ⌊|value| * storedScale + 1 / 2⌋

theorem quantiseStored_eq (value : ℚ) : quantiseStored value = storedUnits value / storedScale := by
  rw [quantiseStored, storedUnits]
  split
  · rw [Int.cast_neg, neg_div]
  · rfl

theorem storedUnits_neg (value : ℚ) : storedUnits (-value) = -storedUnits value := by
  simp only [storedUnits, abs_neg, neg_lt_zero]
  rcases lt_trichotomy value 0 with below | rfl | above
  · rw [if_neg (not_lt.mpr below.le), if_pos below, neg_neg]
  · have half : ⌊|(0 : ℚ)| * storedScale + 1 / 2⌋ = 0 := by norm_num
    rw [if_neg (lt_irrefl _), half, neg_zero]
  · rw [if_pos above, if_neg (not_lt.mpr above.le)]

theorem storedUnits_of_nonneg {value : ℚ} (nonneg : 0 ≤ value) :
    storedUnits value = ⌊value * storedScale + 1 / 2⌋ := by
  rw [storedUnits, if_neg (not_lt.mpr nonneg), abs_of_nonneg nonneg]

theorem storedUnits_mono : Monotone storedUnits := by
  have scale : (0 : ℚ) ≤ storedScale := by norm_num [storedScale]
  have upward : ∀ {a b : ℚ}, 0 ≤ a → a ≤ b → storedUnits a ≤ storedUnits b := by
    intro a b nonneg le
    rw [storedUnits_of_nonneg nonneg, storedUnits_of_nonneg (nonneg.trans le)]
    exact Int.floor_le_floor (by gcongr)
  have above : ∀ {a : ℚ}, 0 ≤ a → 0 ≤ storedUnits a := by
    intro a nonneg
    rw [storedUnits_of_nonneg nonneg, Int.floor_nonneg]
    positivity
  intro a b le
  rcases le_or_gt 0 a with right | left
  · exact upward right le
  rcases le_or_gt 0 b with over_ | under
  · -- zero stands between the two
    have below := above (neg_nonneg.mpr left.le)
    rw [storedUnits_neg] at below
    exact (neg_nonneg.mp below).trans (above over_)
  · have mirrored := upward (neg_nonneg.mpr under.le) (neg_le_neg le)
    rw [storedUnits_neg, storedUnits_neg] at mirrored
    exact neg_le_neg_iff.mp mirrored

theorem storedUnits_units (units : Int) : storedUnits (units / storedScale) = units := by
  have nonneg : ∀ n : Int, 0 ≤ n → storedUnits (n / storedScale) = n := by
    intro n least
    have scale : (0 : ℚ) < storedScale := by norm_num [storedScale]
    rw [storedUnits_of_nonneg (by positivity), div_mul_cancel₀ _ scale.ne', Int.floor_intCast_add]
    norm_num
  rcases le_or_gt 0 units with least | below
  · exact nonneg units least
  · have mirrored := nonneg (-units) (by omega)
    rw [Int.cast_neg, neg_div, storedUnits_neg] at mirrored
    omega

theorem quantiseStored_idempotent (value : ℚ) :
    quantiseStored (quantiseStored value) = quantiseStored value := by
  rw [quantiseStored_eq (quantiseStored value), quantiseStored_eq value, storedUnits_units]

theorem quantiseStored_neg (value : ℚ) : quantiseStored (-value) = -quantiseStored value := by
  rw [quantiseStored_eq, quantiseStored_eq, storedUnits_neg, Int.cast_neg, neg_div]

theorem quantiseStored_mono : Monotone quantiseStored := by
  intro a b le
  have scale : (0 : ℚ) ≤ storedScale := by norm_num [storedScale]
  rw [quantiseStored_eq, quantiseStored_eq]
  have units : ((storedUnits a : ℤ) : ℚ) ≤ storedUnits b := by exact_mod_cast storedUnits_mono le
  gcongr

/-- What is stored reads as the value it was rounded to. -/
theorem numberOf_formatStored (value : ℚ) : numberOf (formatStored value) = quantiseStored value := by
  have scale : storedScale = 10 ^ storedDecimals := by norm_num [storedScale, storedDecimals]
  rw [formatStored, quantiseStored_eq, scale, toFixed_units, numberOf_fixedText (by decide)]

/-- What a triage leaves in the columns of its ticket. -/
structure StoredTriage where
  category : String
  severity : Severity
  sentiment : String
  confidence : String
  deriving DecidableEq, Repr

def storeTriage (stored : TriageReading) : StoredTriage where
  category := stored.category
  severity := stored.severity
  sentiment := formatStored stored.sentiment
  confidence := formatStored stored.confidence

/-- The reading the columns stand for. -/
def rereadTriage (columns : StoredTriage) : TriageReading where
  category := columns.category
  severity := columns.severity
  sentiment := numberOf columns.sentiment
  confidence := numberOf columns.confidence

theorem reread_stored {input : FeatureInput} {stored : TriageReading}
    (held : (featuresFromTicket input).stored = some stored) :
    rereadTriage (storeTriage stored) = stored := by
  simp only [featuresFromTicket, Option.map_eq_some_iff] at held
  obtain ⟨reading, -, rfl⟩ := held
  simp only [rereadTriage, storeTriage, numberOf_formatStored, quantiseStored_idempotent]

/-- The features of the reading that the columns stand for are the features that were judged. -/
theorem featuresFromTicket_reread {input : FeatureInput} {stored : TriageReading}
    (held : (featuresFromTicket input).stored = some stored) :
    (featuresFromTicket { input with triage := some (rereadTriage (storeTriage stored)) }).features =
      (featuresFromTicket input).features := by
  have same := reread_stored held
  simp only [featuresFromTicket, Option.map_eq_some_iff] at held
  obtain ⟨reading, triage, rfl⟩ := held
  rw [same]
  simp only [featuresFromTicket, triage, Option.map_some, quantiseStored_idempotent]

end LedgerDesk.Triage
