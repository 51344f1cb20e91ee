import LedgerDesk.Agents.Canonical

/-!
# The priority of a ticket

Numbers are exact: a score is a rational, and so is an instant in epoch milliseconds. The
instant of evaluation is an argument everywhere and a field nowhere.
-/
namespace LedgerDesk.Queue

open Agents (codeUnits codeUnits_injective)

inductive Severity where
  | one
  | two
  | three
  | four
  deriving DecidableEq, Repr

inductive AccountTier where
  | standard
  | premium
  deriving DecidableEq, Repr

inductive ValueBand where
  | one
  | two
  | three
  | four
  | five
  deriving DecidableEq, Repr

def severityMap : Severity → ℚ
  | .one => 1 / 4
  | .two => 1 / 2
  | .three => 3 / 4
  | .four => 1

def tierMap : AccountTier → ℚ
  | .standard => 1 / 2
  | .premium => 1

def valueBandMap : ValueBand → ℚ
  | .one => 1 / 5
  | .two => 2 / 5
  | .three => 3 / 5
  | .four => 4 / 5
  | .five => 1

/-- What the model said of the tone of a ticket, if it said anything a number can say. -/
inductive Sentiment where
  | absent
  | notFinite
  | score (value : ℚ)
  deriving DecidableEq, Repr

structure QueueFeatures where
  id : String
  severity : Severity
  sentiment : Sentiment
  tier : AccountTier
  valueBand : ValueBand
  createdAt : ℚ
  slaDueAt : ℚ
  deriving DecidableEq, Repr

structure PriorityWeights where
  severity : ℚ
  negativity : ℚ
  urgency : ℚ
  tier : ℚ
  deriving DecidableEq, Repr

def defaultPriorityWeights : PriorityWeights where
  severity := 35 / 100
  negativity := 25 / 100
  urgency := 30 / 100
  tier := 10 / 100

def weightSumTolerance : ℚ := 1 / 1000000000

def priorityScale : ℚ := 1000000

/-! ### Weights -/

/-- What the module refuses, each with the value it names. -/
inductive RangeError where
  | weight (name : String) (value : ℚ)
  | weightSum (sum : ℚ)
  | storedPriority (priority : ℚ)
  | storedCreatedAt (createdAt : ℚ)
  | noAgent (agents : Nat)
  deriving DecidableEq, Repr

def RangeError.message (numberText : ℚ → String) : RangeError → String
  | .weight name value =>
    "priority weight '" ++ name ++ "' must lie in [0,1], got " ++ numberText value
  | .weightSum sum => "priority weights must sum to 1, got " ++ numberText sum
  | .storedPriority priority =>
    "priority " ++ numberText priority ++ " does not fit the collation encoding"
  | .storedCreatedAt createdAt =>
    "created_at " ++ numberText createdAt ++ " does not fit the collation encoding"
  | .noAgent agents => "the replay needs at least one agent, got " ++ toString agents

def PriorityWeights.entries (weights : PriorityWeights) : List (String × ℚ) :=
  [("severity", weights.severity), ("negativity", weights.negativity),
    ("urgency", weights.urgency), ("tier", weights.tier)]

def assertValidWeights (weights : PriorityWeights) : Except RangeError Unit :=
  match weights.entries.find? fun entry => entry.2 < 0 || 1 < entry.2 with
  | some (name, value) => .error (.weight name value)
  | none =>
    let sum := weights.entries.foldl (fun total entry => total + entry.2) 0
    if weightSumTolerance < |sum - 1| then .error (.weightSum sum) else .ok ()

/-- A weight vector that has passed its check. -/
structure Weights extends PriorityWeights where
  valid : assertValidWeights toPriorityWeights = .ok ()

theorem defaultPriorityWeights_valid : assertValidWeights defaultPriorityWeights = .ok () := by
  decide +kernel

def Weights.published : Weights := ⟨defaultPriorityWeights, defaultPriorityWeights_valid⟩

/-- Each weight lies in the unit interval, and together they are one up to the tolerance. -/
theorem Weights.bounds (weights : Weights) :
    (∀ entry ∈ weights.entries, 0 ≤ entry.2 ∧ entry.2 ≤ 1) ∧
      |weights.severity + weights.negativity + weights.urgency + weights.tier - 1| ≤
        weightSumTolerance := by
  have valid := weights.valid
  simp only [assertValidWeights] at valid
  split at valid
  · cases valid
  · next inside =>
    split at valid
    · cases valid
    · next close =>
      constructor
      · intro entry member
        have kept := List.find?_eq_none.mp inside entry member
        simpa using kept
      · simpa [PriorityWeights.entries] using close

/-! ### The score -/

inductive PriorityAnomaly where
  | futureCreatedAt
  | nonPositiveSlaWindow
  | sentimentAbsent
  | sentimentOutOfRange
  deriving DecidableEq, Repr

structure PriorityComponent where
  normalised : ℚ
  weight : ℚ
  contribution : ℚ
  deriving DecidableEq, Repr

structure PriorityComponents where
  severity : PriorityComponent
  negativity : PriorityComponent
  urgency : PriorityComponent
  tier : PriorityComponent
  deriving DecidableEq, Repr

structure PriorityBreakdown where
  score : ℚ
  storedScore : ℚ
  breached : Bool
  components : PriorityComponents
  anomalies : List PriorityAnomaly
  deriving DecidableEq, Repr

def clamp (value low high : ℚ) : ℚ :=
  if value < low then low else if high < value then high else value

/-- `Math.round(score * PRIORITY_SCALE) / PRIORITY_SCALE`: halves go up. -/
def quantisePriority (score : ℚ) : ℚ := ⌊score * priorityScale + 1 / 2⌋ / priorityScale

def normalisedSeverity (severity : Severity) : ℚ := severityMap severity

def normalisedNegativity : Sentiment → ℚ
  | .absent | .notFinite => 1 / 2
  | .score value => (1 - clamp value (-1) 1) / 2

def normalisedUrgency (features : QueueFeatures) (now : ℚ) : ℚ × List PriorityAnomaly :=
  let elapsed := now - features.createdAt
  if elapsed < 0 then (0, [.futureCreatedAt])
  else
    let window := features.slaDueAt - features.createdAt
    if window ≤ 0 then (1, [.nonPositiveSlaWindow])
    else (clamp (elapsed / window) 0 1, [])

def normalisedTier (tier : AccountTier) (valueBand : ValueBand) : ℚ :=
  tierMap tier * valueBandMap valueBand

/-- Strict: a ticket is not breached at its due instant. -/
def isBreached (features : QueueFeatures) (now : ℚ) : Bool := features.slaDueAt < now

def sentimentAnomalies : Sentiment → List PriorityAnomaly
  | .absent => [.sentimentAbsent]
  | .notFinite => [.sentimentOutOfRange]
  | .score value => if 1 < |value| then [.sentimentOutOfRange] else []

def component (normalised weight : ℚ) : PriorityComponent := ⟨normalised, weight, normalised * weight⟩

def computePriority (features : QueueFeatures) (now : ℚ) (weights : Weights) : PriorityBreakdown :=
  let urgency := normalisedUrgency features now
  let components : PriorityComponents :=
    { severity := component (normalisedSeverity features.severity) weights.severity
      negativity := component (normalisedNegativity features.sentiment) weights.negativity
      urgency := component urgency.1 weights.urgency
      tier := component (normalisedTier features.tier features.valueBand) weights.tier }
  let score := components.severity.contribution + components.negativity.contribution +
    components.urgency.contribution + components.tier.contribution
  { score
    storedScore := quantisePriority score
    breached := isBreached features now
    components
    anomalies := sentimentAnomalies features.sentiment ++ urgency.2 }

/-- The same, of an urgency and a breach that are already known. -/
def breakdownOf (features : QueueFeatures) (urgency : ℚ × List PriorityAnomaly) (breached : Bool)
    (weights : Weights) : PriorityBreakdown :=
  let components : PriorityComponents :=
    { severity := component (normalisedSeverity features.severity) weights.severity
      negativity := component (normalisedNegativity features.sentiment) weights.negativity
      urgency := component urgency.1 weights.urgency
      tier := component (normalisedTier features.tier features.valueBand) weights.tier }
  let score := components.severity.contribution + components.negativity.contribution +
    components.urgency.contribution + components.tier.contribution
  { score
    storedScore := quantisePriority score
    breached
    components
    anomalies := sentimentAnomalies features.sentiment ++ urgency.2 }

theorem computePriority_eq (features : QueueFeatures) (now : ℚ) (weights : Weights) :
    computePriority features now weights =
      breakdownOf features (normalisedUrgency features now) (isBreached features now) weights := rfl

theorem clamp_bounds {low high : ℚ} (ordered : low ≤ high) (value : ℚ) :
    low ≤ clamp value low high ∧ clamp value low high ≤ high := by
  rw [clamp]
  split
  · exact ⟨le_refl _, ordered⟩
  · next above =>
    split
    · exact ⟨ordered, le_refl _⟩
    · next below => exact ⟨not_lt.mp above, not_lt.mp below⟩

theorem clamp_mono {low high : ℚ} (ordered : low ≤ high) {a b : ℚ} (le : a ≤ b) :
    clamp a low high ≤ clamp b low high := by
  have bounds := clamp_bounds ordered
  by_cases under : a < low
  · rw [clamp, if_pos under]
    exact (bounds b).1
  · by_cases beyond : high < b
    · have top : clamp b low high = high := by
        rw [clamp, if_neg (by linarith), if_pos beyond]
      rw [top]
      exact (bounds a).2
    · rw [clamp, clamp, if_neg under, if_neg (by linarith), if_neg (by linarith), if_neg beyond]
      exact le

theorem normalisedSeverity_bounds (severity : Severity) :
    0 ≤ normalisedSeverity severity ∧ normalisedSeverity severity ≤ 1 := by
  cases severity <;> norm_num [normalisedSeverity, severityMap]

theorem normalisedTier_bounds (tier : AccountTier) (valueBand : ValueBand) :
    0 ≤ normalisedTier tier valueBand ∧ normalisedTier tier valueBand ≤ 1 := by
  cases tier <;> cases valueBand <;> norm_num [normalisedTier, tierMap, valueBandMap]

theorem normalisedNegativity_bounds (sentiment : Sentiment) :
    0 ≤ normalisedNegativity sentiment ∧ normalisedNegativity sentiment ≤ 1 := by
  cases sentiment with
  | absent => norm_num [normalisedNegativity]
  | notFinite => norm_num [normalisedNegativity]
  | score value =>
    have bounds := clamp_bounds (show (-1 : ℚ) ≤ 1 by norm_num) value
    simp only [normalisedNegativity]
    constructor <;> linarith

theorem normalisedUrgency_bounds (features : QueueFeatures) (now : ℚ) :
    0 ≤ (normalisedUrgency features now).1 ∧ (normalisedUrgency features now).1 ≤ 1 := by
  simp only [normalisedUrgency]
  split
  · exact ⟨le_refl _, zero_le_one⟩
  · split
    · exact ⟨zero_le_one, le_refl _⟩
    · exact clamp_bounds zero_le_one _

/-- Time spent only makes a ticket more urgent. -/
theorem normalisedUrgency_mono (features : QueueFeatures) {now later : ℚ} (le : now ≤ later) :
    (normalisedUrgency features now).1 ≤ (normalisedUrgency features later).1 := by
  by_cases future : now - features.createdAt < 0
  · have none : (normalisedUrgency features now).1 = 0 := by
      simp only [normalisedUrgency, if_pos future]
    rw [none]
    exact (normalisedUrgency_bounds features later).1
  · have reached : ¬ later - features.createdAt < 0 := by linarith
    simp only [normalisedUrgency, if_neg future, if_neg reached]
    split
    · exact le_refl _
    · next window =>
      refine clamp_mono zero_le_one ?_
      have positive : 0 < features.slaDueAt - features.createdAt := not_le.mp window
      gcongr

theorem quantisePriority_mono {a b : ℚ} (le : a ≤ b) : quantisePriority a ≤ quantisePriority b := by
  have scale : (0 : ℚ) < priorityScale := by norm_num [priorityScale]
  rw [quantisePriority, quantisePriority]
  have floors : ⌊a * priorityScale + 1 / 2⌋ ≤ ⌊b * priorityScale + 1 / 2⌋ := by
    refine Int.floor_le_floor ?_
    gcongr
  have lifted : ((⌊a * priorityScale + 1 / 2⌋ : ℤ) : ℚ) ≤ ⌊b * priorityScale + 1 / 2⌋ := by
    exact_mod_cast floors
  gcongr

theorem Weights.nonneg (weights : Weights) :
    0 ≤ weights.severity ∧ 0 ≤ weights.negativity ∧ 0 ≤ weights.urgency ∧ 0 ≤ weights.tier := by
  have inside := weights.bounds.1
  simp only [PriorityWeights.entries, List.forall_mem_cons, List.not_mem_nil, IsEmpty.forall_iff,
    implies_true, and_true] at inside
  exact ⟨inside.1.1, inside.2.1.1, inside.2.2.1.1, inside.2.2.2.1⟩

section Breakdown

variable {features : QueueFeatures} {urgency : ℚ × List PriorityAnomaly} {breached : Bool}

/-- What each component adds lies between nothing and its weight. -/
theorem breakdownOf_components (weights : Weights) (low : 0 ≤ urgency.1) (high : urgency.1 ≤ 1) :
    let components := (breakdownOf features urgency breached weights).components
    ∀ c ∈ [components.severity, components.negativity, components.urgency, components.tier],
      (0 ≤ c.normalised ∧ c.normalised ≤ 1) ∧ 0 ≤ c.contribution ∧ c.contribution ≤ c.weight := by
  obtain ⟨s0, n0, u0, t0⟩ := weights.nonneg
  have placed : ∀ {normalised weight : ℚ}, 0 ≤ normalised ∧ normalised ≤ 1 → 0 ≤ weight →
      (0 ≤ (component normalised weight).normalised ∧ (component normalised weight).normalised ≤ 1) ∧
        0 ≤ (component normalised weight).contribution ∧
          (component normalised weight).contribution ≤ (component normalised weight).weight :=
    fun inside weight => ⟨inside, mul_nonneg inside.1 weight, mul_le_of_le_one_left weight inside.2⟩
  simp only [breakdownOf, List.forall_mem_cons, List.not_mem_nil, IsEmpty.forall_iff, implies_true,
    and_true]
  exact ⟨placed (normalisedSeverity_bounds _) s0, placed (normalisedNegativity_bounds _) n0,
    placed ⟨low, high⟩ u0, placed (normalisedTier_bounds _ _) t0⟩

theorem breakdownOf_score (weights : Weights) (low : 0 ≤ urgency.1) (high : urgency.1 ≤ 1) :
    0 ≤ (breakdownOf features urgency breached weights).score ∧
      (breakdownOf features urgency breached weights).score ≤
        weights.severity + weights.negativity + weights.urgency + weights.tier := by
  have parts := @breakdownOf_components features urgency breached weights low high
  simp only [List.forall_mem_cons, List.not_mem_nil, IsEmpty.forall_iff, implies_true,
    and_true] at parts
  obtain ⟨⟨-, s0, s1⟩, ⟨-, n0, n1⟩, ⟨-, u0, u1⟩, -, t0, t1⟩ := parts
  have sum : (breakdownOf features urgency breached weights).score =
      (breakdownOf features urgency breached weights).components.severity.contribution +
        (breakdownOf features urgency breached weights).components.negativity.contribution +
        (breakdownOf features urgency breached weights).components.urgency.contribution +
        (breakdownOf features urgency breached weights).components.tier.contribution := rfl
  rw [sum]
  constructor
  · linarith
  · exact add_le_add (add_le_add (add_le_add s1 n1) u1) t1

end Breakdown

theorem breakdownOf_mono {features : QueueFeatures} {urgency urgency' : ℚ × List PriorityAnomaly}
    {breached breached' : Bool} (weights : Weights) (le : urgency.1 ≤ urgency'.1) :
    (breakdownOf features urgency breached weights).score ≤
      (breakdownOf features urgency' breached' weights).score := by
  obtain ⟨-, -, weight, -⟩ := weights.nonneg
  have share := mul_le_mul_of_nonneg_right le weight
  simp only [breakdownOf, component]
  linarith

/-- A score of one is only ever exceeded by the slack of the weights. -/
theorem score_bounds (features : QueueFeatures) (now : ℚ) (weights : Weights) :
    0 ≤ (computePriority features now weights).score ∧
      (computePriority features now weights).score ≤ 1 + weightSumTolerance := by
  obtain ⟨low, high⟩ := normalisedUrgency_bounds features now
  rw [computePriority_eq]
  obtain ⟨above, below⟩ := breakdownOf_score weights low high
  have upper := (abs_le.mp weights.bounds.2).2
  exact ⟨above, by linarith [below]⟩

theorem score_mono (features : QueueFeatures) (weights : Weights) {now later : ℚ}
    (le : now ≤ later) :
    (computePriority features now weights).score ≤
      (computePriority features later weights).score :=
  breakdownOf_mono weights (normalisedUrgency_mono features le)

/-! ### The order key -/

structure QueueKey where
  breached : Bool
  priority : ℚ
  createdAt : ℚ
  id : String
  deriving DecidableEq, Repr

def queueKey (features : QueueFeatures) (now : ℚ) (weights : Weights) : QueueKey :=
  let breakdown := computePriority features now weights
  { breached := breakdown.breached
    priority := breakdown.storedScore
    createdAt := features.createdAt
    id := features.id }

/-- Negative when `a` is served first. -/
def compareQueueKeys (a b : QueueKey) : ℚ :=
  if a.breached ≠ b.breached then (if a.breached then -1 else 1)
  else if a.priority ≠ b.priority then b.priority - a.priority
  else if a.createdAt ≠ b.createdAt then a.createdAt - b.createdAt
  else if a.id = b.id then 0
  else if codeUnits a.id < codeUnits b.id then -1 else 1

/-- The place of a key: breached ahead, then the higher priority, then the older, then the id. -/
def QueueKey.rank (key : QueueKey) : Bool ×ₗ ℚᵒᵈ ×ₗ ℚ ×ₗ List Nat :=
  toLex (!key.breached, toLex (OrderDual.toDual key.priority,
    toLex (key.createdAt, codeUnits key.id)))

theorem QueueKey.rank_injective {a b : QueueKey} (same : a.rank = b.rank) : a = b := by
  obtain ⟨breached, priority, createdAt, id⟩ := a
  obtain ⟨breached', priority', createdAt', id'⟩ := b
  simp only [QueueKey.rank, EmbeddingLike.apply_eq_iff_eq, Prod.mk.injEq, Bool.not_inj_iff] at same
  obtain ⟨rfl, rfl, rfl, ids⟩ := same
  rw [codeUnits_injective ids]

theorem compareQueueKeys_neg {a b : QueueKey} : compareQueueKeys a b < 0 ↔ a.rank < b.rank := by
  have unit : ¬ (1 : ℚ) < 0 := by norm_num
  simp only [compareQueueKeys, QueueKey.rank, Prod.Lex.toLex_lt_toLex]
  by_cases breached : a.breached = b.breached
  · by_cases priority : a.priority = b.priority
    · by_cases createdAt : a.createdAt = b.createdAt
      · by_cases id : a.id = b.id
        · simp [breached, priority, createdAt, id]
        · by_cases before : codeUnits a.id < codeUnits b.id
          · simp [breached, priority, createdAt, id, before]
          · simp [breached, priority, createdAt, id, before, unit]
      · simp [breached, priority, createdAt, sub_neg]
    · simp [breached, priority, sub_neg]
  · cases ha : a.breached <;> cases hb : b.breached <;> simp [ha, hb, unit, Bool.lt_iff] at breached ⊢

theorem compareQueueKeys_pos {a b : QueueKey} : 0 < compareQueueKeys a b ↔ b.rank < a.rank := by
  simp only [compareQueueKeys, QueueKey.rank, Prod.Lex.toLex_lt_toLex]
  by_cases breached : a.breached = b.breached
  · by_cases priority : a.priority = b.priority
    · by_cases createdAt : a.createdAt = b.createdAt
      · by_cases id : a.id = b.id
        · simp [breached, priority, createdAt, id]
        · have apart : codeUnits a.id ≠ codeUnits b.id := fun same => id (codeUnits_injective same)
          by_cases before : codeUnits a.id < codeUnits b.id
          · simp [breached, priority, createdAt, id, before, not_lt.mpr before.le]
          · have after := lt_of_le_of_ne (not_lt.mp before) (Ne.symm apart)
            simp [breached, priority, createdAt, id, before, after]
      · simp [breached, priority, createdAt, Ne.symm createdAt, sub_pos]
    · simp [breached, priority, Ne.symm priority, sub_pos]
  · cases ha : a.breached <;> cases hb : b.breached <;> simp [ha, hb, Bool.lt_iff] at breached ⊢

theorem compareQueueKeys_nonpos {a b : QueueKey} :
    compareQueueKeys a b ≤ 0 ↔ a.rank ≤ b.rank := by
  rw [← not_lt, compareQueueKeys_pos, not_lt]

/-- Two keys tie only when they are the same key. -/
theorem compareQueueKeys_eq_zero {a b : QueueKey} : compareQueueKeys a b = 0 ↔ a = b := by
  constructor
  · intro tie
    have above := compareQueueKeys_nonpos.mp (le_of_eq tie)
    have below : b.rank ≤ a.rank := not_lt.mp fun less =>
      absurd (compareQueueKeys_neg.mpr less) (by rw [tie]; exact lt_irrefl 0)
    exact QueueKey.rank_injective (le_antisymm above below)
  · rintro rfl
    simp [compareQueueKeys]

/-- A breach or a higher priority only moves a ticket forward. -/
theorem QueueKey.rank_le {new old : QueueKey} (created : new.createdAt = old.createdAt)
    (id : new.id = old.id) (priority : old.priority ≤ new.priority)
    (breach : old.breached = true → new.breached = true) : new.rank ≤ old.rank := by
  simp only [QueueKey.rank, Prod.Lex.toLex_le_toLex, created, id]
  rcases lt_or_eq_of_le priority with higher | same
  · cases breached : old.breached with
    | true => simp [breach breached, higher]
    | false => cases new.breached <;> simp [higher]
  · cases breached : old.breached with
    | true => simp [breach breached, same]
    | false => cases new.breached <;> simp [same]

/-- Waiting only moves a ticket forward. -/
theorem queueKey_rank_antitone (features : QueueFeatures) (weights : Weights) {now later : ℚ}
    (le : now ≤ later) :
    (queueKey features later weights).rank ≤ (queueKey features now weights).rank := by
  have scores := quantisePriority_mono (score_mono features weights le)
  refine QueueKey.rank_le rfl rfl scores ?_
  simp only [queueKey, computePriority, isBreached, decide_eq_true_eq]
  intro due
  exact lt_of_lt_of_le due le

theorem compareQueueKeys_breached {a b : QueueKey} (breached : a.breached = true)
    (standing : b.breached = false) : compareQueueKeys a b < 0 := by
  rw [compareQueueKeys, breached, standing, if_pos (by decide), if_pos rfl]
  norm_num

/-! ### A ticket that is never due -/

/-- The urgency against an instant that may be `Infinity`, of which no part is ever spent. -/
def urgencyDue (features : QueueFeatures) (now : ℚ) : WithTop ℚ → ℚ × List PriorityAnomaly
  | some due => normalisedUrgency { features with slaDueAt := due } now
  | none => if now - features.createdAt < 0 then (0, [.futureCreatedAt]) else (0, [])

def breachedDue (features : QueueFeatures) (now : ℚ) : WithTop ℚ → Bool
  | some due => isBreached { features with slaDueAt := due } now
  | none => false

/-- `computePriority` of a ticket whose due instant may be `Infinity`. -/
def priorityDue (features : QueueFeatures) (due : WithTop ℚ) (now : ℚ) (weights : Weights) :
    PriorityBreakdown :=
  breakdownOf features (urgencyDue features now due) (breachedDue features now due) weights

def queueKeyDue (features : QueueFeatures) (due : WithTop ℚ) (now : ℚ) (weights : Weights) :
    QueueKey :=
  let breakdown := priorityDue features due now weights
  { breached := breakdown.breached
    priority := breakdown.storedScore
    createdAt := features.createdAt
    id := features.id }

variable {features : QueueFeatures} {due : WithTop ℚ} {now later : ℚ} {weights : Weights}

theorem priorityDue_some {instant : ℚ} :
    priorityDue features (some instant) now weights =
      computePriority { features with slaDueAt := instant } now weights := rfl

theorem urgencyDue_bounds : 0 ≤ (urgencyDue features now due).1 ∧ (urgencyDue features now due).1 ≤ 1 := by
  cases due with
  | coe instant => exact normalisedUrgency_bounds _ now
  | top =>
    change 0 ≤ (ite _ _ _ : ℚ × List PriorityAnomaly).1 ∧ (ite _ _ _ : ℚ × List PriorityAnomaly).1 ≤ 1
    split <;> norm_num

theorem urgencyDue_mono (le : now ≤ later) :
    (urgencyDue features now due).1 ≤ (urgencyDue features later due).1 := by
  cases due with
  | coe instant => exact normalisedUrgency_mono _ le
  | top =>
    have zero : ∀ instant, (urgencyDue features instant ⊤).1 = 0 := by
      intro instant
      change (ite _ _ _ : ℚ × List PriorityAnomaly).1 = 0
      split <;> rfl
    rw [zero, zero]

theorem breachedDue_mono (le : now ≤ later) (breached : breachedDue features now due = true) :
    breachedDue features later due = true := by
  cases due with
  | coe instant =>
    have past : instant < now := of_decide_eq_true breached
    exact decide_eq_true (past.trans_le le)
  | top => cases breached

theorem queueKeyDue_rank_antitone (le : now ≤ later) :
    (queueKeyDue features due later weights).rank ≤ (queueKeyDue features due now weights).rank := by
  have scores : (priorityDue features due now weights).score ≤
      (priorityDue features due later weights).score :=
    breakdownOf_mono weights (urgencyDue_mono le)
  exact QueueKey.rank_le rfl rfl (quantisePriority_mono scores) (breachedDue_mono le)

/-- A ticket no component of which has anything left to gain. -/
def foremost : QueueFeatures where
  id := "t"
  severity := .four
  sentiment := .score (-1)
  tier := .premium
  valueBand := .five
  createdAt := 0
  slaDueAt := 1

end LedgerDesk.Queue
