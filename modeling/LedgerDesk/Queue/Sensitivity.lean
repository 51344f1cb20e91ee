import LedgerDesk.Queue.Priority

/-!
# A weight moved

One weight is moved and the difference is taken out of the other three in proportion, in hundredths. What
rounding leaves over goes to the largest of the three that stays at zero or above. It has nowhere to go
only where two of the three, rounded, come to more than is left for all of them; and that takes three
weights of half a hundredth each.
-/
namespace LedgerDesk.Queue

inductive WeightName where
  | severity
  | negativity
  | urgency
  | tier
  deriving DecidableEq, Repr

def weightNames : List WeightName := [.severity, .negativity, .urgency, .tier]

/-- `weights[name]`. -/
def PriorityWeights.get (weights : PriorityWeights) : WeightName → ℚ
  | .severity => weights.severity
  | .negativity => weights.negativity
  | .urgency => weights.urgency
  | .tier => weights.tier

/-- `weights[name] = value`. -/
def PriorityWeights.set (weights : PriorityWeights) (name : WeightName) (value : ℚ) : PriorityWeights :=
  match name with
  | .severity => { weights with severity := value }
  | .negativity => { weights with negativity := value }
  | .urgency => { weights with urgency := value }
  | .tier => { weights with tier := value }

/-- `Math.round`. -/
def mathRound (x : ℚ) : ℤ := ⌊x + 1 / 2⌋

/-- What the named weight comes to, in hundredths. -/
def targetCents (base : PriorityWeights) (name : WeightName) (delta : ℚ) : ℤ :=
  mathRound ((base.get name + delta) * 100)

def others (name : WeightName) : List WeightName := weightNames.filter fun other => other ≠ name

def restCents (base : PriorityWeights) (name : WeightName) : ℤ := 100 - mathRound (base.get name * 100)

def scale (base : PriorityWeights) (name : WeightName) (delta : ℚ) : ℚ :=
  if restCents base name = 0 then 0 else (100 - targetCents base name delta) / restCents base name

/-- The share of another weight in what is left, rounded. -/
def share (base : PriorityWeights) (name : WeightName) (delta : ℚ) (other : WeightName) : ℤ :=
  mathRound (base.get other * 100 * scale base name delta)

/-- The loop over the others: the drift goes to the first of them that stays at zero or above. -/
def absorb (cents : WeightName → ℤ) (drift : ℤ) : List WeightName → (WeightName → ℤ) × ℤ
  | [] => (cents, drift)
  | other :: rest =>
    if drift = 0 then (cents, drift)
    else if cents other + drift < 0 then absorb cents drift rest
    else absorb (Function.update cents other (cents other + drift)) 0 rest

def perturb (base : PriorityWeights) (name : WeightName) (delta : ℚ) :
    Except RangeError (Option PriorityWeights) :=
  let target := targetCents base name delta
  if target < 0 ∨ 100 < target then .ok none
  else
    let cents := share base name delta
    let drift := 100 - target - ((others name).map cents).sum
    let absorbed := absorb cents drift
      ((others name).insertionSort fun a b => cents b ≤ cents a)
    if absorbed.2 ≠ 0 then .ok none
    else
      let next := (others name).foldl (fun next other => next.set other (absorbed.1 other / 100))
        (base.set name (target / 100))
      match assertValidWeights next with
      | .error error => .error error
      | .ok () => .ok (some next)

/-! ### Rounding -/

theorem mathRound_le (x : ℚ) : (mathRound x : ℚ) ≤ x + 1 / 2 := Int.floor_le _

theorem lt_mathRound (x : ℚ) : x - 1 / 2 < mathRound x := by
  have := Int.lt_floor_add_one (x + 1 / 2)
  rw [mathRound]
  linarith

theorem mathRound_nonneg {x : ℚ} (low : 0 ≤ x) : 0 ≤ mathRound x := by
  rw [mathRound, Int.floor_nonneg]
  linarith

theorem mathRound_zero : mathRound 0 = 0 := by decide +kernel

/-! ### The drift -/

theorem absorb_zero (cents : WeightName → ℤ) (names : List WeightName) :
    absorb cents 0 names = (cents, 0) := by
  cases names with
  | nil => rfl
  | cons other rest => exact if_pos rfl

/-- The drift stays only where it would take each of the names below zero. -/
theorem absorb_left {cents : WeightName → ℤ} {drift : ℤ} {names : List WeightName} :
    (absorb cents drift names).2 ≠ 0 ↔ drift ≠ 0 ∧ ∀ other ∈ names, cents other + drift < 0 := by
  induction names with
  | nil => simp [absorb]
  | cons other rest ih =>
    rw [absorb]
    split
    · next zero => simp [zero]
    · next some_drift =>
      split
      · next below =>
        rw [ih, List.forall_mem_cons]
        simp [below]
      · next above =>
        rw [absorb_zero, List.forall_mem_cons]
        simp [above]

/-- Where it does not stay, one of the names has taken it. -/
theorem absorb_taken {cents : WeightName → ℤ} {drift : ℤ} {names : List WeightName}
    (taken : (absorb cents drift names).2 = 0) :
    drift = 0 ∧ (absorb cents drift names).1 = cents ∨
      ∃ other ∈ names, 0 ≤ cents other + drift ∧
        (absorb cents drift names).1 = Function.update cents other (cents other + drift) := by
  induction names with
  | nil => exact Or.inl ⟨taken, rfl⟩
  | cons other rest ih =>
    rw [absorb] at taken ⊢
    split at taken
    · next zero => exact Or.inl ⟨zero, by rw [if_pos zero]⟩
    · next some_drift =>
      rw [if_neg some_drift]
      split at taken
      · next below =>
        rw [if_pos below]
        rcases ih taken with kept | ⟨name, member, above, updated⟩
        · exact absurd kept.1 some_drift
        · exact Or.inr ⟨name, List.mem_cons_of_mem _ member, above, updated⟩
      · next above =>
        rw [if_neg above, absorb_zero]
        exact Or.inr ⟨other, List.mem_cons_self .., not_lt.mp above, rfl⟩

theorem sum_update {names : List WeightName} (distinct : names.Nodup) {cents : WeightName → ℤ}
    {name : WeightName} (member : name ∈ names) (drift : ℤ) :
    (names.map (Function.update cents name (cents name + drift))).sum = (names.map cents).sum + drift := by
  induction names with
  | nil => cases member
  | cons first rest ih =>
    rw [List.nodup_cons] at distinct
    rw [List.map_cons, List.map_cons, List.sum_cons, List.sum_cons]
    rcases List.mem_cons.mp member with rfl | later
    · have others : rest.map (Function.update cents name (cents name + drift)) = rest.map cents := by
        apply List.map_congr_left
        intro other below
        exact Function.update_of_ne (ne_of_mem_of_not_mem below distinct.1) _ _
      rw [others, Function.update_self]
      ring
    · have apart : first ≠ name := by
        rintro rfl
        exact distinct.1 later
      rw [Function.update_of_ne apart, ih distinct.2 later]
      ring

/-- The names of a list come to the sum and the drift, and none goes below zero. -/
theorem absorb_conserves {cents : WeightName → ℤ} {drift : ℤ} {names sorted : List WeightName}
    (distinct : names.Nodup) (perm : sorted.Perm names) (low : ∀ other, 0 ≤ cents other)
    (taken : (absorb cents drift sorted).2 = 0) :
    (names.map (absorb cents drift sorted).1).sum = (names.map cents).sum + drift ∧
      ∀ other, 0 ≤ (absorb cents drift sorted).1 other := by
  rcases absorb_taken taken with ⟨zero, kept⟩ | ⟨name, member, above, updated⟩
  · rw [kept, zero, add_zero]
    exact ⟨rfl, low⟩
  · rw [updated]
    refine ⟨sum_update distinct (perm.mem_iff.mp member) drift, ?_⟩
    intro other
    by_cases same : other = name
    · rw [same, Function.update_self]
      exact above
    · rw [Function.update_of_ne same]
      exact low other

/-! ### Valid vectors -/

theorem mem_others {name other : WeightName} : other ∈ others name ↔ other ≠ name := by
  cases name <;> cases other <;> decide

theorem others_nodup (name : WeightName) : (others name).Nodup := by
  cases name <;> decide

theorem get_set (weights : PriorityWeights) (name other : WeightName) (value : ℚ) :
    (weights.set name value).get other = if other = name then value else weights.get other := by
  cases name <;> cases other <;> rfl

/-- Each of the names in turn is set to its value. -/
theorem get_foldl_set (value : WeightName → ℚ) (names : List WeightName) (weights : PriorityWeights)
    (other : WeightName) : (names.foldl (fun next n => next.set n (value n)) weights).get other =
      if other ∈ names then value other else weights.get other := by
  induction names generalizing weights with
  | nil => simp
  | cons first rest ih =>
    rw [List.foldl_cons, ih, get_set]
    by_cases later : other ∈ rest
    · simp [later]
    · by_cases same : other = first
      · simp [same]
      · simp [later, same]

theorem Weights.get_bounds (weights : Weights) (name : WeightName) :
    0 ≤ weights.get name ∧ weights.get name ≤ 1 := by
  have each := weights.bounds.1
  simp only [PriorityWeights.entries, List.forall_mem_cons] at each
  cases name with
  | severity => exact each.1
  | negativity => exact each.2.1
  | urgency => exact each.2.2.1
  | tier => exact each.2.2.2.1

theorem assertValidWeights_ok {weights : PriorityWeights}
    (inside : ∀ name, 0 ≤ weights.get name ∧ weights.get name ≤ 1)
    (total : weights.severity + weights.negativity + weights.urgency + weights.tier = 1) :
    assertValidWeights weights = .ok () := by
  have none : weights.entries.find? (fun entry => entry.2 < 0 || 1 < entry.2) = none := by
    rw [List.find?_eq_none]
    simp only [PriorityWeights.entries, List.forall_mem_cons]
    have low := inside
    have fine : ∀ {v : ℚ}, 0 ≤ v ∧ v ≤ 1 → ¬(decide (v < 0) || decide (1 < v)) = true := by
      intro v between
      simp [not_lt.mpr between.1, not_lt.mpr between.2]
    exact ⟨fine (low .severity), fine (low .negativity), fine (low .urgency), fine (low .tier), by simp⟩
  rw [assertValidWeights, none]
  have sum : weights.entries.foldl (fun total entry => total + entry.2) 0 = 1 := by
    simpa [PriorityWeights.entries] using total
  simp only [sum]
  decide +kernel

/-! ### Crowded vectors -/

/-- Two of the three other weights, rounded, come to more than is left for all of them, whichever two. -/
def Crowded (base : PriorityWeights) (name : WeightName) (delta : ℚ) : Prop :=
  ∀ other ∈ others name, 100 - targetCents base name delta + share base name delta other <
    ((others name).map (share base name delta)).sum

instance (base : PriorityWeights) (name : WeightName) (delta : ℚ) :
    Decidable (Crowded base name delta) :=
  inferInstanceAs (Decidable (∀ other ∈ others name, _ < _))

theorem restCents_nonneg (weights : Weights) (name : WeightName) :
    0 ≤ restCents weights.toPriorityWeights name := by
  have high := (weights.get_bounds name).2
  have rounded := mathRound_le (weights.get name * 100)
  have below : (mathRound (weights.get name * 100) : ℚ) < ((101 : ℤ) : ℚ) := by
    push_cast
    linarith
  have := Int.cast_lt.mp below
  rw [restCents]
  omega

theorem scale_nonneg (weights : Weights) (name : WeightName) {delta : ℚ}
    (inside : targetCents weights.toPriorityWeights name delta ≤ 100) :
    0 ≤ scale weights.toPriorityWeights name delta := by
  rw [scale]
  split
  · exact le_refl 0
  · apply div_nonneg
    · rw [sub_nonneg]
      exact_mod_cast inside
    · exact_mod_cast restCents_nonneg weights name

theorem share_nonneg (weights : Weights) (name : WeightName) {delta : ℚ}
    (inside : targetCents weights.toPriorityWeights name delta ≤ 100) (other : WeightName) :
    0 ≤ share weights.toPriorityWeights name delta other := by
  apply mathRound_nonneg
  have low := (weights.get_bounds other).1
  have := scale_nonneg weights name inside
  positivity

/-- Three numbers of which any two come to `k` or more, and all to little more than `k` and a half. -/
theorem half_of_pairs {x y z k ε : ℚ} (small : ε < 1 / 4) (first : k ≤ x + y) (second : k ≤ x + z)
    (third : k ≤ y + z) (total : x + y + z ≤ k + 1 / 2 + ε) : k < 2 ∧
      (k = 1 → |x - 1 / 2| ≤ ε ∧ |y - 1 / 2| ≤ ε ∧ |z - 1 / 2| ≤ ε) := by
  refine ⟨by linarith, ?_⟩
  rintro rfl
  refine ⟨?_, ?_, ?_⟩ <;> rw [abs_le] <;> constructor <;> linarith

/-- Where two rounded shares exceed what is left, the two weights come to what the others had. -/
theorem rest_le_of_crowded {left rest : ℤ} {x y scale : ℚ} (positive : 0 < rest) (some_left : 0 < left)
    (scaled : scale = left / rest) (crowded : left < mathRound (x * scale) + mathRound (y * scale)) :
    (rest : ℚ) ≤ x + y := by
  have rounded := mathRound_le (x * scale)
  have rounded' := mathRound_le (y * scale)
  have step : (left : ℚ) + 1 ≤ mathRound (x * scale) + mathRound (y * scale) := by
    exact_mod_cast crowded
  have enough : (left : ℚ) ≤ (x + y) * scale := by linarith
  have positive' : (0 : ℚ) < rest := by exact_mod_cast positive
  have some_left' : (0 : ℚ) < left := by exact_mod_cast some_left
  rw [scaled, mul_div_assoc', le_div_iff₀ positive', mul_comm (left : ℚ)] at enough
  exact le_of_mul_le_mul_right enough some_left'

/-- The weights, one of them named. -/
theorem weights_total (weights : Weights) (name : WeightName) :
    |weights.get name + ((others name).map weights.get).sum - 1| ≤ weightSumTolerance := by
  have total := weights.bounds.2
  have regroup : weights.get name + ((others name).map weights.get).sum =
      weights.severity + weights.negativity + weights.urgency + weights.tier := by
    cases name <;> simp [others, weightNames, PriorityWeights.get] <;> ring
  rw [regroup]
  exact total

theorem others_three (name : WeightName) : ∃ a b c, others name = [a, b, c] := by
  cases name with
  | severity => exact ⟨_, _, _, rfl⟩
  | negativity => exact ⟨_, _, _, rfl⟩
  | urgency => exact ⟨_, _, _, rfl⟩
  | tier => exact ⟨_, _, _, rfl⟩

/-- A vector is crowded only where the three other weights are half a hundredth each, up to the
tolerance of their sum. -/
theorem Crowded.half {weights : Weights} {name : WeightName} {delta : ℚ}
    (inside : targetCents weights.toPriorityWeights name delta ≤ 100)
    (crowded : Crowded weights.toPriorityWeights name delta) :
    restCents weights.toPriorityWeights name = 1 ∧
      ∀ other ∈ others name, |weights.get other - 1 / 200| ≤ weightSumTolerance := by
  obtain ⟨a, b, c, listed⟩ := others_three name
  have total := weights_total weights name
  rw [listed] at total ⊢
  have low := share_nonneg weights name inside
  simp only [Crowded, listed, List.forall_mem_cons, List.map_cons, List.map_nil, List.sum_cons,
    List.sum_nil, add_zero] at crowded total
  obtain ⟨first, second, third, -⟩ := crowded
  have left_nonneg : 0 ≤ 100 - targetCents weights.toPriorityWeights name delta := by omega
  -- A rest or a remainder of nothing leaves every share at nothing.
  have some_scale : scale weights.toPriorityWeights name delta ≠ 0 := by
    intro zero
    have none : ∀ other, share weights.toPriorityWeights name delta other = 0 := by
      intro other
      rw [share, zero, mul_zero, mathRound_zero]
    rw [none, none, none] at first
    omega
  have some_rest : restCents weights.toPriorityWeights name ≠ 0 := by
    intro zero
    exact some_scale (by rw [scale, if_pos zero])
  have scaled : scale weights.toPriorityWeights name delta =
      ((100 - targetCents weights.toPriorityWeights name delta : ℤ) : ℚ) /
        restCents weights.toPriorityWeights name := by
    rw [scale, if_neg some_rest]
    push_cast
    rfl
  have some_left : 0 < 100 - targetCents weights.toPriorityWeights name delta := by
    rcases left_nonneg.lt_or_eq with positive | zero
    · exact positive
    · rw [← zero, Int.cast_zero, zero_div] at scaled
      exact absurd scaled some_scale
  have positive : 0 < restCents weights.toPriorityWeights name :=
    lt_of_le_of_ne (restCents_nonneg weights name) (Ne.symm some_rest)
  have bc := rest_le_of_crowded (x := weights.get b * 100) (y := weights.get c * 100) positive some_left
    scaled (by
      simp only [share] at first ⊢
      omega)
  have ac := rest_le_of_crowded (x := weights.get a * 100) (y := weights.get c * 100) positive some_left
    scaled (by
      simp only [share] at second ⊢
      omega)
  have ab := rest_le_of_crowded (x := weights.get a * 100) (y := weights.get b * 100) positive some_left
    scaled (by
      simp only [share] at third ⊢
      omega)
  have rounded := lt_mathRound (weights.get name * 100)
  have rounded' := mathRound_le (weights.get name * 100)
  have rest : (restCents weights.toPriorityWeights name : ℚ) =
      100 - mathRound (weights.get name * 100) := by
    rw [restCents]
    push_cast
    rfl
  rw [abs_le, weightSumTolerance] at total
  obtain ⟨small, close⟩ :=
    @half_of_pairs _ _ _ _ (1 / 10000000) (by norm_num) ab ac bc (by linarith)
  have one : restCents weights.toPriorityWeights name = 1 := by
    have : restCents weights.toPriorityWeights name < 2 := by exact_mod_cast small
    omega
  refine ⟨one, ?_⟩
  obtain ⟨near_a, near_b, near_c⟩ := close (by exact_mod_cast one)
  have hundredth : ∀ {x : ℚ}, |x * 100 - 1 / 2| ≤ 1 / 10000000 → |x - 1 / 200| ≤ weightSumTolerance := by
    intro x near
    rw [abs_le] at near ⊢
    rw [weightSumTolerance]
    constructor <;> linarith
  simp only [List.forall_mem_cons]
  exact ⟨hundredth near_a, hundredth near_b, hundredth near_c, by simp⟩

/-! ### What comes of a move -/

/-- Hundredths that are a vector. -/
structure Cents where
  of : WeightName → ℤ
  nonneg : ∀ name, 0 ≤ of name
  total : of .severity + of .negativity + of .urgency + of .tier = 100

theorem Cents.le (cents : Cents) (name : WeightName) : cents.of name ≤ 100 := by
  have total := cents.total
  have a := cents.nonneg .severity
  have b := cents.nonneg .negativity
  have c := cents.nonneg .urgency
  have d := cents.nonneg .tier
  cases name <;> omega

/-- Weights in whole hundredths that come to a hundred pass the check. -/
theorem Cents.valid (cents : Cents) {weights : PriorityWeights}
    (read : ∀ name, weights.get name = cents.of name / 100) : assertValidWeights weights = .ok () := by
  apply assertValidWeights_ok
  · intro name
    have low : (0 : ℚ) ≤ cents.of name := by exact_mod_cast cents.nonneg name
    have high : (cents.of name : ℚ) ≤ 100 := by exact_mod_cast cents.le name
    rw [read]
    constructor <;> linarith
  · have total : (cents.of .severity + cents.of .negativity + cents.of .urgency + cents.of .tier : ℚ) =
        100 := by exact_mod_cast cents.total
    have a := read .severity
    have b := read .negativity
    have c := read .urgency
    have d := read .tier
    simp only [PriorityWeights.get] at a b c d
    rw [a, b, c, d]
    linarith

theorem sum_others (f : WeightName → ℤ) (name : WeightName) :
    f .severity + f .negativity + f .urgency + f .tier = f name + ((others name).map f).sum := by
  cases name <;> simp [others, weightNames] <;> ring

/-- The target and the shares that came of the loop, put together. -/
def Cents.assemble {name : WeightName} {target : ℤ} {shares : WeightName → ℤ} (low : 0 ≤ target)
    (nonneg : ∀ other, 0 ≤ shares other) (total : ((others name).map shares).sum = 100 - target) :
    Cents where
  of := Function.update shares name target
  nonneg other := by
    by_cases same : other = name
    · rw [same, Function.update_self]
      exact low
    · rw [Function.update_of_ne same]
      exact nonneg other
  total := by
    have untouched : (others name).map (Function.update shares name target) = (others name).map shares := by
      apply List.map_congr_left
      intro other member
      exact Function.update_of_ne (mem_others.mp member) _ _
    rw [sum_others _ name, untouched, Function.update_self, total]
    ring

@[simp] theorem Cents.assemble_name {name : WeightName} {target : ℤ} {shares : WeightName → ℤ}
    (low : 0 ≤ target) (nonneg : ∀ other, 0 ≤ shares other)
    (total : ((others name).map shares).sum = 100 - target) :
    (Cents.assemble low nonneg total).of name = target := Function.update_self ..

theorem Cents.assemble_other {name : WeightName} {target : ℤ} {shares : WeightName → ℤ}
    (low : 0 ≤ target) (nonneg : ∀ other, 0 ≤ shares other)
    (total : ((others name).map shares).sum = 100 - target) {other : WeightName} (different : other ≠ name) :
    (Cents.assemble low nonneg total).of other = shares other := Function.update_of_ne different ..

/-- A vector is crowded where the loop leaves something of the drift. -/
theorem crowded_iff {base : PriorityWeights} {name : WeightName} {delta : ℚ}
    (nonneg : ∀ other, 0 ≤ share base name delta other) {sorted : List WeightName}
    (perm : sorted.Perm (others name)) : Crowded base name delta ↔
      (absorb (share base name delta) (100 - targetCents base name delta -
        ((others name).map (share base name delta)).sum) sorted).2 ≠ 0 := by
  rw [absorb_left, Crowded]
  constructor
  · intro crowded
    obtain ⟨a, b, c, listed⟩ := others_three name
    have first := crowded a (by rw [listed]; exact List.mem_cons_self ..)
    have some_share := nonneg a
    refine ⟨by omega, ?_⟩
    intro other member
    have := crowded other (perm.mem_iff.mp member)
    omega
  · rintro ⟨-, below⟩ other member
    have := below other (perm.mem_iff.mpr member)
    omega

/-- The vector `perturb` writes. -/
theorem get_next {base : PriorityWeights} {name : WeightName} {target : ℤ} {shares : WeightName → ℤ}
    (low : 0 ≤ target) (nonneg : ∀ other, 0 ≤ shares other)
    (total : ((others name).map shares).sum = 100 - target) (n : WeightName) :
    ((others name).foldl (fun next other => next.set other (shares other / 100))
      (base.set name (target / 100))).get n = (Cents.assemble low nonneg total).of n / 100 := by
  rw [get_foldl_set (fun n => (shares n : ℚ) / 100), get_set]
  by_cases same : n = name
  · rw [if_neg (fun member => mem_others.mp member same), if_pos same, same, Cents.assemble_name]
  · rw [if_pos (mem_others.mpr same), Cents.assemble_other _ _ _ same]

/-- What `perturb` comes to: nothing, or a vector of whole hundredths with the target in its place. -/
theorem perturb_spec (weights : Weights) (name : WeightName) (delta : ℚ) :
    let base := weights.toPriorityWeights
    (targetCents base name delta < 0 ∨ 100 < targetCents base name delta ∨ Crowded base name delta) ∧
        perturb base name delta = .ok none ∨
      ¬(targetCents base name delta < 0 ∨ 100 < targetCents base name delta ∨
          Crowded base name delta) ∧
        ∃ next, ∃ cents : Cents, perturb base name delta = .ok (some next) ∧
          cents.of name = targetCents base name delta ∧ ∀ n, next.get n = cents.of n / 100 := by
  intro base
  by_cases outside : targetCents base name delta < 0 ∨ 100 < targetCents base name delta
  · left
    exact ⟨outside.imp_right Or.inl, by simp only [perturb, if_pos outside]⟩
  · obtain ⟨low, high⟩ := not_or.mp outside
    have nonneg : ∀ other, 0 ≤ share base name delta other := share_nonneg weights name (not_lt.mp high)
    generalize sorting : (others name).insertionSort (fun a b => share base name delta b ≤
      share base name delta a) = sorted
    have perm : sorted.Perm (others name) := by
      rw [← sorting]
      exact List.perm_insertionSort _ _
    have crowded := crowded_iff nonneg perm
    generalize drifting : 100 - targetCents base name delta -
      ((others name).map (share base name delta)).sum = drift at crowded
    by_cases left_over : (absorb (share base name delta) drift sorted).2 = 0
    · right
      obtain ⟨total, kept⟩ := absorb_conserves (others_nodup name) perm nonneg left_over
      have sum : ((others name).map (absorb (share base name delta) drift sorted).1).sum =
          100 - targetCents base name delta := by
        rw [total, ← drifting]
        ring
      have read := @get_next base _ _ _ (not_lt.mp low) kept sum
      refine ⟨?_, _, Cents.assemble (not_lt.mp low) kept sum, ?_, Cents.assemble_name .., read⟩
      · rintro (below | above | full)
        · exact low below
        · exact high above
        · exact crowded.mp full left_over
      · simp only [perturb, if_neg outside, sorting, drifting, left_over, ne_eq, not_true_eq_false,
          if_false]
        rw [Cents.valid _ read]
    · left
      refine ⟨Or.inr (Or.inr (crowded.mpr left_over)), ?_⟩
      simp only [perturb, if_neg outside, sorting, drifting]
      exact if_pos left_over

/-- Three weights of half a hundredth: each share rounds up to six, and eleven are left. -/
def crowdedWeights : Weights where
  severity := 985 / 1000
  negativity := 5 / 1000
  urgency := 5 / 1000
  tier := 5 / 1000
  valid := by decide +kernel

end LedgerDesk.Queue
