import Centroid.Lib.WeightedMean
import Centroid.Runtime.AcceptedConfigs

namespace PyFloat

/-- What is at most a number is at most every greater number. -/
theorem le_finite_mono {x : PyFloat} {p q : ℚ} (le : p ≤ q) (below : x.le (.finite p) = true) : x.le (.finite q) = true := by
  cases x with
  | finite r => exact decide_eq_true (le_trans (of_decide_eq_true below) le)
  | infinity negative => exact below
  | nan => cases below

@[simp] theorem nan_add (x : PyFloat) : PyFloat.nan.add x = .nan := by cases x <;> rfl

@[simp] theorem add_nan (x : PyFloat) : x.add .nan = .nan := by cases x <;> rfl

@[simp] theorem nan_mul (x : PyFloat) : PyFloat.nan.mul x = .nan := by cases x <;> rfl

end PyFloat

namespace Centroid

open Rounding

/-- What passes the check of a probability is a number from zero to one or no
number at all. -/
theorem requireProbability_inUnit_or_nan {data : JsonObject} {fieldName context : String} {weight : PyFloat}
    (ok : requireProbability data fieldName none context = .ok weight) : weight.InUnit ∨ weight = .nan := by
  by_cases sane : NotNan data fieldName
  · refine Or.inl ((requireProbability_inUnit_iff (fun value impossible => ?_) ok).mpr sane)
    cases impossible
  · obtain ⟨value, found, numeric⟩ := requireProbability_ok ok
    rw [NotNan, not_not, found, Option.some.injEq] at sane
    rw [sane] at numeric
    exact Or.inr (Option.some.inj numeric).symm

/-- A signal whose components are exact numbers, of any size. -/
structure ExactSignal where
  urgency : ℚ
  risk : ℚ
  userValue : ℚ
  stability : ℚ

def ExactSignal.signal (exact : ExactSignal) : PrioritySignal :=
  ⟨.finite exact.urgency, .finite exact.risk, .finite exact.userValue, .finite exact.stability⟩

/-- The second signal presses at least as much as the first in every component. -/
structure ExactSignal.Presses (low high : ExactSignal) : Prop where
  urgency : low.urgency ≤ high.urgency
  risk : low.risk ≤ high.risk
  userValue : low.userValue ≤ high.userValue
  stability : high.stability ≤ low.stability

/-- What the weight of a name multiplies. -/
def ExactSignal.pressure (exact : ExactSignal) : WeightName → ℚ
  | .urgency => clamp01 exact.urgency
  | .risk => clamp01 exact.risk
  | .userValue => clamp01 exact.userValue
  | .instability => 1 - clamp01 exact.stability

theorem ExactSignal.Presses.pressure {low high : ExactSignal} (presses : low.Presses high) (name : WeightName) :
    low.pressure name ≤ high.pressure name := by
  cases name with
  | urgency => exact clamp01_mono presses.urgency
  | risk => exact clamp01_mono presses.risk
  | userValue => exact clamp01_mono presses.userValue
  | instability => exact sub_le_sub_left (clamp01_mono presses.stability) 1

def WeightName.all : List WeightName := [.urgency, .risk, .userValue, .instability]

/-- All four weights multiplied by one factor. -/
def PriorityPolicy.scale (policy : PriorityPolicy) (factor : ℚ) : PriorityPolicy :=
  { policy with weights := ⟨policy.weights.urgency.mul (.finite factor), policy.weights.risk.mul (.finite factor),
      policy.weights.userValue.mul (.finite factor), policy.weights.instability.mul (.finite factor)⟩ }

theorem clampFloat_finite (q : ℚ) : clampFloat (.finite q) = .finite (clamp01 q) := by
  unfold clampFloat
  by_cases small : q < 1
  · rw [PyFloat.pyMin, PyFloat.lt, if_pos (decide_eq_true small), clamp01, min_eq_right small.le]
    by_cases positive : 0 < q
    · rw [PyFloat.pyMax, PyFloat.lt, if_pos (decide_eq_true positive), max_eq_right positive.le]
    · rw [PyFloat.pyMax, PyFloat.lt, if_neg (by simpa using positive), max_eq_left (not_lt.mp positive)]
  · rw [PyFloat.pyMin, PyFloat.lt, if_neg (by simpa using small), clamp01_of_one_le (not_lt.mp small)]
    rfl

namespace ConfiguredPriorityScorer

/-- The weights are given numbers. -/
def Weighs (policy : PriorityPolicy) (w : WeightName → ℚ) : Prop := ∀ name, policy.weights.get name = .finite (w name)

theorem total_of_weighs {policy : PriorityPolicy} {w : WeightName → ℚ} (weighs : Weighs policy w) :
    (mk policy).total = .finite (WeightedMean.total w WeightName.all) := by
  have urgency : policy.weights.urgency = .finite (w .urgency) := weighs .urgency
  have risk : policy.weights.risk = .finite (w .risk) := weighs .risk
  have userValue : policy.weights.userValue = .finite (w .userValue) := weighs .userValue
  have instability : policy.weights.instability = .finite (w .instability) := weighs .instability
  simp only [total, urgency, risk, userValue, instability, PyFloat.add, WeightedMean.total, WeightName.all, List.map_cons,
    List.map_nil, List.sum_cons, List.sum_nil]
  congr 1
  ring

theorem weightedSum_of_weighs {policy : PriorityPolicy} {w : WeightName → ℚ} (weighs : Weighs policy w)
    (exact : ExactSignal) :
    (mk policy).weightedSum exact.signal = .finite (WeightedMean.weighted w exact.pressure WeightName.all) := by
  have urgency : policy.weights.urgency = .finite (w .urgency) := weighs .urgency
  have risk : policy.weights.risk = .finite (w .risk) := weighs .risk
  have userValue : policy.weights.userValue = .finite (w .userValue) := weighs .userValue
  have instability : policy.weights.instability = .finite (w .instability) := weighs .instability
  simp only [weightedSum, urgency, risk, userValue, instability, ExactSignal.signal, clampFloat_finite, PyFloat.mul,
    PyFloat.sub, PyFloat.neg, PyFloat.add, WeightedMean.weighted, ExactSignal.pressure, WeightName.all, List.map_cons,
    List.map_nil, List.sum_cons, List.sum_nil]
  congr 1
  ring

/-- With numbers for weights the score is their mean of the components. -/
theorem score_of_weighs {policy : PriorityPolicy} {w : WeightName → ℚ} (weighs : Weighs policy w)
    (positive : 0 < WeightedMean.total w WeightName.all) (exact : ExactSignal) :
    (mk policy).score exact.signal =
      some (.finite (roundTo 4 (clamp01 (WeightedMean.mean w exact.pressure WeightName.all)))) := by
  have above : (PyFloat.finite (WeightedMean.total w WeightName.all)).le (.finite 0) = false :=
    decide_eq_false (not_le.mpr positive)
  rw [score, total_of_weighs weighs, weightedSum_of_weighs weighs, above, if_neg Bool.false_ne_true, PyFloat.div?,
    if_neg positive.ne', Option.map_some, clampFloat_finite]
  rfl

/-- One weight that is no number makes a score of one for every signal. -/
theorem score_of_nan {policy : PriorityPolicy} {name : WeightName} (isNan : policy.weights.get name = .nan)
    (signal : PrioritySignal) : (mk policy).score signal = some (.finite 1) := by
  have whole : (mk policy).total = .nan := by
    cases name <;> simp only [PriorityWeights.get] at isNan <;> simp [total, isNan]
  have sum : (mk policy).weightedSum signal = .nan := by
    cases name <;> simp only [PriorityWeights.get] at isNan <;> simp [weightedSum, isNan]
  rw [score, whole, sum, if_neg (by decide)]
  simp [PyFloat.div?, clampFloat, PyFloat.pyMin, PyFloat.pyMax, PyFloat.lt, PyFloat.round, roundTo_one]

/-- What an accepted policy weighs with: numbers that are not negative and not
all zero, or something that is no number. -/
theorem weighs_or_nan {data : Json} {policy : PriorityPolicy} (accepted : parsePriorityPolicy data = .ok policy) :
    (∃ w, Weighs policy w ∧ (∀ name ∈ WeightName.all, 0 ≤ w name) ∧ 0 < WeightedMean.total w WeightName.all) ∨
      ∃ name, policy.weights.get name = .nan := by
  obtain ⟨_, weights, _, _, urgency, risk, userValue, instability, above, _⟩ := parsePriorityPolicy_ok accepted
  have each : ∀ name, (policy.weights.get name).InUnit ∨ policy.weights.get name = .nan := by
    intro name
    cases name with
    | urgency => exact requireProbability_inUnit_or_nan urgency
    | risk => exact requireProbability_inUnit_or_nan risk
    | userValue => exact requireProbability_inUnit_or_nan userValue
    | instability => exact requireProbability_inUnit_or_nan instability
  by_cases some : ∃ name, policy.weights.get name = .nan
  · exact Or.inr some
  · have units : ∀ name, (policy.weights.get name).InUnit := fun name =>
      (each name).resolve_right fun isNan => some ⟨name, isNan⟩
    choose w weighs lower _ using units
    refine Or.inl ⟨w, weighs, fun name _ => lower name, ?_⟩
    have whole : (mk policy).total.le (.finite 0) = false := above
    rw [total_of_weighs weighs] at whole
    exact not_le.mp (of_decide_eq_false whole)

/-- A numeric score, and no other outcome. -/
theorem score_spec {data : Json} {policy : PriorityPolicy} (accepted : parsePriorityPolicy data = .ok policy) :
    ∃ mean : ExactSignal → ℚ, (∀ exact, (mk policy).score exact.signal = some (.finite (mean exact))) ∧
      (∀ exact, 0 ≤ mean exact ∧ mean exact ≤ 1) ∧ ∀ low high, low.Presses high → mean low ≤ mean high := by
  rcases weighs_or_nan accepted with ⟨w, weighs, nonneg, positive⟩ | ⟨name, isNan⟩
  · refine ⟨fun exact => roundTo 4 (clamp01 (WeightedMean.mean w exact.pressure WeightName.all)),
      score_of_weighs weighs positive, fun exact => ⟨?_, ?_⟩, fun low high presses => ?_⟩
    · exact roundTo_nonneg 4 (clamp01_nonneg _)
    · exact roundTo_le_one 4 (clamp01_le_one _)
    · have le : WeightedMean.mean w low.pressure WeightName.all ≤ WeightedMean.mean w high.pressure WeightName.all :=
        WeightedMean.mean_mono_of_nonneg nonneg fun name _ => presses.pressure name
      exact roundTo_mono 4 (clamp01_mono le)
  · exact ⟨fun _ => 1, fun exact => score_of_nan isNan _, fun _ => ⟨zero_le_one, le_rfl⟩, fun _ _ _ => le_rfl⟩

theorem score_scale {data : Json} {policy : PriorityPolicy} (accepted : parsePriorityPolicy data = .ok policy)
    {factor : ℚ} (larger : 0 < factor) (exact : ExactSignal) :
    (mk (policy.scale factor)).score exact.signal = (mk policy).score exact.signal := by
  rcases weighs_or_nan accepted with ⟨w, weighs, nonneg, positive⟩ | ⟨name, isNan⟩
  · have scaled : Weighs (policy.scale factor) fun name => w name * factor := by
      intro name
      have atName := weighs name
      cases name with
      | _ =>
        simp only [PriorityWeights.get] at atName
        simp only [PriorityPolicy.scale, PriorityWeights.get, atName, PyFloat.mul]
    have whole : 0 < WeightedMean.total (fun name => w name * factor) WeightName.all := by
      have product : WeightedMean.total (fun name => w name * factor) WeightName.all =
          WeightedMean.total w WeightName.all * factor :=
        List.sum_map_mul_right WeightName.all w factor
      rw [product]
      exact mul_pos positive larger
    rw [score_of_weighs scaled whole, score_of_weighs weighs positive, WeightedMean.mean_scale larger.ne']
  · have scaled : (policy.scale factor).weights.get name = .nan := by
      cases name with
      | _ =>
        simp only [PriorityWeights.get] at isNan
        simp only [PriorityPolicy.scale, PriorityWeights.get, isNan, PyFloat.nan_mul]
    rw [score_of_nan scaled, score_of_nan isNan]

/-- A request that changes nothing goes to the reflex node from its threshold on. -/
theorem route_reflex_iff {policy : PriorityPolicy} {signal : PrioritySignal} {q : ℚ}
    (scored : (mk policy).score signal = some (.finite q)) :
    ((mk policy).route signal false).map (·.route.node) = some "reflex_node" ↔
      policy.reflexThreshold.le (.finite q) = true := by
  rw [route, scored, Option.map_some, Option.map_some, if_neg Bool.false_ne_true, Option.some.injEq]
  by_cases reached : policy.reflexThreshold.le (.finite q) = true
  · simp [reached]
  · rw [if_neg reached]
    split <;> simp [reached]

theorem score_and_route_monotone {data : Json} {policy : PriorityPolicy} (accepted : parsePriorityPolicy data = .ok policy) :
    (∀ exact : ExactSignal, ∃ q, (mk policy).score exact.signal = some (.finite q) ∧ 0 ≤ q ∧ q ≤ 1) ∧
    (∀ low high : ExactSignal, low.Presses high → ∃ p q, (mk policy).score low.signal = some (.finite p) ∧
      (mk policy).score high.signal = some (.finite q) ∧ p ≤ q) ∧
    (∀ factor : ℚ, 0 < factor → ∀ exact : ExactSignal,
      (mk (policy.scale factor)).score exact.signal = (mk policy).score exact.signal) ∧
    (∀ low high : ExactSignal, low.Presses high →
      ((mk policy).route low.signal false).map (·.route.node) = some "reflex_node" →
        ((mk policy).route high.signal false).map (·.route.node) = some "reflex_node") := by
  obtain ⟨mean, scored, unit, mono⟩ := score_spec accepted
  refine ⟨fun exact => ⟨mean exact, scored exact, unit exact⟩, ?_, fun factor larger => score_scale accepted larger, ?_⟩
  · intro low high presses
    exact ⟨mean low, mean high, scored low, scored high, mono low high presses⟩
  · intro low high presses reflex
    rw [route_reflex_iff (scored low)] at reflex
    rw [route_reflex_iff (scored high)]
    exact PyFloat.le_finite_mono (mono low high presses) reflex

/-- The policy of a configuration that says nothing about priorities. -/
theorem score_and_route_monotone_unstated :
    ∃ policy, parsePriorityPolicy (.dict []) = .ok policy ∧
      ∃ p q, (mk policy).score (ExactSignal.mk 0 0 0 1).signal = some (.finite p) ∧
        (mk policy).score (ExactSignal.mk 7 0 0 (-3)).signal = some (.finite q) ∧ p ≤ q := by
  have isOk : (parsePriorityPolicy (.dict [])).isOk = true := by decide +kernel
  cases parsed : parsePriorityPolicy (.dict []) with
  | error e => simp [parsed, Except.isOk, Except.toBool] at isOk
  | ok policy =>
    refine ⟨policy, rfl, ?_⟩
    exact (score_and_route_monotone parsed).2.1 ⟨0, 0, 0, 1⟩ ⟨7, 0, 0, -3⟩ ⟨by decide, le_rfl, le_rfl, by decide⟩

end ConfiguredPriorityScorer

end Centroid
