import Centroid.Runtime.PriorityMonotone
import Mathlib.Tactic.FieldSimp

namespace Rounding

theorem roundTo_eq_zero {places : ℕ} {x : ℚ} (nonneg : 0 ≤ x) (small : x ≤ 1 / 2 / 10 ^ places) : roundTo places x = 0 := by
  have scaled : x * 10 ^ places ≤ 1 / 2 := by rwa [← le_div_iff₀ (by positivity)]
  have least : 0 ≤ x * 10 ^ places := by positivity
  have zero : halfEven (x * 10 ^ places) = 0 := by
    refine halfEven_unique ?_ fun _ => rfl
    rw [Int.cast_zero, zero_sub, abs_neg, abs_of_nonneg least]
    exact scaled
  rw [roundTo, zero, Int.cast_zero, zero_div]

theorem roundTo_pos_of_half_lt {places : ℕ} {x : ℚ} (large : 1 / 2 / 10 ^ places < x) : 0 < roundTo places x := by
  have scaled : 1 / 2 < x * 10 ^ places := by rwa [← div_lt_iff₀ (by positivity)]
  have near := abs_le.mp (abs_halfEven_sub_le (x * 10 ^ places))
  have above : (0 : ℚ) < halfEven (x * 10 ^ places) := by linarith
  exact div_pos above (by positivity)

/-- Rounding tells the factors of the numbers of the unit interval apart. -/
theorem eq_of_roundTo_mul {places : ℕ} {a b : ℚ} (nonneg : 0 ≤ a) (large : 1 / 10 ^ places ≤ b)
    (same : ∀ x, 0 ≤ x → x ≤ 1 → roundTo places (a * x) = roundTo places (b * x)) : a = b := by
  have unit : (0 : ℚ) < 1 / 10 ^ places := by positivity
  have half : (1 / 2 / 10 ^ places : ℚ) = 1 / 10 ^ places / 2 := by ring
  have positive : 0 < b := lt_of_lt_of_le unit large
  rcases lt_trichotomy a b with less | equal | more
  · -- at this number the halves of the last place lie between the two products
    have whole : 0 < a + b := by linarith
    have bound : 1 / 10 ^ places / (a + b) ≤ 1 := by
      rw [div_le_one whole]
      linarith
    have at_ := same (1 / 10 ^ places / (a + b)) (div_nonneg unit.le whole.le) bound
    have below : a * (1 / 10 ^ places / (a + b)) ≤ 1 / 2 / 10 ^ places := by
      rw [half, mul_div_assoc', div_le_div_iff₀ whole two_pos]
      nlinarith
    have above : 1 / 2 / 10 ^ places < b * (1 / 10 ^ places / (a + b)) := by
      rw [half, mul_div_assoc', div_lt_div_iff₀ two_pos whole]
      nlinarith
    have pos := roundTo_pos_of_half_lt above
    rw [← at_, roundTo_eq_zero (by positivity) below] at pos
    exact absurd pos (lt_irrefl 0)
  · exact equal
  · have bound : 1 / 2 / 10 ^ places / b ≤ 1 := by
      rw [div_le_one positive, half]
      linarith
    have at_ := same (1 / 2 / 10 ^ places / b) (by positivity) bound
    have exact_ : b * (1 / 2 / 10 ^ places / b) = 1 / 2 / 10 ^ places := by field_simp
    have above : 1 / 2 / 10 ^ places < a * (1 / 2 / 10 ^ places / b) := by
      rw [mul_div_assoc', lt_div_iff₀ positive, mul_comm]
      exact mul_lt_mul_of_pos_right more (by positivity)
    have pos := roundTo_pos_of_half_lt above
    rw [at_, exact_, roundTo_eq_zero (by positivity) le_rfl] at pos
    exact absurd pos (lt_irrefl 0)

end Rounding

namespace Centroid

open Rounding

deriving instance DecidableEq for WeightName

/-- `score_priority`, whose weights are fixed. As in `score`, products and sums are exact; only the
result is rounded. -/
def scorePriority (signal : PrioritySignal) : PyFloat :=
  let score :=
    ((((PyFloat.finite (30 / 100)).mul (clampFloat signal.urgency)).add
      ((PyFloat.finite (30 / 100)).mul (clampFloat signal.risk))).add
      ((PyFloat.finite (25 / 100)).mul (clampFloat signal.userValue))).add
      ((PyFloat.finite (15 / 100)).mul ((PyFloat.finite 1).sub (clampFloat signal.stability)))
  (clampFloat score).round 4

def Router.route (priority : PyFloat) (mutatesState : Bool) : RouteDecision :=
  if mutatesState then ⟨"orchestration_node", "mutating action requires policy gate", true⟩
  else if (PyFloat.finite (75 / 100)).le priority then ⟨"reflex_node", "high priority signal", false⟩
  else ⟨"deliberation_node", "normal planning path", false⟩

/-- The fixed weights. -/
def plainWeight : WeightName → ℚ
  | .urgency => 30 / 100
  | .risk => 30 / 100
  | .userValue => 25 / 100
  | .instability => 15 / 100

/-- A signal that presses on one component only. -/
def ExactSignal.single (name : WeightName) (x : ℚ) : ExactSignal :=
  match name with
  | .urgency => ⟨x, 0, 0, 1⟩
  | .risk => ⟨0, x, 0, 1⟩
  | .userValue => ⟨0, 0, x, 1⟩
  | .instability => ⟨0, 0, 0, 1 - x⟩

theorem ExactSignal.pressure_single {name : WeightName} {x : ℚ} (lower : 0 ≤ x) (upper : x ≤ 1) (other : WeightName) :
    (ExactSignal.single name x).pressure other = if other = name then x else 0 := by
  have mine : clamp01 x = x := clamp01_of_mem lower upper
  have complement : clamp01 (1 - x) = 1 - x := clamp01_of_mem (by linarith) (by linarith)
  have zero : clamp01 0 = 0 := clamp01_of_mem le_rfl zero_le_one
  have one : clamp01 1 = 1 := clamp01_of_mem zero_le_one le_rfl
  cases name <;> cases other <;> simp [ExactSignal.single, ExactSignal.pressure, mine, complement, zero, one]

namespace ConfiguredPriorityScorer

/-- The fixed weights as a policy. -/
def plainPolicy : PriorityPolicy where
  weights := ⟨.finite (30 / 100), .finite (30 / 100), .finite (25 / 100), .finite (15 / 100)⟩

theorem weighs_plainPolicy : Weighs plainPolicy plainWeight := by
  intro name
  cases name <;> rfl

theorem total_plainWeight : WeightedMean.total plainWeight WeightName.all = 1 := by
  norm_num [WeightedMean.total, WeightName.all, plainWeight]

theorem weighted_single (w : WeightName → ℚ) {name : WeightName} {x : ℚ} (lower : 0 ≤ x) (upper : x ≤ 1) :
    WeightedMean.weighted w (ExactSignal.single name x).pressure WeightName.all = w name * x := by
  simp only [WeightedMean.weighted, WeightName.all, List.map_cons, List.map_nil, List.sum_cons, List.sum_nil,
    ExactSignal.pressure_single lower upper]
  cases name <;> simp [mul_comm]

theorem scorePriority_exact (exact : ExactSignal) :
    scorePriority exact.signal =
      .finite (roundTo 4 (clamp01 (WeightedMean.weighted plainWeight exact.pressure WeightName.all))) := by
  have sum := weightedSum_of_weighs weighs_plainPolicy exact
  show (clampFloat ((mk plainPolicy).weightedSum exact.signal)).round 4 = _
  rw [sum, clampFloat_finite]
  rfl

/-- A signal counts with what is left of it in the unit interval. -/
theorem exists_exact (signal : PrioritySignal) : ∃ exact : ExactSignal,
    (∀ self : ConfiguredPriorityScorer, self.score signal = self.score exact.signal) ∧
      scorePriority signal = scorePriority exact.signal := by
  obtain ⟨u, urgency, lowU, highU⟩ := PyFloat.inUnit_clip signal.urgency
  obtain ⟨r, risk, lowR, highR⟩ := PyFloat.inUnit_clip signal.risk
  obtain ⟨v, userValue, lowV, highV⟩ := PyFloat.inUnit_clip signal.userValue
  obtain ⟨s, stability, lowS, highS⟩ := PyFloat.inUnit_clip signal.stability
  have clampedU : clampFloat signal.urgency = clampFloat (.finite u) := by
    rw [clampFloat_finite, clamp01_of_mem lowU highU]
    exact urgency
  have clampedR : clampFloat signal.risk = clampFloat (.finite r) := by
    rw [clampFloat_finite, clamp01_of_mem lowR highR]
    exact risk
  have clampedV : clampFloat signal.userValue = clampFloat (.finite v) := by
    rw [clampFloat_finite, clamp01_of_mem lowV highV]
    exact userValue
  have clampedS : clampFloat signal.stability = clampFloat (.finite s) := by
    rw [clampFloat_finite, clamp01_of_mem lowS highS]
    exact stability
  refine ⟨⟨u, r, v, s⟩, fun self => ?_, ?_⟩
  · simp only [score, weightedSum, ExactSignal.signal, clampedU, clampedR, clampedV, clampedS]
  · simp only [scorePriority, ExactSignal.signal, clampedU, clampedR, clampedV, clampedS]

/-- The scores of a policy with numbers for weights are those of the fixed weights
exactly if its weights stand in their proportions. -/
theorem score_plain_iff {policy : PriorityPolicy} {w : WeightName → ℚ} (weighs : Weighs policy w)
    (nonneg : ∀ name ∈ WeightName.all, 0 ≤ w name) (positive : 0 < WeightedMean.total w WeightName.all) :
    (∀ exact : ExactSignal, (mk policy).score exact.signal = some (scorePriority exact.signal)) ↔
      ∀ name, w name = plainWeight name * WeightedMean.total w WeightName.all := by
  have members : ∀ name, name ∈ WeightName.all := by
    intro name
    cases name <;> decide
  constructor
  · intro same name
    have share : w name / WeightedMean.total w WeightName.all = plainWeight name := by
      have most : w name / WeightedMean.total w WeightName.all ≤ 1 := by
        rw [div_le_one positive]
        refine List.single_le_sum ?_ _ (List.mem_map_of_mem (members name))
        intro y listed
        obtain ⟨other, member, rfl⟩ := List.mem_map.mp listed
        exact nonneg other member
      have least : 0 ≤ w name / WeightedMean.total w WeightName.all := div_nonneg (nonneg name (members name)) positive.le
      have small : 1 / 10 ^ 4 ≤ plainWeight name ∧ plainWeight name ≤ 1 := by cases name <;> norm_num [plainWeight]
      refine @eq_of_roundTo_mul 4 _ _ least small.1 fun x lower upper => ?_
      have scores := same (.single name x)
      rw [score_of_weighs weighs positive, scorePriority_exact, WeightedMean.mean, weighted_single w lower upper,
        weighted_single plainWeight lower upper, mul_div_right_comm] at scores
      have plainNonneg : 0 ≤ plainWeight name := le_trans (by positivity) small.1
      rw [clamp01_of_mem (mul_nonneg least lower) (mul_le_one₀ most lower upper),
        clamp01_of_mem (mul_nonneg plainNonneg lower) (mul_le_one₀ small.2 lower upper)] at scores
      exact PyFloat.finite.inj (Option.some.inj scores)
    rw [← share, div_mul_cancel₀ _ positive.ne']
  · intro shares exact
    have sums : WeightedMean.weighted w exact.pressure WeightName.all =
        WeightedMean.weighted plainWeight exact.pressure WeightName.all * WeightedMean.total w WeightName.all := by
      rw [WeightedMean.weighted, WeightedMean.weighted, ← List.sum_map_mul_right]
      refine congrArg List.sum (List.map_congr_left fun name _ => ?_)
      rw [mul_assoc, ← shares name]
    rw [score_of_weighs weighs positive, scorePriority_exact, WeightedMean.mean, sums, mul_div_cancel_right₀ _ positive.ne']

/-- The scorer can stand for the fixed scores and their router: the scores are the
same, and so are the nodes and the approvals. -/
def RoutesAlike (policy : PriorityPolicy) : Prop :=
  ∀ signal mutatesState, ∃ result, (mk policy).route signal mutatesState = some result ∧
    result.score = scorePriority signal ∧ result.route.node = (Router.route result.score mutatesState).node ∧
      result.route.requiresApproval = (Router.route result.score mutatesState).requiresApproval

/-- No score lies between the two. -/
theorem reflex_le_iff {q : ℚ} (lower : 7499 / 10000 < q) (upper : q ≤ 75 / 100) (x : ℚ) :
    q ≤ roundTo 4 x ↔ 75 / 100 ≤ roundTo 4 x := by
  refine ⟨fun reached => ?_, upper.trans⟩
  have steps : roundTo 4 x = (halfEven (x * 10 ^ 4) : ℚ) / 10000 := by norm_num [roundTo]
  rw [steps] at reached ⊢
  have above : (7499 : ℚ) < halfEven (x * 10 ^ 4) := by
    have more := lower.trans_le reached
    rwa [div_lt_div_iff_of_pos_right (by norm_num)] at more
  have next : (7500 : ℚ) ≤ halfEven (x * 10 ^ 4) := by
    have grid : (7499 : ℤ) < halfEven (x * 10 ^ 4) := by exact_mod_cast above
    exact_mod_cast grid
  rw [le_div_iff₀ (by norm_num)]
  norm_num
  exact next

theorem score_of_route {policy : PriorityPolicy} {signal : PrioritySignal} {mutatesState : Bool}
    {result : ConfiguredPriorityResult} (routed : (mk policy).route signal mutatesState = some result) :
    (mk policy).score signal = some result.score := by
  obtain ⟨score, scored, rfl⟩ := Option.map_eq_some_iff.mp routed
  rw [scored]
  split
  · rfl
  · split
    · rfl
    · split
      · rfl
      · rfl

/-- The nodes agree on a score if both thresholds are reached or neither. -/
theorem reflexThreshold_le_iff {policy : PriorityPolicy} (alike : RoutesAlike policy) {exact : ExactSignal} {s : ℚ}
    (scored : scorePriority exact.signal = .finite s) :
    policy.reflexThreshold.le (.finite s) = true ↔ 75 / 100 ≤ s := by
  obtain ⟨result, routed, score, node, -⟩ := alike exact.signal false
  rw [scored] at score
  have inner := score_of_route routed
  rw [score] at inner
  have reflex := route_reflex_iff inner
  rw [routed, Option.map_some, Option.some.injEq, node, score, Router.route, if_neg Bool.false_ne_true] at reflex
  rw [← reflex]
  by_cases high : (PyFloat.finite (75 / 100)).le (.finite s) = true
  · rw [if_pos high]
    exact iff_of_true rfl (of_decide_eq_true high)
  · rw [if_neg high]
    exact iff_of_false (by decide) fun above => high (decide_eq_true above)

theorem threshold_of_routesAlike {policy : PriorityPolicy} (alike : RoutesAlike policy) :
    ∃ q, policy.reflexThreshold = .finite q ∧ 7499 / 10000 < q ∧ q ≤ 75 / 100 := by
  have high : scorePriority (ExactSignal.mk 1 1 (3 / 5) 1).signal = .finite (75 / 100) := by decide +kernel
  have low : scorePriority (ExactSignal.mk 1 1 (1499 / 2500) 1).signal = .finite (7499 / 10000) := by decide +kernel
  have reached := (reflexThreshold_le_iff alike high).mpr le_rfl
  have missed : ¬ policy.reflexThreshold.le (.finite (7499 / 10000)) = true := fun reached =>
    absurd ((reflexThreshold_le_iff alike low).mp reached) (by norm_num)
  cases threshold : policy.reflexThreshold with
  | finite q =>
    rw [threshold] at reached missed
    exact ⟨q, rfl, not_le.mp fun small => missed (decide_eq_true small), of_decide_eq_true reached⟩
  | infinity negative =>
    rw [threshold] at reached missed
    cases negative with
    | true => exact absurd rfl missed
    | false => cases reached
  | nan =>
    rw [threshold] at reached
    cases reached

/-- In exact arithmetic an accepted policy routes as the fixed weights and the fixed threshold do, for
every signal, exactly if its weights stand in their proportions and its threshold is
reached by the same scores of four places. -/
theorem routesAlike_iff {data : Json} {policy : PriorityPolicy} (accepted : parsePriorityPolicy data = .ok policy) :
    RoutesAlike policy ↔
      (∃ k : ℚ, 0 < k ∧ policy.weights = ⟨.finite (30 * k), .finite (30 * k), .finite (25 * k), .finite (15 * k)⟩) ∧
        ∃ q, policy.reflexThreshold = .finite q ∧ 7499 / 10000 < q ∧ q ≤ 75 / 100 := by
  constructor
  · intro alike
    refine ⟨?_, threshold_of_routesAlike alike⟩
    have scores (exact : ExactSignal) : (mk policy).score exact.signal = some (scorePriority exact.signal) := by
      obtain ⟨result, routed, score, -⟩ := alike exact.signal false
      rw [score_of_route routed, score]
    rcases weighs_or_nan accepted with ⟨w, weighs, nonneg, positive⟩ | ⟨name, isNan⟩
    · have shares := (score_plain_iff weighs nonneg positive).mp scores
      refine ⟨WeightedMean.total w WeightName.all / 100, by linarith, ?_⟩
      have each (name : WeightName) : policy.weights.get name =
          .finite (plainWeight name * WeightedMean.total w WeightName.all) := by
        rw [weighs name]
        exact congrArg PyFloat.finite (shares name)
      have urgency : policy.weights.urgency = _ := each .urgency
      have risk : policy.weights.risk = _ := each .risk
      have userValue : policy.weights.userValue = _ := each .userValue
      have instability : policy.weights.instability = _ := each .instability
      have all : policy.weights =
        ⟨policy.weights.urgency, policy.weights.risk, policy.weights.userValue, policy.weights.instability⟩ := rfl
      rw [all, urgency, risk, userValue, instability]
      simp only [plainWeight]
      ring_nf
    · have zero : scorePriority (ExactSignal.mk 0 0 0 1).signal = .finite 0 := by decide +kernel
      have other := scores ⟨0, 0, 0, 1⟩
      rw [score_of_nan isNan, zero] at other
      exact absurd (PyFloat.finite.inj (Option.some.inj other)) one_ne_zero
  · rintro ⟨⟨k, positive, weights⟩, q, threshold, lower, upper⟩ signal mutatesState
    have weighs : Weighs policy fun name => plainWeight name * (100 * k) := by
      intro name
      rw [weights]
      cases name with
      | _ =>
        simp only [PriorityWeights.get, plainWeight]
        ring_nf
    have whole : WeightedMean.total (fun name => plainWeight name * (100 * k)) WeightName.all = 100 * k := by
      have scaled : WeightedMean.total (fun name => plainWeight name * (100 * k)) WeightName.all =
          WeightedMean.total plainWeight WeightName.all * (100 * k) := List.sum_map_mul_right ..
      rw [scaled, total_plainWeight, one_mul]
    have nonneg : ∀ name ∈ WeightName.all, 0 ≤ plainWeight name * (100 * k) := by
      intro name _
      refine mul_nonneg ?_ (by linarith)
      cases name <;> norm_num [plainWeight]
    have shares : ∀ name, plainWeight name * (100 * k) =
        plainWeight name * WeightedMean.total (fun name => plainWeight name * (100 * k)) WeightName.all := by
      intro name
      rw [whole]
    obtain ⟨exact_, scoreOf, plainOf⟩ := exists_exact signal
    have scored := (score_plain_iff weighs nonneg (by rw [whole]; linarith)).mpr shares exact_
    rw [← scoreOf, ← plainOf] at scored
    have onGrid := scorePriority_exact exact_
    rw [← plainOf] at onGrid
    rw [route, scored, Option.map_some]
    refine ⟨_, rfl, ?_⟩
    have reflex : policy.reflexThreshold.le (scorePriority signal) =
        (PyFloat.finite (75 / 100)).le (scorePriority signal) := by
      rw [threshold, onGrid]
      exact decide_eq_decide.mpr (reflex_le_iff lower upper _)
    rw [reflex, Router.route]
    cases mutatesState with
    | true => exact ⟨rfl, rfl, rfl⟩
    | false =>
      simp only [Bool.false_eq_true, if_false]
      cases high : (PyFloat.finite (75 / 100)).le (scorePriority signal) with
      | true => simp [high]
      | false =>
        simp only [Bool.false_eq_true, if_false]
        split <;> simp [high]

/-- The policy of a configuration that says nothing about priorities presses more on
urgency than the fixed weights. -/
theorem routesAlike_unstated : ∃ policy, parsePriorityPolicy (.dict []) = .ok policy ∧ ¬ RoutesAlike policy := by
  have weighs : (match parsePriorityPolicy (.dict []) with
      | .ok policy => decide (policy.weights.urgency = .finite (35 / 100) ∧ policy.weights.risk = .finite (25 / 100))
      | .error _ => false) = true := by decide +kernel
  cases parsed : parsePriorityPolicy (.dict []) with
  | error e =>
    rw [parsed] at weighs
    cases weighs
  | ok policy =>
    rw [parsed] at weighs
    obtain ⟨urgency, risk⟩ := of_decide_eq_true weighs
    refine ⟨policy, rfl, fun alike => ?_⟩
    obtain ⟨⟨k, -, weights⟩, -⟩ := (routesAlike_iff parsed).mp alike
    rw [weights] at urgency risk
    have more : 30 * k = 35 / 100 := PyFloat.finite.inj urgency
    have less : 30 * k = 25 / 100 := PyFloat.finite.inj risk
    rw [more] at less
    norm_num at less

end ConfiguredPriorityScorer

end Centroid
