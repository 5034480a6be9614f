import Centroid.SelfModel.ZScores

namespace Centroid

open Statistics

namespace DetectorCall

/-- The call with the observations of a pair on another scale. -/
def rescale (c : DetectorCall) (pair : String × String) (a b : ℚ) : DetectorCall :=
  { c with metrics := c.metrics.mapValues fun field v => if (c.sourceId, field) = pair then a * v + b else v }

theorem observation_rescale (c : DetectorCall) (pair : String × String) (a b : ℚ) (other : String × String) :
    (c.rescale pair a b).observation other =
      (c.observation other).map fun v => if other = pair then a * v + b else v := by
  rw [observation, rescale, observation]
  dsimp only
  by_cases own : c.sourceId = other.1
  · rw [if_pos own, if_pos own, Dict.get?_mapValues, own]
  · rw [if_neg own, if_neg own, Option.map_none]

theorem observations_rescale (calls : List DetectorCall) (pair : String × String) (a b : ℚ) (other : String × String) :
    observations (calls.map fun c => c.rescale pair a b) other =
      (observations calls other).map fun v => if other = pair then a * v + b else v := by
  rw [observations, observations, List.filterMap_map, List.map_filterMap]
  exact List.filterMap_congr fun c _ => c.observation_rescale pair a b other

end DetectorCall

namespace AnomalyDetector

/-- The severity of the last of some retained observations, by the squares of
distance and deviation. -/
def squaredSeverity (self : AnomalyDetector) (retained : List ℚ) (value : ℚ) : Option Severity :=
  if max self.minSamples 3 ≤ retained.length ∧ 0 < variance retained.dropLast ∧
      self.warnThreshold ^ 2 * variance retained.dropLast < (value - mean retained.dropLast) ^ 2 then
    some (if self.criticalThreshold ^ 2 * variance retained.dropLast < (value - mean retained.dropLast) ^ 2 then .critical
      else .warn)
  else none

section

variable {K : Type} [Field K] [LinearOrder K] (deviation : List ℚ → K) {self : AnomalyDetector} {retained : List ℚ}

theorem judgeIn_of_short (short : ¬ max self.minSamples 3 ≤ retained.length) (value : ℚ) :
    self.judgeIn deviation retained value = none := by
  have priorLength : retained.dropLast.length = retained.length - 1 := List.length_dropLast
  rw [judgeIn]
  by_cases cold : retained.length < self.minSamples
  · rw [if_pos cold]
  · have few : retained.dropLast.length < 2 := by omega
    rw [if_neg cold]
    dsimp only
    rw [if_pos few]

theorem judgeIn_of_long (long : max self.minSamples 3 ≤ retained.length) (value : ℚ) :
    self.judgeIn deviation retained value =
      let z := ((value - mean retained.dropLast : ℚ) : K) / deviation retained.dropLast
      if deviation retained.dropLast = 0 then none
      else if (self.criticalThreshold : K) < |z| then
        some (mean retained.dropLast, deviation retained.dropLast, z, .critical)
      else if (self.warnThreshold : K) < |z| then some (mean retained.dropLast, deviation retained.dropLast, z, .warn)
      else none := by
  have priorLength : retained.dropLast.length = retained.length - 1 := List.length_dropLast
  have warm : ¬ retained.length < self.minSamples := by omega
  have two : ¬ retained.dropLast.length < 2 := by omega
  rw [judgeIn, if_neg warm]
  dsimp only
  rw [if_neg two, mean]

end

/-- Scores are compared as squares are. -/
theorem judgeIn_stdev {self : AnomalyDetector} (nonneg : 0 ≤ self.warnThreshold)
    (ordered : self.warnThreshold ≤ self.criticalThreshold) (retained : List ℚ) (value : ℚ) :
    (self.judgeIn stdev retained value).map (fun judged => judged.2.2.2) = self.squaredSeverity retained value := by
  by_cases long : max self.minSamples 3 ≤ retained.length
  · rw [judgeIn_of_long stdev long, squaredSeverity]
    dsimp only
    by_cases spread : 0 < variance retained.dropLast
    · have deviates : stdev retained.dropLast ≠ 0 := by
        rw [ne_eq, stdev_eq_zero_iff]
        exact not_le.mpr spread
      have larger : self.warnThreshold ^ 2 * variance retained.dropLast ≤
          self.criticalThreshold ^ 2 * variance retained.dropLast :=
        mul_le_mul_of_nonneg_right (pow_le_pow_left₀ nonneg ordered 2) spread.le
      simp only [if_neg deviates, lt_abs_div_stdev_iff spread (nonneg.trans ordered), lt_abs_div_stdev_iff spread nonneg]
      by_cases isCritical : self.criticalThreshold ^ 2 * variance retained.dropLast < (value - mean retained.dropLast) ^ 2
      · rw [if_pos isCritical, if_pos ⟨long, spread, larger.trans_lt isCritical⟩, if_pos isCritical]
        rfl
      · rw [if_neg isCritical, if_neg isCritical]
        by_cases isWarn : self.warnThreshold ^ 2 * variance retained.dropLast < (value - mean retained.dropLast) ^ 2
        · rw [if_pos isWarn, if_pos ⟨long, spread, isWarn⟩]
          rfl
        · rw [if_neg isWarn, if_neg fun all => isWarn all.2.2]
          rfl
    · have constant : stdev retained.dropLast = 0 := (stdev_eq_zero_iff _).mpr (not_lt.mp spread)
      rw [if_pos constant, if_neg fun all => spread all.2.1]
      rfl
  · rw [judgeIn_of_short stdev long, squaredSeverity, if_neg fun all => long all.1]
    rfl

/-- The squares of distance and deviation are scaled alike. -/
theorem squaredSeverity_affine (self : AnomalyDetector) {a : ℚ} (positive : 0 < a) (b : ℚ) (retained : List ℚ) (value : ℚ) :
    self.squaredSeverity (retained.map fun x => a * x + b) (a * value + b) = self.squaredSeverity retained value := by
  by_cases long : 3 ≤ retained.length
  · have some : retained.dropLast ≠ [] := by
      rw [← List.length_pos_iff, List.length_dropLast]
      omega
    have square : (0 : ℚ) < a ^ 2 := by positivity
    have scaled (t : ℚ) : t ^ 2 * (a ^ 2 * variance retained.dropLast) < (a * value + b - (a * mean retained.dropLast + b)) ^ 2 ↔
        t ^ 2 * variance retained.dropLast < (value - mean retained.dropLast) ^ 2 := by
      have left : t ^ 2 * (a ^ 2 * variance retained.dropLast) = a ^ 2 * (t ^ 2 * variance retained.dropLast) := by ring
      have right : (a * value + b - (a * mean retained.dropLast + b)) ^ 2 =
          a ^ 2 * (value - mean retained.dropLast) ^ 2 := by ring
      rw [left, right]
      exact mul_lt_mul_iff_right₀ square
    have spread : 0 < a ^ 2 * variance retained.dropLast ↔ 0 < variance retained.dropLast := mul_pos_iff_of_pos_left square
    simp only [squaredSeverity, List.length_map, ← List.map_dropLast, mean_affine a b some, variance_affine a b some,
      scaled, spread]
  · have short : ¬ max self.minSamples 3 ≤ retained.length := by omega
    rw [squaredSeverity, squaredSeverity, List.length_map, if_neg fun all => short all.1, if_neg fun all => short all.1]

/-- Events with the severity of the squares: when there is one, that there is no
other, and when it is critical. -/
theorem events_of_severity {self : AnomalyDetector} {retained : List ℚ} {v : ℚ} {events : List (ScoredEvent ℝ)}
    (severities : events.map ScoredEvent.severity = (self.squaredSeverity retained v).toList) :
    let prior := retained.dropLast
    (events ≠ [] ↔ max self.minSamples 3 ≤ retained.length ∧ 0 < variance prior ∧
        self.warnThreshold ^ 2 * variance prior < (v - mean prior) ^ 2) ∧
      events.length ≤ 1 ∧
      ∀ e ∈ events, e.severity = .critical ↔ self.criticalThreshold ^ 2 * variance prior < (v - mean prior) ^ 2 := by
  intro prior
  rw [squaredSeverity] at severities
  split at severities
  · rename_i anomalous
    obtain ⟨e, rfl, severity⟩ := List.map_eq_singleton_iff.mp severities
    refine ⟨iff_of_true (List.cons_ne_nil _ _) anomalous, le_rfl, fun other member => ?_⟩
    rw [List.mem_singleton.mp member, severity]
    split
    · rename_i critical
      exact iff_of_true rfl critical
    · rename_i notCritical
      exact iff_of_false (by decide) notCritical
  · rename_i quiet
    rw [List.map_eq_nil_iff.mp severities]
    exact ⟨iff_of_false (fun some => some rfl) quiet, Nat.zero_le _, fun other member => absurd member List.not_mem_nil⟩

section

variable {warnThreshold criticalThreshold : ℚ} (minSamples window : ℕ)

/-- The value and the retained observations of a pair settle what is found. -/
theorem found_congr {calls calls' : List DetectorCall} {c c' : DetectorCall} {pair : String × String}
    (sameValue : c.observation pair = c'.observation pair)
    (sameWindow : (DetectorCall.observations (calls ++ [c]) pair).rtake window =
      (DetectorCall.observations (calls' ++ [c']) pair).rtake window) :
    (init warnThreshold criticalThreshold minSamples window).found stdev calls c pair =
      (init warnThreshold criticalThreshold minSamples window).found stdev calls' c' pair := by
  rw [found_eq, found_eq, ← sameValue]
  rw [DetectorCall.observations_append_singleton, DetectorCall.observations_append_singleton, ← sameValue] at sameWindow
  cases observed : c.observation pair with
  | none => rfl
  | some v =>
    rw [observed] at sameWindow
    dsimp only [Option.toList] at sameWindow ⊢
    rw [sameWindow]

/-- The severities that a call finds for a pair, by the squares. -/
theorem severities_found (nonneg : 0 ≤ warnThreshold) (ordered : warnThreshold ≤ criticalThreshold)
    (calls : List DetectorCall) (c : DetectorCall) (pair : String × String) :
    let detector := init warnThreshold criticalThreshold minSamples window
    (detector.found stdev calls c pair).map ScoredEvent.severity = match c.observation pair with
      | none => []
      | some v => (detector.squaredSeverity ((DetectorCall.observations (calls ++ [c]) pair).rtake window) v).toList := by
  intro detector
  rw [found_eq, DetectorCall.observations_append_singleton]
  cases c.observation pair with
  | none => rfl
  | some v =>
    have squares : (detector.judgeIn stdev ((DetectorCall.observations calls pair ++ [v]).rtake window) v).map
        (fun judged => judged.2.2.2) =
          detector.squaredSeverity ((DetectorCall.observations calls pair ++ [v]).rtake window) v :=
      judgeIn_stdev nonneg ordered _ v
    dsimp only [Option.toList]
    rw [← squares]
    dsimp only [scored]
    cases detector.judgeIn stdev ((DetectorCall.observations calls pair ++ [v]).rtake window) v <;> rfl

/-- Another scale for the observations of a pair changes no severity of any pair. -/
theorem severities_rescale (nonneg : 0 ≤ warnThreshold) (ordered : warnThreshold ≤ criticalThreshold) {a : ℚ}
    (positive : 0 < a) (b : ℚ) (calls : List DetectorCall) (c : DetectorCall) (pair other : String × String) :
    let detector := init warnThreshold criticalThreshold minSamples window
    (detector.found stdev (calls.map fun c => c.rescale pair a b) (c.rescale pair a b) other).map ScoredEvent.severity =
      (detector.found stdev calls c other).map ScoredEvent.severity := by
  intro detector
  have history : calls.map (fun c => c.rescale pair a b) ++ [c.rescale pair a b] =
      (calls ++ [c]).map fun c => c.rescale pair a b := by
    rw [List.map_append, List.map_singleton]
  rw [severities_found minSamples window nonneg ordered, severities_found minSamples window nonneg ordered, history,
    DetectorCall.observations_rescale, DetectorCall.observation_rescale, Window.rtake_map]
  by_cases own : other = pair
  · simp only [own, if_true]
    cases c.observation pair with
    | none => rfl
    | some v =>
      dsimp only [Option.map_some]
      rw [squaredSeverity_affine _ positive]
  · simp only [own, if_false, List.map_id', Option.map_id']

/-- What a detector finds for a pair depends on the last observations of the
pair alone. It finds an anomaly where enough of them are retained, those before
the last deviate from each other, and the last is far from their mean by the
squares. Another scale for the observations of a pair changes no severity. -/
theorem anomalies_by_own_window (nonneg : 0 ≤ warnThreshold) (ordered : warnThreshold ≤ criticalThreshold) :
    let found calls c pair :=
      (init warnThreshold criticalThreshold minSamples window).found Statistics.stdev calls c pair
    let retained calls c pair := (DetectorCall.observations (calls ++ [c]) pair).rtake window
    (∀ calls c calls' c' pair, c.observation pair = c'.observation pair →
        retained calls c pair = retained calls' c' pair → found calls c pair = found calls' c' pair) ∧
      (∀ calls c pair, c.observation pair = none → found calls c pair = []) ∧
      (∀ calls c pair v, c.observation pair = some v →
        let prior := (retained calls c pair).dropLast
        (found calls c pair ≠ [] ↔ max minSamples 3 ≤ (retained calls c pair).length ∧ 0 < variance prior ∧
            warnThreshold ^ 2 * variance prior < (v - mean prior) ^ 2) ∧
          (found calls c pair).length ≤ 1 ∧
          ∀ e ∈ found calls c pair,
            e.severity = .critical ↔ criticalThreshold ^ 2 * variance prior < (v - mean prior) ^ 2) ∧
      ∀ a b, 0 < a → ∀ calls c pair other,
        (found (calls.map fun c => c.rescale pair a b) (c.rescale pair a b) other).map ScoredEvent.severity =
          (found calls c other).map ScoredEvent.severity := by
  intro found retained
  refine ⟨?_, ?_, ?_, ?_⟩
  · intro calls c calls' c' pair sameValue sameWindow
    exact found_congr minSamples window sameValue sameWindow
  · intro calls c pair unseen
    dsimp only [found]
    rw [found_eq, unseen]
  · intro calls c pair v observed
    have severities := severities_found minSamples window nonneg ordered calls c pair
    rw [observed] at severities
    exact events_of_severity severities
  · intro a b positive calls c pair other
    exact severities_rescale minSamples window nonneg ordered positive b calls c pair other

end

/-- A reading of the load. -/
def loadReading (v : ℚ) : DetectorCall := ⟨"gpu", Dict.empty.set "load" v⟩

/-- Four loads with a deviation of one fifth, and one that is far from their
mean. -/
theorem anomalies_by_own_window_load :
    (init 2 (7 / 2) 5 20).found Statistics.stdev ([2 / 5, 2 / 5, 2 / 5, 0].map loadReading) (loadReading (4 / 5))
      ("gpu", "load") ≠ [] := by
  have nonneg : (0 : ℚ) ≤ 2 := by norm_num
  have ordered : (2 : ℚ) ≤ 7 / 2 := by norm_num
  have observed : (loadReading (4 / 5)).observation ("gpu", "load") = some (4 / 5) := rfl
  have far := ((anomalies_by_own_window 5 20 nonneg ordered).2.2.1 ([2 / 5, 2 / 5, 2 / 5, 0].map loadReading) _ _ _
    observed).1
  exact far.mpr (by decide +kernel)

end AnomalyDetector

end Centroid
