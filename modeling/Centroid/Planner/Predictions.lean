import Centroid.Lib.Smoothing
import Centroid.Planner.Forecast

namespace Centroid

open Rounding

theorem roundsToGrid_roundTo (places : ℕ) : Smoothing.RoundsToGrid (roundTo places) (1 / 10 ^ places : ℚ) where
  positive := by positivity
  mono _ _ le := roundTo_mono places le
  onGrid x := ⟨halfEven (x * 10 ^ places), by rw [roundTo, mul_one_div]⟩
  fixes n := by rw [mul_one_div, roundTo_of_decimal]
  close x := by
    refine (abs_roundTo_sub_le places x).trans (le_of_eq ?_)
    rw [div_right_comm]

/-- The arguments of one `generate`, with the identifiers and the time that it
draws. -/
structure GenerateCall where
  currentValues : Dict String ℚ
  calibration : CalibrationStore
  ids : IdSource
  position : ℕ
  now : ℚ

/-- The current value of a field, one half where there is none. -/
def GenerateCall.current (c : GenerateCall) (field : String) : ℚ := (c.currentValues.get? field).getD (1 / 2)

namespace ForecastGenerator

/-- The last prediction of a field. -/
def prediction (self : ForecastGenerator) (horizon : Horizon) (field : String) : ℚ :=
  ((self.lastPredictions horizon).get? field).getD (1 / 2)

/-- One step of a prediction. -/
def smoothed (alpha : ℚ) (currentValues : Dict String ℚ) (field : String) (last : ℚ) : ℚ :=
  Smoothing.smooth (roundTo 6) alpha ((currentValues.get? field).getD (1 / 2)) last

/-- Each field is smoothed once, from its own last prediction. -/
theorem foldl_predictField_spec (alpha : ℚ) (currentValues : Dict String ℚ) (calibration : CalibrationStore)
    (horizon : Horizon) {fields : List String} (distinct : fields.Nodup) (state : FieldState) (field : String) :
    let after := fields.foldl (predictField alpha currentValues calibration horizon) state
    let predicted := smoothed alpha currentValues field ((state.last.get? field).getD (1 / 2))
    after.last.get? field = (if field ∈ fields then some predicted else state.last.get? field) ∧
      after.predictions.get? field = if field ∈ fields then some predicted else state.predictions.get? field := by
  induction fields generalizing state with
  | nil => exact ⟨rfl, rfl⟩
  | cons first fields ih =>
    obtain ⟨fresh, restDistinct⟩ := List.nodup_cons.mp distinct
    obtain ⟨last, predictions⟩ := ih restDistinct (predictField alpha currentValues calibration horizon state first)
    rw [List.foldl_cons]
    dsimp only
    rw [last, predictions]
    by_cases here : first = field
    · subst here
      rw [if_neg fresh, if_neg fresh, if_pos List.mem_cons_self, if_pos List.mem_cons_self]
      simp only [predictField, Dict.get?_set_self]
      exact ⟨rfl, rfl⟩
    · simp only [predictField, Dict.get?_set_of_ne _ _ here, List.mem_cons, Ne.symm here, false_or, and_self]

section GenerateOne

variable (self : ForecastGenerator) (currentValues : Dict String ℚ) (calibration : CalibrationStore) (horizon : Horizon)
  (cycleDistance : ℕ) (forecastId : String) (now : ℚ)

theorem generateOne_prediction (distinct : self.fields.Nodup) (other : Horizon) (field : String) :
    (self.generateOne currentValues calibration horizon cycleDistance forecastId now).1.prediction other field =
      if other = horizon ∧ field ∈ self.fields then
        smoothed self.alpha currentValues field (self.prediction other field)
      else self.prediction other field := by
  have spec := (foldl_predictField_spec self.alpha currentValues calibration horizon distinct
    ⟨self.lastPredictions horizon, ∅, []⟩ field).1
  by_cases same : other = horizon
  · subst same
    simp only [generateOne, prediction, Function.update_self, true_and] at spec ⊢
    rw [spec]
    split <;> rfl
  · rw [if_neg fun both => same both.1]
    simp only [generateOne, prediction, Function.update_of_ne same]

theorem generateOne_predictions (distinct : self.fields.Nodup) (field : String) :
    (self.generateOne currentValues calibration horizon cycleDistance forecastId now).2.predictions.get? field =
      if field ∈ self.fields then
        some ((self.generateOne currentValues calibration horizon cycleDistance forecastId now).1.prediction horizon field)
      else none := by
  rw [self.generateOne_prediction _ _ _ _ _ _ distinct]
  have spec := (foldl_predictField_spec self.alpha currentValues calibration horizon distinct
    ⟨self.lastPredictions horizon, ∅, []⟩ field).2
  refine spec.trans ?_
  by_cases predicted : field ∈ self.fields
  · rw [if_pos predicted, if_pos predicted, if_pos ⟨rfl, predicted⟩]
    rfl
  · rw [if_neg predicted, if_neg predicted, Dict.get?_empty]

end GenerateOne

/-- One generation smooths the fields of the horizons in its table. -/
theorem generateFrom_smooths (currentValues : Dict String ℚ) (calibration : CalibrationStore) (ids : IdSource) (now : ℚ)
    {table : List (Horizon × ℕ)} (once : (table.map Prod.fst).Nodup) (position : ℕ) (self : ForecastGenerator)
    (distinct : self.fields.Nodup) :
    let result := generateFrom currentValues calibration ids now table position self
    result.1.fields = self.fields ∧ result.1.alpha = self.alpha ∧
      (∀ horizon field, result.1.prediction horizon field =
        if horizon ∈ table.map Prod.fst ∧ field ∈ self.fields then
          smoothed self.alpha currentValues field (self.prediction horizon field)
        else self.prediction horizon field) ∧
      ∀ forecast ∈ result.2, ∀ field, forecast.predictions.get? field =
        if field ∈ self.fields then some (result.1.prediction forecast.horizon field) else none := by
  induction table generalizing position self with
  | nil =>
    refine ⟨rfl, rfl, fun horizon field => ?_, fun _ none => absurd none List.not_mem_nil⟩
    rw [if_neg fun both => absurd both.1 List.not_mem_nil]
    rfl
  | cons row rest ih =>
    obtain ⟨horizon, distance⟩ := row
    obtain ⟨fresh, restOnce⟩ := List.nodup_cons.mp once
    obtain ⟨fields, alpha, predictions, forecasts⟩ := ih restOnce (position + 1)
      (self.generateOne currentValues calibration horizon distance (ids.draw position) now).1 distinct
    have first := self.generateOne_prediction currentValues calibration horizon distance (ids.draw position) now distinct
    refine ⟨fields, alpha, fun other field => ?_, List.forall_mem_cons.mpr ⟨fun field => ?_, forecasts⟩⟩
    · refine (predictions other field).trans ?_
      rw [first]
      simp only [List.map_cons, List.mem_cons]
      by_cases same : other = horizon
      · subst same
        rw [if_neg fun both => fresh both.1]
        simp
      · simp only [same, false_and, if_false, false_or]
        rfl
    · have alone := self.generateOne_predictions currentValues calibration horizon distance (ids.draw position) now
        distinct field
      refine alone.trans ?_
      split
      · refine congrArg some ?_
        exact ((predictions horizon field).trans (if_neg fun both => fresh both.1)).symm
      · rfl

/-- One call of `generate`. -/
def call (self : ForecastGenerator) (c : GenerateCall) : ForecastGenerator × List Forecast :=
  self.generate c.currentValues c.calibration c.ids c.position c.now

/-- The generator after some calls. -/
def after (self : ForecastGenerator) (calls : List GenerateCall) : ForecastGenerator :=
  calls.foldl (fun generator c => (generator.call c).1) self

theorem call_spec (self : ForecastGenerator) (distinct : self.fields.Nodup) (c : GenerateCall) :
    (self.call c).1.fields = self.fields ∧ (self.call c).1.alpha = self.alpha ∧
      (∀ horizon field, (self.call c).1.prediction horizon field =
        if field ∈ self.fields then smoothed self.alpha c.currentValues field (self.prediction horizon field)
        else self.prediction horizon field) ∧
      ∀ forecast ∈ (self.call c).2, ∀ field, forecast.predictions.get? field =
        if field ∈ self.fields then some ((self.call c).1.prediction forecast.horizon field) else none := by
  have once : (horizons.map Prod.fst).Nodup := by decide
  obtain ⟨fields, alpha, predictions, forecasts⟩ :=
    generateFrom_smooths c.currentValues c.calibration c.ids c.now once c.position self distinct
  refine ⟨fields, alpha, fun horizon field => (predictions horizon field).trans ?_, forecasts⟩
  have listed : horizon ∈ horizons.map Prod.fst := by cases horizon <;> decide
  simp only [listed, true_and]

theorem prediction_init (fields : List String) (alpha : ℚ) (horizon : Horizon) (field : String) :
    (init fields alpha).prediction horizon field = 1 / 2 := by
  have start : ((init fields alpha).lastPredictions horizon).get? field =
      (((fields.map fun f => (f, (1 / 2 : ℚ))).filter fun pair => pair.1 = field).getLast?).map Prod.snd :=
    Dict.get?_ofList _ field
  rw [prediction, start]
  cases last : ((fields.map fun f => (f, (1 / 2 : ℚ))).filter fun pair => pair.1 = field).getLast? with
  | none => rfl
  | some pair =>
    have member := List.mem_of_mem_filter (List.mem_of_getLast? last)
    obtain ⟨f, -, rfl⟩ := List.mem_map.mp member
    rfl

theorem after_append_singleton (self : ForecastGenerator) (calls : List GenerateCall) (c : GenerateCall) :
    self.after (calls ++ [c]) = ((self.after calls).call c).1 := by
  rw [after, List.foldl_append]
  rfl

/-- Neither the fields nor the factor ever change. -/
theorem after_fields (self : ForecastGenerator) (distinct : self.fields.Nodup) (calls : List GenerateCall) :
    (self.after calls).fields = self.fields ∧ (self.after calls).alpha = self.alpha := by
  induction calls using List.reverseRecOn with
  | nil => exact ⟨rfl, rfl⟩
  | append_singleton calls c ih =>
    obtain ⟨fields, alpha, -⟩ := (self.after calls).call_spec (ih.1 ▸ distinct) c
    rw [after_append_singleton]
    exact ⟨fields.trans ih.1, alpha.trans ih.2⟩

/-- What the predictions start with and a step keeps, they always have. -/
theorem prediction_keeps (Keeps : ℚ → Prop) {self : ForecastGenerator} (distinct : self.fields.Nodup)
    {horizon : Horizon} {field : String} (start : Keeps (self.prediction horizon field)) {calls : List GenerateCall}
    (step : ∀ c ∈ calls, ∀ last, Keeps last → Keeps (smoothed self.alpha c.currentValues field last)) :
    Keeps ((self.after calls).prediction horizon field) := by
  induction calls using List.reverseRecOn with
  | nil => exact start
  | append_singleton calls c ih =>
    have before := ih fun other member => step other (List.mem_append_left _ member)
    obtain ⟨fields, alpha⟩ := self.after_fields distinct calls
    obtain ⟨-, -, predictions, -⟩ := (self.after calls).call_spec (fields ▸ distinct) c
    rw [after_append_singleton, predictions, alpha]
    split
    · exact step c (by simp) _ before
    · exact before

/-- Every prediction is a decimal fraction of six places. -/
theorem exists_prediction_eq (fields : List String) (distinct : fields.Nodup) (alpha : ℚ) (calls : List GenerateCall)
    (horizon : Horizon) (field : String) :
    ∃ n : ℤ, ((init fields alpha).after calls).prediction horizon field = n * (1 / 10 ^ 6) := by
  have own : (init fields alpha).fields.Nodup := distinct
  refine prediction_keeps (fun q => ∃ n : ℤ, q = n * (1 / 10 ^ 6)) own ?_ ?_
  · rw [prediction_init]
    exact ⟨500000, by norm_num⟩
  · intro c _ last _
    exact (roundsToGrid_roundTo 6).onGrid _

/-- With a constant input a prediction is smoothed as often as there are calls. -/
theorem prediction_of_constant {self : ForecastGenerator} (distinct : self.fields.Nodup) (horizon : Horizon)
    {field : String} (predicted : field ∈ self.fields) {c : ℚ} {calls : List GenerateCall}
    (constant : ∀ call ∈ calls, call.current field = c) :
    (self.after calls).prediction horizon field =
      (Smoothing.smooth (roundTo 6) self.alpha c)^[calls.length] (self.prediction horizon field) := by
  induction calls using List.reverseRecOn with
  | nil => rfl
  | append_singleton calls call ih =>
    have before := ih fun other member => constant other (List.mem_append_left _ member)
    have last := constant call (by simp)
    obtain ⟨fields, alpha⟩ := self.after_fields distinct calls
    obtain ⟨-, -, predictions, -⟩ := (self.after calls).call_spec (fields ▸ distinct) call
    rw [after_append_singleton, predictions, if_pos (fields ▸ predicted), before, alpha, List.length_append,
      List.length_singleton, Function.iterate_succ_apply', smoothed]
    rw [GenerateCall.current] at last
    rw [last]

section Run

variable {fields : List String} {alpha : ℚ}

/-- A step of a reachable prediction goes towards the rounded input, and not
beyond. -/
theorem smoothed_mem_uIcc (distinct : fields.Nodup) (nonneg : 0 ≤ alpha) (le_one : alpha ≤ 1) (before : List GenerateCall)
    (c : GenerateCall) (horizon : Horizon) (field : String) :
    smoothed alpha c.currentValues field (((init fields alpha).after before).prediction horizon field) ∈
      Set.uIcc (((init fields alpha).after before).prediction horizon field) (roundTo 6 (c.current field)) := by
  apply Smoothing.smooth_mem_uIcc (roundsToGrid_roundTo 6) nonneg le_one
  obtain ⟨n, same⟩ := exists_prediction_eq fields distinct alpha before horizon field
  rw [same]
  exact (roundsToGrid_roundTo 6).fixes n

/-- From inputs between zero and one come predictions between zero and one. -/
theorem prediction_mem_unit (distinct : fields.Nodup) (nonneg : 0 ≤ alpha) (le_one : alpha ≤ 1) {calls : List GenerateCall}
    {field : String} (inputs : ∀ c ∈ calls, c.current field ∈ Set.Icc 0 1) (horizon : Horizon) :
    ((init fields alpha).after calls).prediction horizon field ∈ Set.Icc 0 1 := by
  have own : (init fields alpha).fields.Nodup := distinct
  refine prediction_keeps (fun q => q ∈ Set.Icc 0 1) own ?_ ?_
  · rw [prediction_init]
    constructor <;> norm_num
  · intro c member last inside
    have between := Smoothing.convex_mem_uIcc nonneg le_one (c.current field) last
    have unit := Set.uIcc_subset_Icc inside (inputs c member) between
    exact ⟨roundTo_nonneg 6 unit.1, roundTo_le_one 6 unit.2⟩

/-- For a constant input of six places a reachable prediction comes within the
distance at which the rounding stalls it, and stays there. -/
theorem exists_enough_calls (distinct : fields.Nodup) (positive : 0 < alpha) (le_one : alpha ≤ 1)
    (before : List GenerateCall) (horizon : Horizon) {field : String} (predicted : field ∈ fields) (n : ℤ) :
    ∃ enough, ∀ calls : List GenerateCall, (∀ c ∈ calls, c.current field = n / 10 ^ 6) → enough ≤ calls.length →
      |(((init fields alpha).after before).after calls).prediction horizon field - n / 10 ^ 6| ≤
        1 / 10 ^ 6 / (2 * alpha) := by
  have own : (init fields alpha).fields.Nodup := distinct
  obtain ⟨sameFields, sameAlpha⟩ := (init fields alpha).after_fields own before
  have here : ((init fields alpha).after before).fields.Nodup := sameFields ▸ distinct
  have configured : field ∈ ((init fields alpha).after before).fields := sameFields ▸ predicted
  obtain ⟨p, start⟩ := exists_prediction_eq fields distinct alpha before horizon field
  have reach : |(p : ℚ) * (1 / 10 ^ 6) - n * (1 / 10 ^ 6)| ≤
      1 / 10 ^ 6 / (2 * alpha) + (p - n).natAbs * (1 / 10 ^ 6) := by
    have stall : (0 : ℚ) ≤ 1 / 10 ^ 6 / (2 * alpha) := by positivity
    rw [← sub_mul, abs_mul, abs_of_pos (by positivity : (0 : ℚ) < 1 / 10 ^ 6), Nat.cast_natAbs]
    push_cast
    linarith
  refine ⟨(p - n).natAbs, fun calls constant long => ?_⟩
  have close := Smoothing.iterate_smooth_close (roundsToGrid_roundTo 6) positive le_one reach long
  rw [prediction_of_constant here horizon configured constant, sameAlpha]
  rw [← start, mul_one_div] at close
  exact close

/-- The predictions of a reachable generator follow their inputs. Each new one
lies between the one before and the rounded input, so that inputs between zero
and one keep them there. For a constant input of six places they come nearer
and nearer without crossing it, until the distance is below the one at which
the rounding stalls them. -/
theorem predictions_follow_inputs (distinct : fields.Nodup) (nonneg : 0 ≤ alpha) (le_one : alpha ≤ 1)
    (before : List GenerateCall) :
    let self := (init fields alpha).after before
    (∀ c, ∀ forecast ∈ (self.call c).2, ∀ field ∈ fields, ∃ predicted,
        forecast.predictions.get? field = some predicted ∧
          (self.call c).1.prediction forecast.horizon field = predicted ∧
          predicted ∈ Set.uIcc (self.prediction forecast.horizon field) (roundTo 6 (c.current field))) ∧
      (∀ field, (∀ c ∈ before, c.current field ∈ Set.Icc (0 : ℚ) 1) → ∀ horizon,
        self.prediction horizon field ∈ Set.Icc 0 1) ∧
      ∀ horizon, ∀ field ∈ fields, ∀ n : ℤ, 0 < alpha →
        let distance (generator : ForecastGenerator) := generator.prediction horizon field - n / 10 ^ 6
        (∀ c : GenerateCall, c.current field = n / 10 ^ 6 →
          |distance (self.call c).1| ≤ |distance self| ∧ 0 ≤ distance self * distance (self.call c).1) ∧
        ∃ enough, ∀ calls : List GenerateCall, (∀ c ∈ calls, c.current field = n / 10 ^ 6) → enough ≤ calls.length →
          |distance (self.after calls)| ≤ 1 / 10 ^ 6 / (2 * alpha) := by
  intro self
  have own : (init fields alpha).fields.Nodup := distinct
  have sameFields : self.fields = fields := ((init fields alpha).after_fields own before).1
  have sameAlpha : self.alpha = alpha := ((init fields alpha).after_fields own before).2
  have here : self.fields.Nodup := sameFields ▸ distinct
  refine ⟨fun c forecast listed field predicted => ?_, fun field inputs horizon => ?_, ?_⟩
  · obtain ⟨-, -, predictions, forecasts⟩ := self.call_spec here c
    have configured : field ∈ self.fields := sameFields ▸ predicted
    refine ⟨_, (forecasts forecast listed field).trans (if_pos configured), rfl, ?_⟩
    rw [predictions, if_pos configured, sameAlpha]
    exact smoothed_mem_uIcc distinct nonneg le_one before c _ _
  · exact prediction_mem_unit distinct nonneg le_one inputs horizon
  · intro horizon field predicted n positive distance
    have configured : field ∈ self.fields := sameFields ▸ predicted
    refine ⟨fun c input => ?_, ?_⟩
    · obtain ⟨-, -, predictions, -⟩ := self.call_spec here c
      have between := smoothed_mem_uIcc distinct nonneg le_one before c horizon field
      rw [input, roundTo_of_decimal] at between
      have nearer := Smoothing.nearer_of_mem_uIcc between
      simp only [distance, predictions, if_pos configured, sameAlpha]
      exact nearer
    · exact exists_enough_calls distinct positive le_one before horizon predicted n

end Run

/-- The load comes within two millionths of a constant input of nine tenths. -/
theorem predictions_follow_inputs_load :
    ∃ enough, ∀ calls : List GenerateCall, (∀ c ∈ calls, c.current "load" = 9 / 10) → enough ≤ calls.length →
      |((init ["load"] defaultAlpha).after calls).prediction .short "load" - 9 / 10| ≤ 1 / 10 ^ 6 / (2 * defaultAlpha) := by
  have distinct : ["load"].Nodup := by decide
  have nonneg : (0 : ℚ) ≤ defaultAlpha := by norm_num [defaultAlpha]
  have le_one : (defaultAlpha : ℚ) ≤ 1 := by norm_num [defaultAlpha]
  have positive : (0 : ℚ) < defaultAlpha := by norm_num [defaultAlpha]
  have input : ((900000 : ℤ) : ℚ) / 10 ^ 6 = 9 / 10 := by norm_num
  obtain ⟨enough, close⟩ := ((predictions_follow_inputs distinct nonneg le_one []).2.2 .short "load" (by simp) 900000
    positive).2
  rw [input] at close
  exact ⟨enough, close⟩

end ForecastGenerator

end Centroid
