import Centroid.Lib.FloatBounds
import Centroid.Planner.PlanLifecycle

namespace Centroid

open Rounding

namespace ForecastGenerator

section Generated

variable {F : Type} [Zero F] [One F] [Add F] [Sub F] [Mul F] [Div F] [NatCast F] [Max F] [Min F] [FloatLike F] [FloatSum F]

/-- The mean errors on record for some fields. -/
def maesOf (calibration : CalibrationStore F) (horizon : Horizon) (fields : List String) : List F :=
  fields.filterMap fun field => (calibration.get field horizon.name).map CalibrationRecord.mae

variable (currentValues : Dict String F) (calibration : CalibrationStore F)

omit [Zero F] [Div F] [NatCast F] [Max F] [Min F] [FloatSum F] in
/-- The loop over the fields takes the errors on record of each of them, also of
one that comes again. -/
theorem foldl_predictField_maes (alpha : F) (horizon : Horizon) (fields : List String) (state : FieldState F) :
    (fields.foldl (predictField alpha currentValues calibration horizon) state).maes =
      state.maes ++ maesOf calibration horizon fields := by
  induction fields generalizing state with
  | nil => exact (List.append_nil _).symm
  | cons first fields ih =>
    rw [List.foldl_cons, ih, predictField, maesOf, maesOf, List.filterMap_cons, List.append_assoc]
    cases (calibration.get first horizon.name).map CalibrationRecord.mae with
    | none => rfl
    | some mae => rfl

theorem generateOne_confidence (self : ForecastGenerator F) (horizon : Horizon) (cycleDistance : ℕ) (forecastId : String)
    (now : F) :
    (self.generateOne currentValues calibration horizon cycleDistance forecastId now).2.confidence =
      clipped (confidenceOf (maesOf calibration horizon self.fields)) := by
  have maes := foldl_predictField_maes currentValues calibration self.alpha horizon self.fields
    ⟨self.lastPredictions horizon, ∅, []⟩
  exact congrArg (fun maes => clipped (confidenceOf maes)) maes

theorem confidence_of_generateFrom {ids : IdSource} {now : F} {table : List (Horizon × ℕ)} {position : ℕ}
    {self : ForecastGenerator F} {generated : Forecast F}
    (member : generated ∈ (generateFrom currentValues calibration ids now table position self).2) :
    generated.confidence = clipped (confidenceOf (maesOf calibration generated.horizon self.fields)) := by
  induction table generalizing position self with
  | nil => cases member
  | cons entry rest ih =>
    obtain ⟨horizon, distance⟩ := entry
    rcases List.mem_cons.mp member with rfl | later
    · exact generateOne_confidence currentValues calibration self horizon distance (ids.draw position) now
    · have ofRest := ih later
      exact ofRest

end Generated

section Stored

variable [FloatSum PyFloat]

/-- The mean of the errors, where there are any, is a number that rounds into the unit interval. -/
def MeanInUnit (maes : List PyFloat) : Prop :=
  maes ≠ [] → ∃ mean, FloatSum.sum maes / maes.length = .finite mean ∧ -(4503599627 / 2 ^ 53) < mean ∧
    mean ≤ 1 + 1 / 2 / 10 ^ 6

omit [FloatSum PyFloat] in
/-- What is missing to one rounds into the unit interval exactly where the mean does. -/
theorem one_sub_in_unit_iff {mean : PyFloat} (kept : ∀ q, mean = .finite q → Binary64.nearest q = q) :
    0 ≤ FloatLike.roundTo 6 (1 - mean) ∧ FloatLike.roundTo 6 (1 - mean) ≤ 1 ↔
      ∃ m, mean = .finite m ∧ -(4503599627 / 2 ^ 53) < m ∧ m ≤ 1 + 1 / 2 / 10 ^ 6 := by
  cases mean with
  | finite m =>
    have difference : (1 : PyFloat) - .finite m = .ofRat (1 - m) := PyFloat.sub_finite 1 m
    rw [difference]
    by_cases small : |Binary64.nearest (1 - m)| < 2 ^ 1024
    · rw [PyFloat.ofRat_of_lt small, PyFloat.roundTo_finite, PyFloat.roundTo_in_unit_iff, roundTo_nonneg_iff,
        roundTo_le_one_iff (by decide), Binary64.le_nearest_one_sub_iff (kept m rfl), Binary64.nearest_le_one_add_iff]
      have shifted : 1 - m < Binary64.aboveOne ↔ -(4503599627 / 2 ^ 53) < m := by
        rw [Binary64.aboveOne]
        constructor
        · intro
          linarith
        · intro
          linarith
      rw [shifted]
      constructor
      · rintro ⟨upper, lower⟩
        exact ⟨m, rfl, lower, upper⟩
      · rintro ⟨_, ⟨⟩, lower, upper⟩
        exact ⟨upper, lower⟩
    · have infinite : FloatLike.roundTo 6 (PyFloat.ofRat (1 - m)) = .ofRat (1 - m) := by
        rw [PyFloat.ofRat, if_neg small]
        rfl
      rw [infinite]
      refine iff_of_false (PyFloat.not_in_unit_of_overflow small) ?_
      rintro ⟨_, ⟨⟩, lower, upper⟩
      have near : |1 - m| ≤ 2 ^ 1 := by
        rw [abs_le]
        constructor <;> linarith
      exact small ((Binary64.abs_nearest_le near).trans_lt (pow_lt_pow_right₀ one_lt_two (by decide)))
  | nan =>
    refine iff_of_false ?_ ?_
    · rintro ⟨lower, -⟩
      cases lower
    · rintro ⟨_, number, -⟩
      cases number
  | infinity negative =>
    refine iff_of_false ?_ ?_
    · rintro ⟨lower, upper⟩
      cases negative with
      | true => cases upper
      | false => cases lower
    · rintro ⟨_, number, -⟩
      cases number

theorem confidence_in_unit_iff (maes : List PyFloat) :
    0 ≤ FloatLike.roundTo 6 (confidenceOf maes) ∧ FloatLike.roundTo 6 (confidenceOf maes) ≤ 1 ↔ MeanInUnit maes := by
  rw [confidenceOf, MeanInUnit]
  cases maes with
  | nil =>
    have half : 0 ≤ FloatLike.roundTo 6 (FloatLike.literal (1 / 2) : PyFloat) ∧
        FloatLike.roundTo 6 (FloatLike.literal (1 / 2) : PyFloat) ≤ 1 := by decide +kernel
    exact ⟨fun _ someHistory => absurd rfl someHistory, fun _ => half⟩
  | cons mae maes =>
    refine (one_sub_in_unit_iff fun q => PyFloat.nearest_of_div).trans ?_
    exact ⟨fun within _ => within, fun within => within (List.cons_ne_nil mae maes)⟩

/-- Naming the fields in another order, or one of them again, does not shift what the generator is
confident of. -/
def Unskewed (self : ForecastGenerator PyFloat) (calibration : CalibrationStore PyFloat) (forecast : Forecast PyFloat) : Prop :=
  clipped (confidenceOf (maesOf calibration forecast.horizon self.fields)) =
    clipped (confidenceOf (ForecastFeedbackLoop.recordedMaes calibration forecast))

theorem unskewed_of_fields {self : ForecastGenerator PyFloat} {forecast : Forecast PyFloat}
    (same : self.fields = forecast.predictions.keys) (calibration : CalibrationStore PyFloat) :
    self.Unskewed calibration forecast := by
  rw [Unskewed, same]
  rfl

end Stored

end ForecastGenerator

namespace ForecastFeedbackLoop

open ForecastGenerator

section Stored

variable [FloatSum PyFloat]

omit [FloatSum PyFloat] in
/-- The confidence of an active thread once it is updated is the one computed,
rounded. -/
theorem refreshed_confidence {faults : WriteFaults} {now : PyFloat} {state : ResolveState PyFloat} {threadId : String}
    (active : state.planTree.ActiveIn threadId) (newConf : PyFloat) :
    ∃ thread, (refreshed faults now state threadId newConf).planTree.threads.get? threadId = some thread ∧
      thread.confidence = FloatLike.roundTo 6 newConf := by
  obtain ⟨thread, found, -⟩ := active
  refine ⟨state.planTree.refresh thread newConf now, ?_, rfl⟩
  rw [refreshed, PlanTree.get?_updateConfidence, if_pos rfl, found, Option.map_some]

/-- The rounded confidence is what a generator gives exactly where it is in the unit interval and the
order of the fields and their repetition do not matter. -/
theorem confidence_eq_generated_iff {currentValues : Dict String PyFloat} {calibration : CalibrationStore PyFloat}
    {generator : ForecastGenerator PyFloat} {ids : IdSource} {position : ℕ} {time : PyFloat}
    {forecast generated : Forecast PyFloat}
    (member : generated ∈ (generator.generate currentValues calibration ids position time).2)
    (sameHorizon : generated.horizon = forecast.horizon) :
    FloatLike.roundTo 6 (confidenceOf (recordedMaes calibration forecast)) = generated.confidence ↔
      MeanInUnit (recordedMaes calibration forecast) ∧ generator.Unskewed calibration forecast := by
  have confidence := confidence_of_generateFrom currentValues calibration member
  rw [confidence, sameHorizon, Unskewed, ← confidence_in_unit_iff, ← PyFloat.round_eq_round_clip_iff]
  constructor
  · intro same
    have within : FloatLike.roundTo 6 (confidenceOf (recordedMaes calibration forecast)) =
        clipped (confidenceOf (recordedMaes calibration forecast)) := by
      rw [clipped, PyFloat.round_eq_round_clip_iff, same]
      exact PyFloat.round_clip_in_unit _
    exact ⟨within, same.symm.trans within⟩
  · rintro ⟨within, unskewed⟩
    exact within.trans unskewed.symm

/-- Each confidence that a resolution stores in a linked thread is in the unit interval
exactly where the mean error on record is, and is the one that a generator gives to
a forecast of the same horizon and fields exactly where, besides, the order in which the generator
names the fields, or one of them again, does not shift that. -/
theorem linked_confidence_iff (faults : WriteFaults) (now : PyFloat) (actualValues : Dict String PyFloat)
    (self : ForecastFeedbackLoop PyFloat) (disk : Disk PyFloat) :
    self.EachUpdate faults now actualValues (fun state forecast threadId =>
      let maes := recordedMaes state.calibration forecast
      state.planTree.ActiveIn threadId →
        ∃ thread, (refreshed faults now state threadId (confidenceOf maes)).planTree.threads.get? threadId = some thread ∧
          (0 ≤ thread.confidence ∧ thread.confidence ≤ 1 ↔ MeanInUnit maes) ∧
          ∀ (generator : ForecastGenerator PyFloat) currentValues ids position time,
            ∀ generated ∈ (generator.generate currentValues state.calibration ids position time).2,
              generated.horizon = forecast.horizon →
              (thread.confidence = generated.confidence ↔
                MeanInUnit maes ∧ generator.Unskewed state.calibration forecast) ∧
              (generator.fields = forecast.predictions.keys → generator.Unskewed state.calibration forecast)) disk := by
  refine resolvesHold_of_forall faults now actualValues (fun state forecast threadId active => ?_) _ _ _
  obtain ⟨thread, stored, confidence⟩ := refreshed_confidence active (confidenceOf (recordedMaes state.calibration forecast))
  refine ⟨thread, stored, ?_, ?_⟩
  · rw [confidence]
    exact confidence_in_unit_iff _
  · intro generator currentValues ids position time generated member sameHorizon
    rw [confidence]
    exact ⟨confidence_eq_generated_iff member sameHorizon, fun same => unskewed_of_fields same state.calibration⟩

end Stored

section Failing

attribute [local instance] PyFloat.leftSum

/-- An active thread that is linked to a forecast of the load. -/
def linkedTree : PlanTree PyFloat :=
  (⟨.ofRat (1 / 5), "state/plan_tree.json", ∅, PlanTree.keyed_empty⟩ : PlanTree PyFloat).setThread
    ⟨"t0", "keep the load low", [], .active, .ofRat (9 / 10), 0, 0, ["f0"]⟩

/-- The loop that waits for that forecast. -/
def linkedLoop : ForecastFeedbackLoop PyFloat :=
  (init ⟨"state/calibration.json", ∅⟩ linkedTree).register
    ⟨.short, 1, Dict.empty.set "load" (.finite (1 / 2)), .finite (1 / 2), 0, "f0"⟩

/-- A load of 5/2 where 1/2 is predicted leaves the linked thread a confidence of minus
one, and a forecast of the load one of zero. -/
theorem negative_linked_confidence :
    let resolved := (linkedLoop.resolve .none 1 (Dict.empty.set "load" (.finite (5 / 2))) fun _ => .missing).1
    (resolved.planTree.threads.get? "t0").map PlanThread.confidence = some (.finite (-1)) ∧
      ∀ ids, ∃ generated ∈ ((ForecastGenerator.init ["load"]).generate ∅ resolved.calibration ids 0 0).2,
        generated.horizon = .short ∧ generated.predictions.keys = ["load"] ∧ generated.confidence = 0 := by
  refine ⟨by decide +kernel, fun ids => ⟨_, List.mem_cons_self, rfl, rfl, ?_⟩⟩
  refine (generateOne_confidence ∅ _ (ForecastGenerator.init ["load"]) .short 1 (ids.draw 0) 0).trans ?_
  decide +kernel

end Failing

end ForecastFeedbackLoop

end Centroid
