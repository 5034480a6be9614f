import Centroid.Planner.Calibration

namespace Centroid

inductive Horizon where
  | short
  | medium
  | long
  deriving DecidableEq

def Horizon.name : Horizon → String
  | .short => "short"
  | .medium => "medium"
  | .long => "long"

/-- `HORIZONS`, in the order of the table. -/
def horizons : List (Horizon × ℕ) := [(.short, 1), (.medium, 5), (.long, 20)]

/-- A single horizon forecast for a set of metric fields. -/
structure Forecast (F : Type := ℚ) where
  horizon : Horizon
  cycleDistance : ℕ
  predictions : Dict String F
  confidence : F
  generatedAt : F
  forecastId : String

structure ForecastGenerator (F : Type := ℚ) where
  fields : List String
  alpha : F
  lastPredictions : Horizon → Dict String F

/-- Identifiers as they are drawn one after the other, never the same twice. -/
structure IdSource where
  draw : ℕ → String
  injective : Function.Injective draw

section

variable {F : Type} [Zero F] [One F] [Add F] [Sub F] [Mul F] [Div F] [NatCast F] [Max F] [Min F] [FloatLike F] [FloatSum F]

def defaultAlpha : F := FloatLike.literal (3 / 10)

namespace ForecastGenerator

def init (fields : List String) (alpha : F := defaultAlpha) : ForecastGenerator F :=
  ⟨fields, alpha, fun _ => .ofList (fields.map fun f => (f, FloatLike.literal (1 / 2)))⟩

/-- The variables of the loop over the fields. -/
structure FieldState (F : Type := ℚ) where
  last : Dict String F
  predictions : Dict String F
  maes : List F

/-- One turn of the loop over the fields, exponential smoothing included. -/
def predictField (alpha : F) (currentValues : Dict String F) (calibration : CalibrationStore F) (horizon : Horizon)
    (state : FieldState F) (field : String) : FieldState F :=
  let current := (currentValues.get? field).getD (FloatLike.literal (1 / 2))
  let last := (state.last.get? field).getD (FloatLike.literal (1 / 2))
  let predicted := FloatLike.roundTo 6 (alpha * current + (1 - alpha) * last)
  { last := state.last.set field predicted
    predictions := state.predictions.set field predicted
    maes := state.maes ++ ((calibration.get field horizon.name).map CalibrationRecord.mae).toList }

/-- The mean error as a confidence, one half without history. -/
def confidenceOf (maes : List F) : F :=
  if maes.isEmpty then FloatLike.literal (1 / 2) else 1 - FloatSum.sum maes / maes.length

/-- The clip of a confidence to the unit interval, rounded. -/
def clipped (confidence : F) : F := FloatLike.roundTo 6 (max 0 (min 1 confidence))

def generateOne (self : ForecastGenerator F) (currentValues : Dict String F) (calibration : CalibrationStore F)
    (horizon : Horizon) (cycleDistance : ℕ) (forecastId : String) (now : F) : ForecastGenerator F × Forecast F :=
  let state := self.fields.foldl (predictField self.alpha currentValues calibration horizon)
    ⟨self.lastPredictions horizon, ∅, []⟩
  ({ self with lastPredictions := Function.update self.lastPredictions horizon state.last },
    { horizon := horizon
      cycleDistance := cycleDistance
      predictions := state.predictions
      confidence := clipped (confidenceOf state.maes)
      generatedAt := now
      forecastId := forecastId })

/-- The loop over the horizons, drawing identifiers from a position on. -/
def generateFrom (currentValues : Dict String F) (calibration : CalibrationStore F) (ids : IdSource) (now : F) :
    List (Horizon × ℕ) → ℕ → ForecastGenerator F → ForecastGenerator F × List (Forecast F)
  | [], _, self => (self, [])
  | (horizon, distance) :: rest, position, self =>
    let (self, forecast) := self.generateOne currentValues calibration horizon distance (ids.draw position) now
    let (self, forecasts) := generateFrom currentValues calibration ids now rest (position + 1) self
    (self, forecast :: forecasts)

def generate (self : ForecastGenerator F) (currentValues : Dict String F) (calibration : CalibrationStore F)
    (ids : IdSource) (position : ℕ) (now : F) : ForecastGenerator F × List (Forecast F) :=
  generateFrom currentValues calibration ids now horizons position self

omit [Zero F] [Div F] [NatCast F] [Max F] [Min F] [FloatSum F] in
/-- The loop over the fields predicts each of them. -/
theorem foldl_predictField_keys (alpha : F) (values : Dict String F) (calibration : CalibrationStore F) (horizon : Horizon)
    (fields : List String) (state : FieldState F) (field : String) :
    field ∈ (fields.foldl (predictField alpha values calibration horizon) state).predictions.keys ↔
      field ∈ fields ∨ field ∈ state.predictions.keys := by
  induction fields generalizing state with
  | nil => simp
  | cons f fields ih =>
    rw [List.foldl_cons, ih, predictField]
    dsimp only
    rw [Dict.keys_set, List.mem_cons]
    split
    · rename_i present
      constructor
      · exact fun member => member.elim (fun inside => Or.inl (Or.inr inside)) Or.inr
      · rintro ((same | inside) | old)
        · exact Or.inr (same ▸ present)
        · exact Or.inl inside
        · exact Or.inr old
    · rw [List.mem_append, List.mem_singleton]
      tauto

/-- The forecasts of one generation carry the identifiers drawn for it, one
for each horizon in the order of the table. -/
theorem generateFrom_spec (values : Dict String F) (calibration : CalibrationStore F) (ids : IdSource) (now : F)
    (table : List (Horizon × ℕ)) (position : ℕ) (self : ForecastGenerator F) :
    let result := generateFrom values calibration ids now table position self
    result.1.fields = self.fields ∧
      result.2.map Forecast.forecastId = (List.range' position table.length).map ids.draw ∧
      result.2.map (fun f => (f.horizon, f.cycleDistance)) = table ∧
      ∀ f ∈ result.2, ∀ field, field ∈ f.predictions.keys ↔ field ∈ self.fields := by
  induction table generalizing position self with
  | nil => exact ⟨rfl, rfl, rfl, by simp [generateFrom]⟩
  | cons row rest ih =>
    obtain ⟨horizon, distance⟩ := row
    obtain ⟨fields, drawn, rows, predicted⟩ :=
      ih (position + 1) (self.generateOne values calibration horizon distance (ids.draw position) now).1
    refine ⟨fields, ?_, ?_, List.forall_mem_cons.mpr ⟨fun field => ?_, predicted⟩⟩
    · rw [List.length_cons, List.range'_succ, List.map_cons, ← drawn]
      rfl
    · exact congrArg (List.cons (horizon, distance)) rows
    · have none : field ∉ (∅ : Dict String F).keys := List.not_mem_nil
      exact (foldl_predictField_keys self.alpha values calibration horizon self.fields
        ⟨self.lastPredictions horizon, ∅, []⟩ field).trans (or_iff_left none)

end ForecastGenerator

end

end Centroid
