import Centroid.Coherence.CoherenceIndex
import Centroid.Planner.FeedbackLoop
import Centroid.SelfModel.Model

namespace Centroid

/-- A recorded error: the step that raised and the text of the exception. -/
inductive CycleError where
  | sensory (exc : String)
  | selfModel (exc : String)
  | coherence (exc : String)
  | forecast (exc : String)
  | feedback (error : PlanTreeError)
  | memory (exc : String)

structure CycleResult where
  cycleNumber : ℕ
  startedAt : ℚ
  completedAt : ℚ
  durationS : ℚ
  selfModelSnapshot : Option WorldSnapshot
  coherenceReport : Option CoherenceReport
  forecasts : Option (List Forecast)
  feedbackResults : Option (List FeedbackResult)
  anomalyCount : ℕ
  errors : List CycleError

/-- The event that a cycle appends to the memory store. -/
structure CycleEvent where
  cycle : ℕ
  durationS : ℚ
  coherenceIndex : Option ℚ
  anomalyCount : ℕ
  timestamp : ℚ

/-- What the components outside the planner do in one cycle, and which writes
of the planner fail. -/
structure CycleEnvironment where
  startedAt : ℚ
  completedAt : ℚ
  sensoryScan : Except String Unit
  selfModelTick : Except String WorldSnapshot
  coherenceTick : Except String CoherenceReport
  memoryAppend : Except String Unit
  faults : WriteFaults

/-- The calibration store that a runner passes to the forecast generator: none,
the one of its feedback loop, or another one. -/
inductive CalibrationRef where
  | absent
  | ofLoop
  | own (store : CalibrationStore)

/-- A runner with its optional components. `drawn` counts the identifiers
drawn for forecasts. -/
structure CycleRunner where
  memoryStore : Option (List CycleEvent)
  selfModel : Bool
  coherenceGraph : Bool
  forecastGenerator : Option ForecastGenerator
  feedbackLoop : Option ForecastFeedbackLoop
  sensoryPipeline : Bool
  calibrationStore : CalibrationRef
  drawn : ℕ

namespace CycleRunner

/-- `_current_values`. -/
def currentValues : Option WorldSnapshot → Dict String ℚ
  | none => ∅
  | some snapshot => snapshot.nodeHealth.set "system_health_ratio" snapshot.systemHealthRatio

def calibration? (self : CycleRunner) : Option CalibrationStore :=
  match self.calibrationStore with
  | .absent => none
  | .ofLoop => self.feedbackLoop.map ForecastFeedbackLoop.calibration
  | .own store => some store

/-- `generate` with the store that there is. Without one it raises at the
first field, which it has then already smoothed. -/
def generate (generator : ForecastGenerator) (values : Dict String ℚ) (calibration : Option CalibrationStore)
    (ids : IdSource) (position : ℕ) (now : ℚ) : ForecastGenerator × Except String (List Forecast) :=
  match calibration, generator.fields with
  | none, field :: _ =>
    let state := ForecastGenerator.predictField generator.alpha values ⟨"", ∅⟩ .short
      ⟨generator.lastPredictions .short, ∅, []⟩ field
    ({ generator with lastPredictions := Function.update generator.lastPredictions .short state.last },
      .error "'NoneType' object has no attribute 'get'")
  | store, _ =>
    let (generator, forecasts) := generator.generate values (store.getD ⟨"", ∅⟩) ids position now
    (generator, .ok forecasts)

/-- The step of generation and registration. -/
def forecastStep (self : CycleRunner) (ids : IdSource) (values : Dict String ℚ) (now : ℚ) :
    CycleRunner × Option (List Forecast) × List CycleError :=
  match self.forecastGenerator with
  | none => (self, none, [])
  | some generator =>
    match generate generator values self.calibration? ids self.drawn now with
    | (generator, .error exc) => ({ self with forecastGenerator := some generator }, none, [.forecast exc])
    | (generator, .ok forecasts) =>
      ({ self with
          forecastGenerator := some generator
          feedbackLoop := self.feedbackLoop.map fun loop => forecasts.foldl ForecastFeedbackLoop.register loop
          drawn := self.drawn + forecasts.length }, some forecasts, [])

/-- The step of resolution. The call with a cycle number does not fit the
signature of the loop and changes nothing; the call without it is made then. -/
def feedbackStep (self : CycleRunner) (values : Dict String ℚ) (faults : WriteFaults) (now : ℚ) (disk : Disk ℚ) :
    CycleRunner × Disk ℚ × Option (List FeedbackResult) × List CycleError :=
  match self.feedbackLoop with
  | none => (self, disk, none, [])
  | some loop =>
    match loop.resolve faults now values disk with
    | (loop, disk, .error e) => ({ self with feedbackLoop := some loop }, disk, none, [.feedback e])
    | (loop, disk, .ok results) => ({ self with feedbackLoop := some loop }, disk, some results, [])

/-- A component that is asked only when it is there, and whose exception is
recorded. -/
def guarded {α : Type} (configured : Bool) (outcome : Except String α) (record : String → CycleError) :
    Option α × List CycleError :=
  if configured then
    match outcome with
    | .ok value => (some value, [])
    | .error exc => (none, [record exc])
  else (none, [])

def run (self : CycleRunner) (ids : IdSource) (cycleNumber : ℕ) (env : CycleEnvironment) (disk : Disk ℚ) :
    CycleRunner × Disk ℚ × CycleResult :=
  let (_, sensoryErrors) := guarded (self.sensoryPipeline && cycleNumber = 0) env.sensoryScan .sensory
  let (snapshot, selfModelErrors) := guarded self.selfModel env.selfModelTick .selfModel
  let anomalyCount := snapshot.elim 0 WorldSnapshot.anomalyCount
  let values := currentValues snapshot
  let (report, coherenceErrors) := guarded self.coherenceGraph env.coherenceTick .coherence
  let (self, forecasts, forecastErrors) := self.forecastStep ids values env.startedAt
  let (self, disk, feedbackResults, feedbackErrors) := self.feedbackStep values env.faults env.startedAt disk
  let durationS := if max 0 (env.completedAt - env.startedAt) = 0 then 1 / 10 ^ 9
    else max 0 (env.completedAt - env.startedAt)
  let event : CycleEvent := ⟨cycleNumber, durationS, report.map CoherenceReport.coherenceIndex, anomalyCount, env.completedAt⟩
  let (appended, memoryErrors) := guarded self.memoryStore.isSome env.memoryAppend .memory
  let memoryStore := if appended.isSome then self.memoryStore.map (· ++ [event]) else self.memoryStore
  ({ self with memoryStore := memoryStore }, disk,
    { cycleNumber := cycleNumber
      startedAt := env.startedAt
      completedAt := env.completedAt
      durationS := durationS
      selfModelSnapshot := snapshot
      coherenceReport := report
      forecasts := forecasts
      feedbackResults := feedbackResults
      anomalyCount := anomalyCount
      errors := sensoryErrors ++ selfModelErrors ++ coherenceErrors ++ forecastErrors ++ feedbackErrors ++ memoryErrors })

end CycleRunner

end Centroid
