import Centroid.Planner.Forecast
import Centroid.Planner.PlanTree

namespace Centroid

/-- A single comparison of a prediction with what came. -/
structure FeedbackResult (F : Type := ℚ) where
  forecastId : String
  horizon : Horizon
  field : String
  predicted : F
  actual : F
  error : F
  calibrationUpdated : Bool

structure PendingForecast (F : Type := ℚ) where
  forecast : Forecast F
  registeredCycle : ℕ

structure ForecastFeedbackLoop (F : Type := ℚ) where
  calibration : CalibrationStore F
  planTree : PlanTree F
  pending : Dict String (PendingForecast F)
  cycle : ℕ

/-- Which writes of one call fail, counted for each of the two stores. -/
structure WriteFaults where
  calibration : ℕ → Bool
  planTree : ℕ → Bool

def WriteFaults.none : WriteFaults := ⟨fun _ => false, fun _ => false⟩

/-- The variables of `resolve`, with the stores and files that it changes and
the numbers of writes made so far. -/
structure ResolveState (F : Type := ℚ) where
  calibration : CalibrationStore F
  planTree : PlanTree F
  disk : Disk F
  calibrationWrites : ℕ
  planTreeWrites : ℕ
  results : List (FeedbackResult F)
  resolvedIds : List String

namespace ForecastFeedbackLoop

section

variable {F : Type} [Zero F] [One F] [Add F] [Sub F] [Mul F] [Div F] [NatCast F] [LT F] [DecidableLT F] [FloatLike F]
  [FloatSum F]

def init (calibration : CalibrationStore F) (planTree : PlanTree F) : ForecastFeedbackLoop F := ⟨calibration, planTree, ∅, 0⟩

/-- The number of unresolved forecasts. -/
def pendingCount (self : ForecastFeedbackLoop F) : ℕ := self.pending.size

def register (self : ForecastFeedbackLoop F) (forecast : Forecast F) : ForecastFeedbackLoop F :=
  { self with pending := self.pending.set forecast.forecastId ⟨forecast, self.cycle⟩ }

variable (faults : WriteFaults) (now : F)

/-- One turn of the loop over the predictions. A failed calibration write is
caught here. -/
def scoreField (actualValues : Dict String F) (forecastId : String) (forecast : Forecast F) (state : ResolveState F)
    (entry : String × F) : ResolveState F :=
  let actual := (actualValues.get? entry.1).getD entry.2
  let fails := faults.calibration state.calibrationWrites
  let (calibration, disk, updated) := state.calibration.update entry.1 forecast.horizon.name entry.2 actual state.disk fails
  { state with
    calibration := calibration
    disk := disk
    calibrationWrites := state.calibrationWrites + 1
    results := state.results ++
      [⟨forecastId, forecast.horizon, entry.1, entry.2, actual, FloatLike.roundTo 6 (actual - entry.2), updated.isSome⟩] }

/-- The mean errors on record for the fields of a forecast. -/
def recordedMaes (calibration : CalibrationStore F) (forecast : Forecast F) : List F :=
  forecast.predictions.keys.filterMap fun field => (calibration.get field forecast.horizon.name).map CalibrationRecord.mae

/-- The loop over the active threads. A failed plan tree write is not caught. -/
def refreshThreads (forecastId : String) (forecast : Forecast F) :
    List (PlanThread F) → ResolveState F → ResolveState F × Option PlanTreeError
  | [], state => (state, none)
  | thread :: rest, state =>
    if forecastId ∈ thread.forecastIds then
      let newConf := ForecastGenerator.confidenceOf (recordedMaes state.calibration forecast)
      let fails := faults.planTree state.planTreeWrites
      match state.planTree.updateConfidence thread.threadId newConf now state.disk fails with
      | (planTree, disk, outcome) =>
        let state := { state with planTree := planTree, disk := disk, planTreeWrites := state.planTreeWrites + 1 }
        match outcome with
        | .error e => (state, some e)
        | .ok _ => refreshThreads forecastId forecast rest state
    else refreshThreads forecastId forecast rest state

/-- The loop over the pending forecasts, at the given cycle. -/
def resolvePending (cycle : ℕ) (actualValues : Dict String F) :
    List (String × PendingForecast F) → ResolveState F → ResolveState F × Option PlanTreeError
  | [], state => (state, none)
  | (forecastId, pending) :: rest, state =>
    if cycle - pending.registeredCycle < pending.forecast.cycleDistance then resolvePending cycle actualValues rest state
    else
      let scored := pending.forecast.predictions.entries.foldl
        (scoreField faults actualValues forecastId pending.forecast) state
      match refreshThreads faults now forecastId pending.forecast scored.planTree.activeThreads scored with
      | (state, some e) => (state, some e)
      | (state, none) => resolvePending cycle actualValues rest { state with resolvedIds := state.resolvedIds ++ [forecastId] }

/-- The variables of `resolve` where its loop ends or is left. -/
def resolveLoop (self : ForecastFeedbackLoop F) (actualValues : Dict String F) (disk : Disk F) :
    ResolveState F × Option PlanTreeError :=
  resolvePending faults now (self.cycle + 1) actualValues self.pending.entries
    ⟨self.calibration, self.planTree, disk, 0, 0, [], []⟩

/-- `resolve`: the loop and the files afterwards and what the call returns or
raises. What it raises leaves before the resolved forecasts are removed. -/
def resolve (self : ForecastFeedbackLoop F) (actualValues : Dict String F) (disk : Disk F) :
    ForecastFeedbackLoop F × Disk F × Except PlanTreeError (List (FeedbackResult F)) :=
  match self.resolveLoop faults now actualValues disk with
  | (state, some e) =>
    ({ self with calibration := state.calibration, planTree := state.planTree, cycle := self.cycle + 1 }, state.disk,
      .error e)
  | (state, none) =>
    ({ self with
        calibration := state.calibration
        planTree := state.planTree
        pending := state.resolvedIds.foldl Dict.erase self.pending
        cycle := self.cycle + 1 }, state.disk, .ok state.results)

/-- What `resolve` leaves of the stores and the files is what its loop leaves. -/
theorem resolve_stores (self : ForecastFeedbackLoop F) (actualValues : Dict String F) (disk : Disk F) :
    (self.resolve faults now actualValues disk).1.calibration =
        (self.resolveLoop faults now actualValues disk).1.calibration ∧
      (self.resolve faults now actualValues disk).1.planTree = (self.resolveLoop faults now actualValues disk).1.planTree ∧
      (self.resolve faults now actualValues disk).2.1 = (self.resolveLoop faults now actualValues disk).1.disk := by
  unfold resolve
  rcases self.resolveLoop faults now actualValues disk with ⟨state, _ | e⟩
  · exact ⟨rfl, rfl, rfl⟩
  · exact ⟨rfl, rfl, rfl⟩

end

end ForecastFeedbackLoop

end Centroid
