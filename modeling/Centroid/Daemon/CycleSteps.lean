import Centroid.Daemon.Cycle
import Centroid.Lib.Faulty

namespace Centroid

structure PyException where
  isTypeError : Bool
  text : String

inductive CycleStep where
  | sensory
  | selfModel
  | coherence
  | forecast
  | feedback
  | memory
  deriving DecidableEq

namespace CycleStep

/-- The name under which the errors of a step are recorded. -/
def name : CycleStep → String
  | .sensory => "sensory"
  | .selfModel => "self_model"
  | .coherence => "coherence"
  | .forecast => "forecast"
  | .feedback => "feedback"
  | .memory => "memory"

/-- The place of a step in a cycle. -/
def place : CycleStep → ℕ
  | .sensory => 0
  | .selfModel => 1
  | .coherence => 2
  | .forecast => 3
  | .feedback => 4
  | .memory => 5

def all : List CycleStep := [.sensory, .selfModel, .coherence, .forecast, .feedback, .memory]

def entry (step : CycleStep) (exc : PyException) : String := step.name ++ ": " ++ exc.text

end CycleStep

/-- A call that a cycle makes on one of its components. -/
inductive ComponentCall where
  | runStartupScan
  | selfModelTick
  | mkdirState
  | coherenceTick
  | generate
  | register (forecastId : String)
  | resolveWithCycle
  | resolve
  | append (event : CycleEvent)

/-- The step that makes a call. -/
def ComponentCall.step : ComponentCall → CycleStep
  | .runStartupScan => .sensory
  | .selfModelTick => .selfModel
  | .mkdirState => .coherence
  | .coherenceTick => .coherence
  | .generate => .forecast
  | .register _ => .forecast
  | .resolveWithCycle => .feedback
  | .resolve => .feedback
  | .append _ => .memory

structure CallRecord where
  call : ComponentCall
  raised : Option PyException

/-- The forecasts that a feedback loop waits for, and its cycle counter. -/
structure LoopState where
  pending : Dict String PendingForecast
  cycle : ℕ

/-- The feedback loop, all else that the components keep, and the calls made so
far. -/
structure DaemonState (World : Type) where
  loop : LoopState
  world : World
  calls : List CallRecord

/-- The components of a runner that are there. -/
structure ConfiguredSteps where
  memoryStore : Bool
  selfModel : Bool
  coherenceGraph : Bool
  forecastGenerator : Bool
  feedbackLoop : Bool
  sensoryPipeline : Bool

/-- The steps that a run with the given number makes. -/
def ConfiguredSteps.includes (self : ConfiguredSteps) (cycleNumber : ℕ) : CycleStep → Bool
  | .sensory => cycleNumber = 0 && self.sensoryPipeline
  | .selfModel => self.selfModel
  | .coherence => self.coherenceGraph
  | .forecast => self.forecastGenerator
  | .feedback => self.feedbackLoop
  | .memory => self.memoryStore

/-- What the components do in one run, each with the state that it finds, and
the readings of the clock. Of `resolve` it is all that follows the increment of
the counter. -/
structure CycleActions (World : Type) where
  startedAt : ℚ
  completedAt : ℚ
  runStartupScan : World → Except PyException Unit × World
  selfModelTick : World → Except PyException WorldSnapshot × World
  mkdirState : World → Except PyException Unit × World
  coherenceTick : World → Except PyException CoherenceReport × World
  generate : Dict String ℚ → World → Except PyException (List Forecast) × World
  resolveBody : Dict String ℚ → LoopState → World →
    Except PyException (List FeedbackResult) × Dict String PendingForecast × World
  append : CycleEvent → World → Except PyException Unit × World

/-- What a run returns. -/
structure CycleOutcome where
  cycleNumber : ℕ
  startedAt : ℚ
  completedAt : ℚ
  durationS : ℚ
  selfModelSnapshot : Option WorldSnapshot
  coherenceReport : Option CoherenceReport
  forecasts : Option (List Forecast)
  feedbackResults : Option (List FeedbackResult)
  anomalyCount : ℕ
  errors : List String

namespace CycleSteps

variable {World α : Type}

def raisedBy : Except PyException α → Option PyException
  | .ok _ => none
  | .error exc => some exc

/-- A call on a component that keeps its state outside the feedback loop. -/
def call (made : ComponentCall) (act : World → Except PyException α × World) :
    Faulty PyException (DaemonState World) α :=
  Faulty.ofFun fun s =>
    let (outcome, world) := act s.world
    (outcome, { s with world := world, calls := s.calls ++ [⟨made, raisedBy outcome⟩] })

def register (forecast : Forecast) : Faulty PyException (DaemonState World) Unit :=
  Faulty.ofFun fun s =>
    let pending := s.loop.pending.set forecast.forecastId ⟨forecast, s.loop.cycle⟩
    (.ok (), { s with
      loop := { s.loop with pending := pending }
      calls := s.calls ++ [⟨.register forecast.forecastId, none⟩] })

def registerAll : List Forecast → Faulty PyException (DaemonState World) Unit
  | [] => pure ()
  | forecast :: rest => do
    register forecast
    registerAll rest

/-- `resolve` has no parameter for the number of the cycle. -/
def arityError : PyException :=
  ⟨true, "ForecastFeedbackLoop.resolve() takes 2 positional arguments but 3 were given"⟩

def resolveWithCycle : Faulty PyException (DaemonState World) (List FeedbackResult) :=
  Faulty.ofFun fun s => (.error arityError, { s with calls := s.calls ++ [⟨.resolveWithCycle, some arityError⟩] })

def resolve (body : LoopState → World → Except PyException (List FeedbackResult) × Dict String PendingForecast × World) :
    Faulty PyException (DaemonState World) (List FeedbackResult) :=
  Faulty.ofFun fun s =>
    let loop := { s.loop with cycle := s.loop.cycle + 1 }
    let (outcome, pending, world) := body loop s.world
    (outcome, { s with
      loop := { loop with pending := pending }
      world := world
      calls := s.calls ++ [⟨.resolve, raisedBy outcome⟩] })

/-- What `resolve` of the planner's loop does after the increment, with the
stores that it shares. -/
def loopBody (faults : WriteFaults) (now : ℚ) (raise : PlanTreeError → PyException) (values : Dict String ℚ)
    (loop : LoopState) (stores : CalibrationStore × PlanTree × Disk ℚ) :
    Except PyException (List FeedbackResult) × Dict String PendingForecast × CalibrationStore × PlanTree × Disk ℚ :=
  match ForecastFeedbackLoop.resolvePending faults now loop.cycle values loop.pending.entries
      ⟨stores.1, stores.2.1, stores.2.2, 0, 0, [], []⟩ with
  | (state, some e) => (.error (raise e), loop.pending, state.calibration, state.planTree, state.disk)
  | (state, none) =>
    (.ok state.results, state.resolvedIds.foldl Dict.erase loop.pending, state.calibration, state.planTree, state.disk)

def ofLoop (loop : ForecastFeedbackLoop) (disk : Disk ℚ) (calls : List CallRecord) :
    DaemonState (CalibrationStore × PlanTree × Disk ℚ) :=
  ⟨⟨loop.pending, loop.cycle⟩, (loop.calibration, loop.planTree, disk), calls⟩

/-- A configured step, under its own `try`. -/
def guarded (step : CycleStep) (configured : Bool) (body : Faulty PyException (DaemonState World) α) :
    Faulty PyException (DaemonState World) (Option α × List String) :=
  if configured then Faulty.attempt body step.entry else pure (none, [])

/-- `_seed_world_snapshot`. -/
def seedWorldSnapshot (actions : CycleActions World) : Option WorldSnapshot → Faulty PyException (DaemonState World) Unit
  | none => pure ()
  | some _ => call .mkdirState actions.mkdirState

def coherenceStep (actions : CycleActions World) (snapshot : Option WorldSnapshot) :
    Faulty PyException (DaemonState World) CoherenceReport := do
  seedWorldSnapshot actions snapshot
  call .coherenceTick actions.coherenceTick

def forecastStep (configured : ConfiguredSteps) (actions : CycleActions World) (values : Dict String ℚ) :
    Faulty PyException (DaemonState World) (List Forecast) := do
  let forecasts ← call .generate (actions.generate values)
  registerAll (if configured.feedbackLoop then forecasts else [])
  pure forecasts

def feedbackStep (actions : CycleActions World) (values : Dict String ℚ) :
    Faulty PyException (DaemonState World) (List FeedbackResult) :=
  tryCatch resolveWithCycle fun exc =>
    if exc.isTypeError then resolve (actions.resolveBody values) else throw exc

def duration (actions : CycleActions World) : ℚ :=
  let durationS := max 0 (actions.completedAt - actions.startedAt)
  if durationS = 0 then 1 / 10 ^ 9 else durationS

/-- `run`. -/
def run (configured : ConfiguredSteps) (cycleNumber : ℕ) (actions : CycleActions World) :
    Faulty PyException (DaemonState World) CycleOutcome := do
  let includes := configured.includes cycleNumber
  let (_, sensoryErrors) ← guarded .sensory (includes .sensory) (call .runStartupScan actions.runStartupScan)
  let (snapshot, selfModelErrors) ← guarded .selfModel (includes .selfModel) (call .selfModelTick actions.selfModelTick)
  let anomalyCount := snapshot.elim 0 WorldSnapshot.anomalyCount
  let values := CycleRunner.currentValues snapshot
  let (report, coherenceErrors) ← guarded .coherence (includes .coherence) (coherenceStep actions snapshot)
  let (forecasts, forecastErrors) ← guarded .forecast (includes .forecast) (forecastStep configured actions values)
  let (feedbackResults, feedbackErrors) ← guarded .feedback (includes .feedback) (feedbackStep actions values)
  let event : CycleEvent := ⟨cycleNumber, duration actions, report.map CoherenceReport.coherenceIndex, anomalyCount,
    actions.completedAt⟩
  let (_, memoryErrors) ← guarded .memory (includes .memory) (call (.append event) (actions.append event))
  pure
    { cycleNumber := cycleNumber
      startedAt := actions.startedAt
      completedAt := actions.completedAt
      durationS := duration actions
      selfModelSnapshot := snapshot
      coherenceReport := report
      forecasts := forecasts
      feedbackResults := feedbackResults
      anomalyCount := anomalyCount
      errors := sensoryErrors ++ selfModelErrors ++ coherenceErrors ++ forecastErrors ++ feedbackErrors ++ memoryErrors }

/-- Runs one after the other, until one raises. -/
def runAll (configured : ConfiguredSteps) :
    List (ℕ × CycleActions World) → Faulty PyException (DaemonState World) (List CycleOutcome)
  | [] => pure []
  | (cycleNumber, actions) :: rest => do
    let outcome ← run configured cycleNumber actions
    let outcomes ← runAll configured rest
    pure (outcome :: outcomes)

end CycleSteps

end Centroid
