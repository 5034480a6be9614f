import Centroid.Daemon.Scheduler
import Centroid.Planner.Restarts
import Centroid.SelfModel.TickFaults

namespace Centroid

open StateLoad

namespace CoherenceGraph

/-- `tick` with a snapshot writer, one of whose writes may raise: the report,
none where the tick raises, and the files. -/
def tickUnder (floatOfText : String → Option ℚ) (fault : SnapshotFault) (self : CoherenceGraph) (stateDir : String)
    (disk : Disk ℚ) (now : ℚ) : Option CoherenceReport × Disk ℚ :=
  let report := self.calculator.compute (self.propagator.propagate (self.readSeedValues floatOfText disk)) now
  match SnapshotWriter.readSnapshot stateDir disk with
  | none => (some report, disk)
  | some current =>
    match dictOf current.nodeHealth, dictOf current.nodeTrends with
    | some nodeHealth, some nodeTrends =>
      let updated : RawSnapshot :=
        { current with
          nodeHealth := .dict nodeHealth
          nodeTrends := .dict nodeTrends
          coherenceIndex := .num (Rounding.roundTo 6 report.coherenceIndex) }
      (if fault = .none then some report else none, SnapshotWriter.writeUnder fault stateDir updated disk)
    | _, _ => (none, disk)

/-- Where no write raises this is the tick as it stands. -/
theorem tickUnder_none (floatOfText : String → Option ℚ) (self : CoherenceGraph) (stateDir : String) (disk : Disk ℚ)
    (now : ℚ) : self.tickUnder floatOfText .none stateDir disk now =
      match self.tick floatOfText (some stateDir) disk now with
      | some (report, after) => (some report, after)
      | none => (none, disk) := by
  unfold tickUnder tick updateSnapshotCoherence
  dsimp only
  cases SnapshotWriter.readSnapshot stateDir disk with
  | none => rfl
  | some current =>
    dsimp only [bind, Option.bind]
    cases dictOf current.nodeHealth with
    | none => rfl
    | some nodeHealth =>
      cases dictOf current.nodeTrends with
      | none => rfl
      | some nodeTrends => rfl

end CoherenceGraph

/-- The settings that the wiring reads, but for the paths of the graph and of the
memory store. The directory is as a path prints it. -/
structure DaemonConfig where
  tickIntervalS : ℚ := 5
  maxCycles : Option ℕ := none
  startupDelayS : ℚ := 0
  stateDir : String := "state"
  enableSensory : Bool := true
  enableCoherence : Bool := true
  enableForecast : Bool := true
  enableFeedback : Bool := true

/-- What the daemon's scheduler is given. -/
def DaemonConfig.scheduler (self : DaemonConfig) : SchedulerConfig :=
  ⟨self.tickIntervalS, self.maxCycles, self.startupDelayS⟩

/-- How the wiring raises: while it loads the graph or one of the two stores of
the planner. -/
inductive WiringError where
  | graph (error : GraphInitError)
  | calibration
  | planTree

/-- What one cycle meets: the sources registered before it, what they read, the
clock, and what raises in it. `seedFails` is about the directory that is made
between the two ticks. -/
structure Moment where
  registered : List TelemetrySource
  read : String → Reading
  startedAt : ℚ
  completedAt : ℚ
  sensoryScan : Except String Unit
  tickFaults : TickFaults
  seedFails : Bool
  coherenceFault : SnapshotFault
  raised : String
  memoryAppend : Except String Unit
  writes : WriteFaults

/-- The daemon with the components that were wired. The runner asks for the
self model, and for the graph if there is one. -/
structure CentroidDaemon where
  stateDir : String
  selfModel : SelfModel
  coherenceGraph : Option CoherenceGraph
  runner : CycleRunner
  sameDir : selfModel.stateDir = stateDir
  models : runner.selfModel = true
  graphs : runner.coherenceGraph = coherenceGraph.isSome

/-- What a cycle shows: the snapshot that has reached its file in it, and its
result. -/
structure CycleTrace where
  written : Option WorldSnapshot
  result : CycleResult

namespace CycleRunner

theorem forecastStep_flags (self : CycleRunner) (ids : IdSource) (values : Dict String ℚ) (now : ℚ) :
    (self.forecastStep ids values now).1.selfModel = self.selfModel ∧
      (self.forecastStep ids values now).1.coherenceGraph = self.coherenceGraph := by
  unfold forecastStep
  split
  · exact ⟨rfl, rfl⟩
  · split <;> exact ⟨rfl, rfl⟩

theorem feedbackStep_flags (self : CycleRunner) (values : Dict String ℚ) (faults : WriteFaults) (now : ℚ) (disk : Disk ℚ) :
    (self.feedbackStep values faults now disk).1.selfModel = self.selfModel ∧
      (self.feedbackStep values faults now disk).1.coherenceGraph = self.coherenceGraph := by
  unfold feedbackStep
  split
  · exact ⟨rfl, rfl⟩
  · split <;> exact ⟨rfl, rfl⟩

/-- A cycle asks for the same components as the one before it. -/
theorem run_flags (self : CycleRunner) (ids : IdSource) (c : ℕ) (env : CycleEnvironment) (disk : Disk ℚ) :
    (self.run ids c env disk).1.selfModel = self.selfModel ∧
      (self.run ids c env disk).1.coherenceGraph = self.coherenceGraph := by
  unfold run
  dsimp only
  have forecast := self.forecastStep_flags ids (currentValues (guarded self.selfModel env.selfModelTick .selfModel).1)
    env.startedAt
  generalize self.forecastStep ids _ env.startedAt = forecasted at forecast ⊢
  have feedback := forecasted.1.feedbackStep_flags
    (currentValues (guarded self.selfModel env.selfModelTick .selfModel).1) env.faults env.startedAt disk
  exact ⟨feedback.1.trans forecast.1, feedback.2.trans forecast.2⟩

end CycleRunner

namespace SelfModel

theorem foldl_registerSource_stateDir (sources : List TelemetrySource) (self : SelfModel) :
    (sources.foldl registerSource self).stateDir = self.stateDir := by
  induction sources generalizing self with
  | nil => rfl
  | cons source sources ih => exact ih (self.registerSource source)

end SelfModel

namespace CentroidDaemon

/-- Where the wiring keeps the two stores of the planner. -/
def paths (stateDir : String) : StatePaths where
  calibration := stateDir ++ "/calibration.json"
  planTree := stateDir ++ "/plan_tree.json"
  apart := by
    intro same
    exact absurd ((String.append_right_inj stateDir).mp same) (by decide)

section

variable (reading : NumberReading ℚ ℚ) (graphDoc : Option (Value ℚ))
  (enumerate : ∀ g : CoherenceGraphDef (Key ℚ) ℚ, SetOrder g.nodeIds)

/-- The graph of `from_config`. -/
def wireGraph (config : DaemonConfig) : Except WiringError (Option CoherenceGraph) :=
  if config.enableCoherence then
    match CoherenceGraph.init graphDoc (SnapshotWriter.snapshotPath config.stateDir) enumerate with
    | .error error => .error (.graph error)
    | .ok graph => .ok (some graph)
  else .ok none

/-- The calibration store of `from_config`. -/
def wireCalibration (config : DaemonConfig) (disk : Disk ℚ) : Except WiringError (Option CalibrationStore) :=
  if config.enableForecast || config.enableFeedback then
    match CalibrationStore.reopen reading (paths config.stateDir).calibration disk with
    | none => .error .calibration
    | some store => .ok (some store)
  else .ok none

/-- The feedback loop of `from_config`. -/
def wireLoop (config : DaemonConfig) (calibration : Option CalibrationStore) (disk : Disk ℚ) :
    Except WiringError (Option ForecastFeedbackLoop) :=
  match config.enableFeedback, calibration with
  | true, some store =>
    match PlanTree.reopen reading (1 / 5) (paths config.stateDir).planTree disk with
    | none => .error .planTree
    | some planTree => .ok (some (.init store planTree))
  | _, _ => .ok none

/-- The store that the runner passes to the generator: the one of the loop,
where there is a loop. -/
def calibrationRef : Option CalibrationStore → Option ForecastFeedbackLoop → CalibrationRef
  | none, _ => .absent
  | some _, some _ => .ofLoop
  | some store, none => .own store

/-- `from_config`, after `drawn` identifiers have been drawn for forecasts. -/
def fromConfig (config : DaemonConfig) (disk : Disk ℚ) (drawn : ℕ) : Except WiringError CentroidDaemon := do
  let graph ← wireGraph graphDoc enumerate config
  let calibration ← wireCalibration reading config disk
  let loop ← wireLoop reading config calibration disk
  .ok
    { stateDir := config.stateDir
      selfModel := .init (some []) config.stateDir 2 (7 / 2) 5
      coherenceGraph := graph
      runner :=
        { memoryStore := some []
          selfModel := true
          coherenceGraph := graph.isSome
          forecastGenerator := if config.enableForecast then some (.init ["system_health_ratio"]) else none
          feedbackLoop := loop
          sensoryPipeline := config.enableSensory
          calibrationStore := calibrationRef calibration loop
          drawn := drawn }
      sameDir := rfl
      models := rfl
      graphs := rfl }

end

section

variable (stdev : List ℚ → ℚ) (floatOfText : String → Option ℚ) (ids : IdSource)

/-- The coherence step of a cycle. -/
def coherenceStep (self : CentroidDaemon) (moment : Moment) (snapshot : Option WorldSnapshot) (disk : Disk ℚ) :
    Option CoherenceReport × Disk ℚ :=
  match self.coherenceGraph with
  | none => (none, disk)
  | some graph =>
    if snapshot.isSome && moment.seedFails then (none, disk)
    else graph.tickUnder floatOfText moment.coherenceFault self.stateDir disk moment.startedAt

/-- The self-model step of a cycle. -/
def selfModelStep (self : CentroidDaemon) (moment : Moment) (disk : Disk ℚ) : TickOutcome :=
  (moment.registered.foldl SelfModel.registerSource self.selfModel).tickUnder stdev moment.tickFaults moment.read disk
    moment.startedAt

/-- What the runner sees of the two components. -/
def environment (moment : Moment) (returned : Option WorldSnapshot) (report : Option CoherenceReport) :
    CycleEnvironment where
  startedAt := moment.startedAt
  completedAt := moment.completedAt
  sensoryScan := moment.sensoryScan
  selfModelTick := returned.elim (.error moment.raised) .ok
  coherenceTick := report.elim (.error moment.raised) .ok
  memoryAppend := moment.memoryAppend
  faults := moment.writes

theorem selfModelStep_stateDir (self : CentroidDaemon) (moment : Moment) (disk : Disk ℚ) :
    (self.selfModelStep stdev moment disk).model.stateDir = self.stateDir := by
  have kept := (SelfModel.tickUnder_cases stdev moment.tickFaults
    (moment.registered.foldl SelfModel.registerSource self.selfModel) moment.read disk moment.startedAt).1
  rw [SelfModel.foldl_registerSource_stateDir] at kept
  exact kept.trans self.sameDir

/-- One cycle of the runner with its components and their files. -/
def cycle (self : CentroidDaemon) (cycleNumber : ℕ) (moment : Moment) (disk : Disk ℚ) :
    CentroidDaemon × Disk ℚ × CycleTrace :=
  let ticked := self.selfModelStep stdev moment disk
  let (report, seen) := self.coherenceStep floatOfText moment ticked.returned ticked.disk
  let env := environment moment ticked.returned report
  let after := self.runner.run ids cycleNumber env seen
  ({ stateDir := self.stateDir
     selfModel := ticked.model
     coherenceGraph := self.coherenceGraph
     runner := after.1
     sameDir := self.selfModelStep_stateDir stdev moment disk
     models := (self.runner.run_flags ids cycleNumber env seen).1.trans self.models
     graphs := (self.runner.run_flags ids cycleNumber env seen).2.trans self.graphs },
    after.2.1, ⟨ticked.written, after.2.2⟩)

/-- The cycles of a session, from one of a given number on. -/
def runFrom (self : CentroidDaemon) (disk : Disk ℚ) : ℕ → List Moment → CentroidDaemon × Disk ℚ × List CycleTrace
  | _, [] => (self, disk, [])
  | c, moment :: moments =>
    let (self, disk, trace) := self.cycle stdev floatOfText ids c moment disk
    let (self, disk, traces) := self.runFrom disk (c + 1) moments
    (self, disk, trace :: traces)

/-- `run_cycles`, with as many cycles as there are moments. -/
def runCycles (self : CentroidDaemon) (disk : Disk ℚ) (moments : List Moment) :
    CentroidDaemon × Disk ℚ × List CycleTrace :=
  self.runFrom stdev floatOfText ids disk 0 moments

end

end CentroidDaemon

end Centroid
