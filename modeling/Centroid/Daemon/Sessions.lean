import Centroid.Daemon.Backlog
import Centroid.Planner.PlanLifecycle
import Centroid.Simulation.PreflightCoherence

namespace Centroid

open StateLoad

namespace SnapshotWriter

/-- A file that is not one of the two of a snapshot. -/
def Elsewhere (stateDir path : String) : Prop := path ≠ snapshotPath stateDir ∧ path ≠ trendsPath stateDir

theorem writeUnder_elsewhere {stateDir path : String} (elsewhere : Elsewhere stateDir path) (fault : SnapshotFault)
    (snapshot : RawSnapshot) (disk : Disk ℚ) : writeUnder fault stateDir snapshot disk path = disk path := by
  cases fault with
  | none => exact writeRaw_elsewhere stateDir snapshot disk elsewhere.1 elsewhere.2
  | snapshot => rfl
  | trends => exact disk.write_of_ne elsewhere.1 _ false

end SnapshotWriter

theorem SelfModel.tickUnder_elsewhere (stdev : List ℚ → ℚ) (faults : TickFaults) (self : SelfModel)
    (read : String → Reading) (disk : Disk ℚ) (now : ℚ) {path : String}
    (elsewhere : SnapshotWriter.Elsewhere self.stateDir path) :
    (self.tickUnder stdev faults read disk now).disk path = disk path := by
  rcases (tickUnder_cases stdev faults self read disk now).2 with ⟨same, -⟩ | ⟨snapshot, fault, -, -, -, written, -⟩
  · rw [same]
  · rw [written, SnapshotWriter.writeUnder_elsewhere elsewhere]

theorem CoherenceGraph.tickUnder_elsewhere (floatOfText : String → Option ℚ) (fault : SnapshotFault)
    (self : CoherenceGraph) (stateDir : String) (disk : Disk ℚ) (now : ℚ) {path : String}
    (elsewhere : SnapshotWriter.Elsewhere stateDir path) :
    (self.tickUnder floatOfText fault stateDir disk now).2 path = disk path := by
  unfold tickUnder
  dsimp only
  split
  · rfl
  · split
    · exact SnapshotWriter.writeUnder_elsewhere elsewhere _ _ _
    · rfl

section Settled

variable {floatOfText : String → Option ℚ} {intOfText : String → Option ℤ} {render : Value ℚ → String}
  {paths : StatePaths} {threshold : ℚ}

theorem Stores.Settled.congr {reading : NumberReading ℚ ℚ} {self : Stores} (settled : self.Settled reading paths threshold)
    {disk : Disk ℚ} (records : disk paths.calibration = self.disk paths.calibration)
    (threads : disk paths.planTree = self.disk paths.planTree) :
    Stores.Settled reading paths threshold ⟨self.calibration, self.planTree, disk⟩ := by
  obtain ⟨sameRecords, sameThreads⟩ := settled.parts
  refine Stores.settled_of_parts ?_ ?_
  · exact (CalibrationStore.reopen_congr reading _ records).trans sameRecords
  · exact (PlanTree.reopen_congr reading threshold _ threads).trans sameThreads

/-- A resolution without failed writes leaves what fresh stores would find. -/
theorem ForecastFeedbackLoop.resolve_settled {self : ForecastFeedbackLoop} {disk : Disk ℚ}
    (settled : Stores.Settled (exactReading floatOfText intOfText render) paths threshold
      ⟨self.calibration, self.planTree, disk⟩) (now : ℚ) (actualValues : Dict String ℚ) :
    let after := self.resolve .none now actualValues disk
    Stores.Settled (exactReading floatOfText intOfText render) paths threshold
      ⟨after.1.calibration, after.1.planTree, after.2.1⟩ := by
  intro after
  obtain ⟨records, threads, files⟩ := self.resolve_stores .none now actualValues disk
  rw [records, threads, files]
  refine resolvePending_keeps .none now actualValues
    (fun state => Stores.Settled (exactReading floatOfText intOfText render) paths threshold
      ⟨state.calibration, state.planTree, state.disk⟩) ?_ ?_ (fun state ids keeps => keeps) _ _ _ settled
  · intro state forecastId forecast entry keeps
    exact keeps.call (.update entry.1 forecast.horizon.name entry.2 ((actualValues.get? entry.1).getD entry.2))
  · intro state threadId newConf keeps _
    exact keeps.call (.updateConfidence threadId newConf now)

theorem ForecastFeedbackLoop.foldl_register_stores (forecasts : List Forecast) (self : ForecastFeedbackLoop) :
    (forecasts.foldl register self).calibration = self.calibration ∧
      (forecasts.foldl register self).planTree = self.planTree := by
  induction forecasts generalizing self with
  | nil => exact ⟨rfl, rfl⟩
  | cons forecast forecasts ih => exact ih (self.register forecast)

end Settled

namespace CentroidDaemon

theorem paths_elsewhere (stateDir : String) : SnapshotWriter.Elsewhere stateDir (paths stateDir).calibration ∧
    SnapshotWriter.Elsewhere stateDir (paths stateDir).planTree := by
  refine ⟨⟨?_, ?_⟩, ?_, ?_⟩
  all_goals
    intro same
    exact absurd ((String.append_right_inj stateDir).mp same) (by decide)

section

variable (stdev : List ℚ → ℚ) (floatOfText : String → Option ℚ) (ids : IdSource)

/-- The files as the planner finds them in a cycle. -/
def seen (self : CentroidDaemon) (moment : Moment) (disk : Disk ℚ) : Disk ℚ :=
  let ticked := self.selfModelStep stdev moment disk
  (self.coherenceStep floatOfText moment ticked.returned ticked.disk).2

/-- What the runner sees of the two components in a cycle. -/
def seenEnvironment (self : CentroidDaemon) (moment : Moment) (disk : Disk ℚ) : CycleEnvironment :=
  let ticked := self.selfModelStep stdev moment disk
  environment moment ticked.returned (self.coherenceStep floatOfText moment ticked.returned ticked.disk).1

theorem cycle_runner (self : CentroidDaemon) (c : ℕ) (moment : Moment) (disk : Disk ℚ) :
    (self.cycle stdev floatOfText ids c moment disk).1.runner =
      (self.runner.run ids c (self.seenEnvironment stdev floatOfText moment disk)
        (self.seen stdev floatOfText moment disk)).1 := rfl

theorem cycle_disk (self : CentroidDaemon) (c : ℕ) (moment : Moment) (disk : Disk ℚ) :
    (self.cycle stdev floatOfText ids c moment disk).2.1 =
      (self.runner.run ids c (self.seenEnvironment stdev floatOfText moment disk)
        (self.seen stdev floatOfText moment disk)).2.1 := rfl

theorem seen_elsewhere (self : CentroidDaemon) (moment : Moment) (disk : Disk ℚ) {path : String}
    (elsewhere : SnapshotWriter.Elsewhere self.stateDir path) :
    self.seen stdev floatOfText moment disk path = disk path := by
  have ticked : (self.selfModelStep stdev moment disk).disk path = disk path := by
    refine SelfModel.tickUnder_elsewhere stdev moment.tickFaults _ moment.read disk moment.startedAt ?_
    rw [SelfModel.foldl_registerSource_stateDir, self.sameDir]
    exact elsewhere
  rw [← ticked, seen, coherenceStep]
  split
  · rfl
  · split
    · rfl
    · exact CoherenceGraph.tickUnder_elsewhere floatOfText _ _ _ _ _ elsewhere

variable {ids} {fields : List String} {calibration : CalibrationStore} {drawn : ℕ}

/-- Cycles without a failed write of the plan tree take the generator and the
loop as many cycles further. -/
theorem runFrom_looped {self : CentroidDaemon} {n : ℕ} (looped : self.runner.Looped ids fields calibration drawn n)
    (disk : Disk ℚ) (c : ℕ) {moments : List Moment}
    (persists : ∀ moment ∈ moments, ∀ i, moment.writes.planTree i = false) :
    (self.runFrom stdev floatOfText ids disk c moments).1.runner.Looped ids fields calibration drawn
      (n + moments.length) := by
  induction moments generalizing self disk c n with
  | nil => exact looped
  | cons moment moments ih =>
    have next : (self.cycle stdev floatOfText ids c moment disk).1.runner.Looped ids fields calibration drawn (n + 1) := by
      rw [cycle_runner]
      exact looped.next c (persists moment List.mem_cons_self) _
    have later := ih next (self.cycle stdev floatOfText ids c moment disk).2.1 (c + 1)
      fun other member => persists other (List.mem_cons_of_mem moment member)
    rw [List.length_cons, Nat.add_comm moments.length, ← Nat.add_assoc]
    exact later

end

section Restarts

variable {intOfText : String → Option ℤ} {render : Value ℚ → String} {floatOfText : String → Option ℚ}

/-- What the loop has of its stores is what fresh ones would find. -/
def Settled (reading : NumberReading ℚ ℚ) (self : CentroidDaemon) (disk : Disk ℚ) : Prop :=
  ∀ loop, self.runner.feedbackLoop = some loop →
    Stores.Settled reading (paths self.stateDir) (1 / 5) ⟨loop.calibration, loop.planTree, disk⟩

theorem Settled.cycle {self : CentroidDaemon} {disk : Disk ℚ}
    (settled : self.Settled (exactReading floatOfText intOfText render) disk) {ids : IdSource} {fields : List String}
    {calibration : CalibrationStore} {drawn n : ℕ} (looped : self.runner.Looped ids fields calibration drawn n)
    (stdev : List ℚ → ℚ) (c : ℕ) {moment : Moment} (clean : moment.writes = .none) :
    (self.cycle stdev floatOfText ids c moment disk).1.Settled (exactReading floatOfText intOfText render)
      (self.cycle stdev floatOfText ids c moment disk).2.1 := by
  obtain ⟨⟨generator, generates, -⟩, store, -, run, -, loops, -, -⟩ := looped
  obtain ⟨-, loops', -, -, files⟩ := CycleRunner.run_of_loop generates loops store ids c
    (self.seenEnvironment stdev floatOfText moment disk) (self.seen stdev floatOfText moment disk)
  obtain ⟨elsewhereRecords, elsewhereThreads⟩ := paths_elsewhere self.stateDir
  have before := (settled run.loop loops).congr
    (seen_elsewhere stdev floatOfText self moment disk elsewhereRecords)
    (seen_elsewhere stdev floatOfText self moment disk elsewhereThreads)
  intro loop after
  rw [cycle_runner, loops'] at after
  rw [cycle_disk, files, ← Option.some.inj after]
  have noFault : (self.seenEnvironment stdev floatOfText moment disk).faults = .none := clean
  rw [noFault]
  refine ForecastFeedbackLoop.resolve_settled ?_ _ _
  rw [(ForecastFeedbackLoop.foldl_register_stores _ run.loop).1, (ForecastFeedbackLoop.foldl_register_stores _ run.loop).2]
  exact before

theorem Settled.runFrom {self : CentroidDaemon} {disk : Disk ℚ}
    (settled : self.Settled (exactReading floatOfText intOfText render) disk) {ids : IdSource} {fields : List String}
    {calibration : CalibrationStore} {drawn n : ℕ} (looped : self.runner.Looped ids fields calibration drawn n)
    (stdev : List ℚ → ℚ) (c : ℕ) {moments : List Moment} (clean : ∀ moment ∈ moments, moment.writes = .none) :
    (self.runFrom stdev floatOfText ids disk c moments).1.Settled (exactReading floatOfText intOfText render)
      (self.runFrom stdev floatOfText ids disk c moments).2.1 := by
  induction moments generalizing self disk c n with
  | nil => exact settled
  | cons moment moments ih =>
    have here := clean moment List.mem_cons_self
    have next : (self.cycle stdev floatOfText ids c moment disk).1.runner.Looped ids fields calibration drawn (n + 1) := by
      rw [cycle_runner]
      refine looped.next c ?_ _
      intro i
      exact congrArg (fun faults => WriteFaults.planTree faults i) here
    exact ih (settled.cycle looped stdev c here) next (c + 1) fun other member => clean other (List.mem_cons_of_mem moment member)

theorem runFrom_stateDir (self : CentroidDaemon) (stdev : List ℚ → ℚ) (ids : IdSource) (disk : Disk ℚ) (c : ℕ)
    (moments : List Moment) : (self.runFrom stdev floatOfText ids disk c moments).1.stateDir = self.stateDir := by
  induction moments generalizing self disk c with
  | nil => rfl
  | cons moment moments ih => exact ih (self.cycle stdev floatOfText ids c moment disk).1 _ (c + 1)

end Restarts

section Wiring

variable {reading : NumberReading ℚ ℚ} {graphDoc : Option (Value ℚ)}
  {enumerate : ∀ g : CoherenceGraphDef (Key ℚ) ℚ, SetOrder g.nodeIds} {config : DaemonConfig} {disk : Disk ℚ}

/-- What has been wired when the wiring does not raise. -/
theorem fromConfig_spec {drawn : ℕ} {self : CentroidDaemon}
    (wired : fromConfig reading graphDoc enumerate config disk drawn = .ok self) :
    self.stateDir = config.stateDir ∧ self.selfModel = .init (some []) config.stateDir 2 (7 / 2) 5 ∧
      wireGraph graphDoc enumerate config = .ok self.coherenceGraph ∧
        ∃ calibration, wireCalibration reading config disk = .ok calibration ∧
        wireLoop reading config calibration disk = .ok self.runner.feedbackLoop := by
  simp only [fromConfig, bind, Except.bind] at wired
  split at wired
  · cases wired
  · rename_i graphs
    split at wired
    · cases wired
    · rename_i calibration calibrated
      split at wired
      · cases wired
      · rename_i looped
        cases wired
        exact ⟨rfl, rfl, graphs, calibration, calibrated, looped⟩

/-- A loop on the stores that were found, before its first cycle. -/
theorem looped_init {runner : CycleRunner} {store : CalibrationStore} {planTree : PlanTree} {fields : List String}
    (generates : runner.forecastGenerator = some (.init fields)) (loops : runner.feedbackLoop = some (.init store planTree))
    (shared : runner.calibrationStore = .ofLoop) (ids : IdSource) : runner.Looped ids fields store runner.drawn 0 where
  generator := ⟨_, generates, rfl⟩
  store := shared
  counted := rfl
  loop := by
    refine ⟨⟨.init store planTree, fun _ => .missing, [], []⟩, ⟨0, []⟩, loops, ⟨rfl, ?_, rfl, fun _ _ => rfl⟩, rfl, rfl, rfl, ?_⟩
    · exact fun reg member => nomatch member
    · exact fun reg member => nomatch member

variable (forecasts : config.enableForecast = true) (feedback : config.enableFeedback = true)

variable (reading disk) in
include forecasts in
theorem wireCalibration_of_forecast : wireCalibration reading config disk =
    (CalibrationStore.reopen reading (paths config.stateDir).calibration disk).elim (.error .calibration) (.ok ∘ some) := by
  unfold wireCalibration
  rw [forecasts, Bool.true_or, if_pos rfl]
  cases CalibrationStore.reopen reading (paths config.stateDir).calibration disk <;> rfl

variable (reading disk) in
include feedback in
theorem wireLoop_of_feedback (store : CalibrationStore) : wireLoop reading config (some store) disk =
    (PlanTree.reopen reading (1 / 5) (paths config.stateDir).planTree disk).elim (.error .planTree)
      fun planTree => .ok (some (.init store planTree)) := by
  unfold wireLoop
  rw [feedback]
  cases PlanTree.reopen reading (1 / 5) (paths config.stateDir).planTree disk <;> rfl

include forecasts feedback

/-- What is wired on stores that can be opened. -/
theorem fromConfig_of_opened {graph : Option CoherenceGraph} {store : CalibrationStore} {planTree : PlanTree}
    (graphs : wireGraph graphDoc enumerate config = .ok graph)
    (records : CalibrationStore.reopen reading (paths config.stateDir).calibration disk = some store)
    (threads : PlanTree.reopen reading (1 / 5) (paths config.stateDir).planTree disk = some planTree) (drawn : ℕ) :
    ∃ self, fromConfig reading graphDoc enumerate config disk drawn = .ok self ∧ self.stateDir = config.stateDir ∧
      self.coherenceGraph = graph ∧ self.runner.feedbackLoop = some (.init store planTree) ∧
      ∀ ids, self.runner.Looped ids ["system_health_ratio"] store drawn 0 := by
  have calibrated := wireCalibration_of_forecast reading disk forecasts
  have looped := wireLoop_of_feedback reading disk feedback store
  rw [records] at calibrated
  rw [threads] at looped
  have wired : ∃ self, fromConfig reading graphDoc enumerate config disk drawn = .ok self ∧
      self.stateDir = config.stateDir ∧ self.coherenceGraph = graph ∧
      self.runner.feedbackLoop = some (.init store planTree) ∧ self.runner.calibrationStore = .ofLoop ∧
      self.runner.drawn = drawn ∧ self.runner.forecastGenerator = some (.init ["system_health_ratio"]) := by
    simp [fromConfig, graphs, calibrated, looped, forecasts, bind, Except.bind, calibrationRef]
  obtain ⟨self, isWired, dir, sameGraph, loops, shared, counted, generates⟩ := wired
  refine ⟨self, isWired, dir, sameGraph, loops, fun ids => ?_⟩
  rw [← counted]
  exact looped_init generates loops shared ids

/-- Stores that cannot be opened are not wired. -/
theorem opened_of_fromConfig {drawn : ℕ} {self : CentroidDaemon}
    (wired : fromConfig reading graphDoc enumerate config disk drawn = .ok self) :
    ∃ graph store planTree, wireGraph graphDoc enumerate config = .ok graph ∧
      CalibrationStore.reopen reading (paths config.stateDir).calibration disk = some store ∧
      PlanTree.reopen reading (1 / 5) (paths config.stateDir).planTree disk = some planTree := by
  obtain ⟨-, -, graphs, calibration, calibrated, looped⟩ := fromConfig_spec wired
  rw [wireCalibration_of_forecast reading disk forecasts] at calibrated
  cases records : CalibrationStore.reopen reading (paths config.stateDir).calibration disk with
  | none =>
    rw [records] at calibrated
    cases calibrated
  | some store =>
    rw [records] at calibrated
    obtain rfl : some store = calibration := Except.ok.inj calibrated
    rw [wireLoop_of_feedback reading disk feedback store] at looped
    cases threads : PlanTree.reopen reading (1 / 5) (paths config.stateDir).planTree disk with
    | none =>
      rw [threads] at looped
      cases looped
    | some planTree => exact ⟨_, store, planTree, graphs, rfl, rfl⟩

/-- After `n` cycles the forecasts that wait are at most those of the last four
and of the last nineteen cycles, and each horizon has been scored once for every
cycle but those within its distance. A write of the plan tree that fails is the
one thing that is ruled out. -/
theorem backlog_of_session {drawn : ℕ} {self : CentroidDaemon}
    (wired : fromConfig reading graphDoc enumerate config disk drawn = .ok self) (stdev : List ℚ → ℚ)
    (floatOfText : String → Option ℚ) (ids : IdSource) {moments : List Moment}
    (persists : ∀ moment ∈ moments, ∀ i, moment.writes.planTree i = false) :
    ∃ store loop, CalibrationStore.reopen reading (paths config.stateDir).calibration disk = some store ∧
      (self.runCycles stdev floatOfText ids disk moments).1.runner.feedbackLoop = some loop ∧
      loop.cycle = moments.length ∧ loop.pendingCount = min moments.length 4 + min moments.length 19 ∧
      (∀ row ∈ horizons, loop.calibration.samplesOf (calibrationKey "system_health_ratio" row.1.name) =
        store.samplesOf (calibrationKey "system_health_ratio" row.1.name) + (moments.length + 1 - row.2)) ∧
      ∀ horizon : Horizon, ∀ field ≠ "system_health_ratio",
        loop.calibration.samplesOf (calibrationKey field horizon.name) =
          store.samplesOf (calibrationKey field horizon.name) := by
  obtain ⟨graph, store, planTree, graphs, records, threads⟩ := opened_of_fromConfig forecasts feedback wired
  obtain ⟨other, same, -, -, -, looped⟩ := fromConfig_of_opened forecasts feedback graphs records threads drawn
  obtain rfl : self = other := Except.ok.inj (wired.symm.trans same)
  have after := runFrom_looped stdev floatOfText (looped ids) disk 0 persists
  rw [Nat.zero_add] at after
  obtain ⟨loop, loops, cycles, waiting, sampled, others⟩ := after.counts
  refine ⟨store, loop, records, loops, cycles, ?_, fun row member => ?_, fun horizon field other => ?_⟩
  · rw [waiting]
    simp only [horizons, List.map_cons, List.map_nil, List.sum_cons, List.sum_nil]
    omega
  · exact sampled row member _ (List.mem_singleton.mpr rfl)
  · exact others horizon field fun inside => other (List.mem_singleton.mp inside)

end Wiring

/-- A cycle in which all raises that can, but for the writes of the plan tree. -/
def stormyMoment : Moment where
  registered := []
  read _ := .raised
  startedAt := 0
  completedAt := 1
  sensoryScan := .error "unreadable"
  tickFaults := ⟨fun _ => true, .trends⟩
  seedFails := true
  coherenceFault := .snapshot
  raised := "disk full"
  memoryAppend := .error "disk full"
  writes := ⟨fun _ => true, fun _ => false⟩

theorem wireGraph_chain : wireGraph (some chainDoc) SafetyPreflight.declarationOrder {} =
    .ok (some SafetyPreflight.chainCoherence) := by
  have path : SnapshotWriter.snapshotPath "state" = "state/world_snapshot.json" := by decide
  rw [wireGraph, path, SafetyPreflight.init_chainCoherence]
  rfl

/-- A reading that takes no text for a number. -/
abbrev strictReading : NumberReading ℚ ℚ := exactReading (fun _ => none) (fun _ => none) fun _ => ""

theorem backlog_of_session_thirty :
    ∃ self loop,
      fromConfig strictReading (some chainDoc) SafetyPreflight.declarationOrder {} (fun _ => .missing) 0 = .ok self ∧
      (self.runCycles (fun _ => 0) (fun _ => none) CycleRunner.unaryIds (fun _ => .missing)
        (List.replicate 30 stormyMoment)).1.runner.feedbackLoop = some loop ∧ loop.pendingCount = 23 := by
  have records : CalibrationStore.reopen strictReading (paths "state").calibration (fun _ => .missing) =
      some ⟨(paths "state").calibration, ∅⟩ := rfl
  have threads : PlanTree.reopen strictReading (1 / 5) (paths "state").planTree (fun _ => .missing) =
      some ⟨1 / 5, (paths "state").planTree, ∅, PlanTree.keyed_empty⟩ := rfl
  obtain ⟨self, wired, -⟩ := fromConfig_of_opened rfl rfl wireGraph_chain records threads 0
  have persists : ∀ moment ∈ List.replicate 30 stormyMoment, ∀ i, moment.writes.planTree i = false := by
    intro moment member i
    rw [List.eq_of_mem_replicate member]
    rfl
  obtain ⟨store, loop, -, loops, -, waiting, -⟩ :=
    backlog_of_session rfl rfl wired (fun _ => 0) (fun _ => none) CycleRunner.unaryIds persists
  exact ⟨self, loop, wired, loops, waiting⟩

section Live

variable (stdev : List ℚ → ℚ) (floatOfText : String → Option ℚ) (intOfText : String → Option ℤ) (render : Value ℚ → String)
  (graphDoc : Option (Value ℚ)) (enumerate : ∀ g : CoherenceGraphDef (Key ℚ) ℚ, SetOrder g.nodeIds) (ids : IdSource)
  (config : DaemonConfig)

/-- Daemons one after the other in the same directory, each of them with the
cycles that it goes through: the files in the end, and how many identifiers
have been drawn. -/
def live (disk : Disk ℚ) (drawn : ℕ) : List (List Moment) → Except WiringError (Disk ℚ × ℕ)
  | [] => .ok (disk, drawn)
  | moments :: sessions =>
    match fromConfig (exactReading floatOfText intOfText render) graphDoc enumerate config disk drawn with
    | .error e => .error e
    | .ok self =>
      let after := self.runCycles stdev floatOfText ids disk moments
      live after.2.1 after.1.runner.drawn sessions

variable {stdev floatOfText intOfText render graphDoc enumerate ids config}

variable (stdev) in
/-- What a session leaves for the next one. -/
theorem session_leaves (forecasts : config.enableForecast = true) (feedback : config.enableFeedback = true)
    {graph : Option CoherenceGraph} (graphs : wireGraph graphDoc enumerate config = .ok graph) {disk : Disk ℚ}
    {stores : Stores}
    (opened : Stores.reopen (exactReading floatOfText intOfText render) (paths config.stateDir) (1 / 5) disk = some stores)
    {moments : List Moment} (clean : ∀ moment ∈ moments, moment.writes = .none) (drawn : ℕ) :
    ∃ self left, fromConfig (exactReading floatOfText intOfText render) graphDoc enumerate config disk drawn = .ok self ∧
      Stores.reopen (exactReading floatOfText intOfText render) (paths config.stateDir) (1 / 5)
        (self.runCycles stdev floatOfText ids disk moments).2.1 = some left ∧
      (∀ row ∈ horizons, left.calibration.samplesOf (calibrationKey "system_health_ratio" row.1.name) =
        stores.calibration.samplesOf (calibrationKey "system_health_ratio" row.1.name) + (moments.length + 1 - row.2)) ∧
      ∀ horizon : Horizon, ∀ field ≠ "system_health_ratio",
        left.calibration.samplesOf (calibrationKey field horizon.name) =
          stores.calibration.samplesOf (calibrationKey field horizon.name) := by
  have found := opened
  simp only [Stores.reopen, Option.bind_eq_bind, Option.bind_eq_some_iff] at found
  obtain ⟨store, records, planTree, threads, same⟩ := found
  obtain rfl : ⟨store, planTree, disk⟩ = stores := Option.some.inj same
  obtain ⟨self, wired, dir, -, loops, looped⟩ := fromConfig_of_opened forecasts feedback graphs records threads drawn
  have settled : self.Settled (exactReading floatOfText intOfText render) disk := by
    intro loop found
    rw [loops] at found
    rw [← Option.some.inj found, dir]
    exact opened
  have after := settled.runFrom (looped ids) stdev 0 clean
  have counted := runFrom_looped stdev floatOfText (looped ids) disk 0 fun moment member i =>
    congrArg (fun faults => WriteFaults.planTree faults i) (clean moment member)
  obtain ⟨loop, loops', -, -, sampled, others⟩ := counted.counts
  have left := after loop loops'
  rw [runFrom_stateDir, dir] at left
  rw [Nat.zero_add] at sampled
  refine ⟨self, _, wired, left, fun row member => ?_, fun horizon field other => ?_⟩
  · exact sampled row member _ (List.mem_singleton.mpr rfl)
  · exact others horizon field fun inside => other (List.mem_singleton.mp inside)

/-- Over any sessions the records take what each session scores by itself: no
forecast outlives the daemon that made it. A horizon is never scored if no session
has as many cycles as it looks ahead. -/
theorem samples_over_sessions (forecasts : config.enableForecast = true) (feedback : config.enableFeedback = true)
    {graph : Option CoherenceGraph} (graphs : wireGraph graphDoc enumerate config = .ok graph) {disk : Disk ℚ}
    {stores : Stores}
    (opened : Stores.reopen (exactReading floatOfText intOfText render) (paths config.stateDir) (1 / 5) disk = some stores)
    {sessions : List (List Moment)} (clean : ∀ moments ∈ sessions, ∀ moment ∈ moments, moment.writes = .none) (drawn : ℕ) :
    ∃ after left, live stdev floatOfText intOfText render graphDoc enumerate ids config disk drawn sessions = .ok after ∧
      Stores.reopen (exactReading floatOfText intOfText render) (paths config.stateDir) (1 / 5) after.1 = some left ∧
      (∀ row ∈ horizons,
        (left.calibration.samplesOf (calibrationKey "system_health_ratio" row.1.name) =
          stores.calibration.samplesOf (calibrationKey "system_health_ratio" row.1.name) +
            (sessions.map fun moments => moments.length + 1 - row.2).sum) ∧
        ((left.calibration.samplesOf (calibrationKey "system_health_ratio" row.1.name) =
          stores.calibration.samplesOf (calibrationKey "system_health_ratio" row.1.name)) ↔
            ∀ moments ∈ sessions, moments.length < row.2)) ∧
      ∀ horizon : Horizon, ∀ field ≠ "system_health_ratio",
        left.calibration.samplesOf (calibrationKey field horizon.name) =
          stores.calibration.samplesOf (calibrationKey field horizon.name) := by
  have counted : ∃ after left, live stdev floatOfText intOfText render graphDoc enumerate ids config disk drawn sessions =
      .ok after ∧
      Stores.reopen (exactReading floatOfText intOfText render) (paths config.stateDir) (1 / 5) after.1 = some left ∧
      (∀ row ∈ horizons, left.calibration.samplesOf (calibrationKey "system_health_ratio" row.1.name) =
        stores.calibration.samplesOf (calibrationKey "system_health_ratio" row.1.name) +
          (sessions.map fun moments => moments.length + 1 - row.2).sum) ∧
      ∀ horizon : Horizon, ∀ field ≠ "system_health_ratio",
        left.calibration.samplesOf (calibrationKey field horizon.name) =
          stores.calibration.samplesOf (calibrationKey field horizon.name) := by
    induction sessions generalizing disk stores drawn with
    | nil => exact ⟨(disk, drawn), stores, rfl, opened, fun _ _ => rfl, fun _ _ _ => rfl⟩
    | cons moments sessions ih =>
      obtain ⟨self, middle, wired, reopened, sampled, others⟩ := session_leaves stdev forecasts feedback graphs opened
        (clean moments List.mem_cons_self) drawn
      obtain ⟨after, left, lived, leftOpen, sampledLater, othersLater⟩ := ih reopened
        (fun rest member => clean rest (List.mem_cons_of_mem moments member))
        (self.runCycles stdev floatOfText ids disk moments).1.runner.drawn
      refine ⟨after, left, ?_, leftOpen, fun row member => ?_, fun horizon field other => ?_⟩
      · rw [live, wired]
        exact lived
      · rw [sampledLater row member, sampled row member, List.map_cons, List.sum_cons, Nat.add_assoc]
      · rw [othersLater horizon field other, others horizon field other]
  obtain ⟨after, left, lived, leftOpen, sampled, others⟩ := counted
  refine ⟨after, left, lived, leftOpen, fun row member => ⟨sampled row member, ?_⟩, others⟩
  rw [sampled row member, Nat.add_eq_left, List.sum_eq_zero_iff, List.forall_mem_map]
  refine forall₂_congr fun moments _ => ?_
  omega

end Live

/-- A cycle in which all raises that can, but for the writes of the files. -/
def writingMoment : Moment := { stormyMoment with writes := .none }

/-- Three sessions: of five cycles, of nineteen and of none. -/
theorem samples_over_sessions_short :
    ∃ after left, live (fun _ => 0) (fun _ => none) (fun _ => none) (fun _ => "") (some chainDoc)
        SafetyPreflight.declarationOrder CycleRunner.unaryIds {} (fun _ => .missing) 0
        [List.replicate 5 writingMoment, List.replicate 19 writingMoment, []] = .ok after ∧
      Stores.reopen strictReading (paths "state") (1 / 5) after.1 = some left ∧
      left.calibration.samplesOf (calibrationKey "system_health_ratio" "short") = 24 ∧
      left.calibration.samplesOf (calibrationKey "system_health_ratio" "medium") = 16 ∧
      left.calibration.samplesOf (calibrationKey "system_health_ratio" "long") = 0 := by
  have opened : Stores.reopen strictReading (paths "state") (1 / 5)
      (fun _ => .missing) = some ⟨⟨(paths "state").calibration, ∅⟩,
        ⟨1 / 5, (paths "state").planTree, ∅, PlanTree.keyed_empty⟩, fun _ => .missing⟩ := rfl
  have clean : ∀ moments ∈ [List.replicate 5 writingMoment, List.replicate 19 writingMoment, []], ∀ moment ∈ moments,
      moment.writes = .none := by
    intro moments listed moment member
    simp only [List.mem_cons, List.not_mem_nil, or_false] at listed
    rcases listed with rfl | rfl | rfl
    · rw [List.eq_of_mem_replicate member]
      rfl
    · rw [List.eq_of_mem_replicate member]
      rfl
    · cases member
  obtain ⟨after, left, lived, reopened, sampled, -⟩ :=
    samples_over_sessions rfl rfl wireGraph_chain opened clean 0
  refine ⟨after, left, lived, reopened, ?_, ?_, ?_⟩
  · exact (sampled (.short, 1) (by decide)).1
  · exact (sampled (.medium, 5) (by decide)).1
  · exact (sampled (.long, 20) (by decide)).1

end CentroidDaemon

end Centroid
