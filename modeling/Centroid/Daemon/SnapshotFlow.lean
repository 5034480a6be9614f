import Centroid.Daemon.Sessions

namespace Centroid

open Rounding StateLoad

/-- The seeds that a snapshot gives: the health of its nodes. -/
def WorldSnapshot.seeds (self : WorldSnapshot) : Dict (Key ℚ) ℚ :=
  .ofList (self.nodeHealth.entries.map fun entry => (.str entry.1, entry.2))

namespace CoherenceGraph

/-- The report of a snapshot, but for its time. -/
def reportOf (graph : CoherenceGraph) (snapshot : WorldSnapshot) (now : ℚ) : CoherenceReport :=
  graph.calculator.compute (graph.propagator.propagate snapshot.seeds) now

/-- A snapshot as its file holds it: with no index, or with its own one. -/
def OnFile (graph : CoherenceGraph) (snapshot : WorldSnapshot) (disk : Disk ℚ) : Prop :=
  ∃ index, (index = .null ∨ index = .num (graph.reportOf snapshot 0).coherenceIndex) ∧
    disk graph.snapshotPath = .object { rawOf snapshot with coherenceIndex := index }.asDict

section

variable {graph : CoherenceGraph} {snapshot : WorldSnapshot} {disk : Disk ℚ}

theorem OnFile.congr (onFile : graph.OnFile snapshot disk) {other : Disk ℚ}
    (same : other graph.snapshotPath = disk graph.snapshotPath) : graph.OnFile snapshot other := by
  obtain ⟨index, own, file⟩ := onFile
  exact ⟨index, own, same.trans file⟩

theorem OnFile.seeds (onFile : graph.OnFile snapshot disk) (floatOfText : String → Option ℚ) :
    graph.readSeedValues floatOfText disk = snapshot.seeds := by
  obtain ⟨index, -, file⟩ := onFile
  have health : Assoc.get? { rawOf snapshot with coherenceIndex := index }.asDict (.str "node_health") =
      some (numbersValue snapshot.nodeHealth) := rfl
  have numbers : (snapshot.nodeHealth.entries.map fun entry : String × ℚ => (Key.str (N := ℚ) entry.1, Value.num entry.2)).mapM
      (fun entry => (floatOf floatOfText entry.2).map (Prod.mk entry.1)) =
        some (snapshot.nodeHealth.entries.map fun entry => (Key.str entry.1, entry.2)) := by
    rw [List.mapM_map]
    exact List.mapM_pure
  simp only [readSeedValues, file, health, Option.getD_some, numbersValue, numbers, WorldSnapshot.seeds]

/-- The tick over a snapshot on file, whichever write raises: its report is that
of this snapshot, which stays on file. -/
theorem OnFile.tickUnder (onFile : graph.OnFile snapshot disk) {stateDir : String}
    (samePath : graph.snapshotPath = SnapshotWriter.snapshotPath stateDir) (floatOfText : String → Option ℚ)
    (fault : SnapshotFault) (now : ℚ) :
    graph.OnFile snapshot (graph.tickUnder floatOfText fault stateDir disk now).2 ∧
      ∀ report, (graph.tickUnder floatOfText fault stateDir disk now).1 = some report → report = graph.reportOf snapshot now := by
  have seeds := onFile.seeds floatOfText
  obtain ⟨index, own, file⟩ := onFile
  have read : SnapshotWriter.readSnapshot stateDir disk = some { rawOf snapshot with coherenceIndex := index } := by
    rw [SnapshotWriter.readSnapshot, ← samePath, file]
    rfl
  have rounded : roundTo 6 (graph.reportOf snapshot now).coherenceIndex = (graph.reportOf snapshot 0).coherenceIndex := by
    rw [reportOf, CoherenceIndexCalculator.compute_rounded, CoherenceIndexCalculator.compute_time _ _ now 0]
    rfl
  unfold CoherenceGraph.tickUnder
  rw [seeds, ← reportOf, read]
  dsimp only [rawOf, numbersValue, dictOf]
  rw [rounded]
  refine ⟨?_, fun report isReport => ?_⟩
  · cases fault with
    | none =>
      refine ⟨_, Or.inr rfl, ?_⟩
      rw [samePath]
      exact SnapshotWriter.writeRaw_snapshotPath stateDir _ disk
    | snapshot => exact ⟨index, own, file⟩
    | trends =>
      refine ⟨_, Or.inr rfl, ?_⟩
      rw [samePath]
      exact Function.update_self _ _ _
  · split at isReport
    · exact (Option.some.inj isReport).symm
    · cases isReport

end

end CoherenceGraph

/-- A resolution writes to the files of its two stores. -/
theorem ForecastFeedbackLoop.resolve_elsewhere (self : ForecastFeedbackLoop) (faults : WriteFaults) (now : ℚ)
    (actualValues : Dict String ℚ) (disk : Disk ℚ) :
    let after := self.resolve faults now actualValues disk
    after.1.calibration.path = self.calibration.path ∧ after.1.planTree.path = self.planTree.path ∧
      ∀ path, path ≠ self.calibration.path → path ≠ self.planTree.path → after.2.1 path = disk path := by
  intro after
  obtain ⟨records, threads, files⟩ := self.resolve_stores faults now actualValues disk
  rw [records, threads, files]
  refine resolvePending_keeps faults now actualValues
    (fun state => state.calibration.path = self.calibration.path ∧ state.planTree.path = self.planTree.path ∧
      ∀ path, path ≠ self.calibration.path → path ≠ self.planTree.path → state.disk path = disk path)
    ?_ ?_ (fun state ids keeps => keeps) _ _ _ ⟨rfl, rfl, fun _ _ _ => rfl⟩
  · rintro state forecastId forecast entry ⟨ownRecords, ownThreads, elsewhere⟩
    refine ⟨ownRecords, ownThreads, fun path notRecords notThreads => ?_⟩
    rw [← elsewhere path notRecords notThreads]
    exact state.disk.write_of_ne (ownRecords ▸ notRecords) _ _
  · rintro state threadId newConf ⟨ownRecords, ownThreads, elsewhere⟩ ⟨thread, found, -⟩
    simp only [refreshed, PlanTree.updateConfidence, found]
    refine ⟨ownRecords, ownThreads, fun path notRecords notThreads => ?_⟩
    rw [← elsewhere path notRecords notThreads]
    exact state.disk.write_of_ne (ownThreads ▸ notThreads) _ _

namespace CycleRunner

/-- The stores of the loop, if there is one, have their files at the paths. -/
def Placed (runner : CycleRunner) (paths : StatePaths) : Prop :=
  ∀ loop, runner.feedbackLoop = some loop →
    loop.calibration.path = paths.calibration ∧ loop.planTree.path = paths.planTree

theorem Placed.forecastStep {runner : CycleRunner} {paths : StatePaths} (placed : runner.Placed paths) (ids : IdSource)
    (values : Dict String ℚ) (now : ℚ) : (runner.forecastStep ids values now).1.Placed paths := by
  unfold CycleRunner.forecastStep
  split
  · exact placed
  · split
    · exact placed
    · intro loop registered
      obtain ⟨before, loops, rfl⟩ := Option.map_eq_some_iff.mp registered
      rw [(ForecastFeedbackLoop.foldl_register_stores _ before).1, (ForecastFeedbackLoop.foldl_register_stores _ before).2]
      exact placed before loops

theorem Placed.feedbackStep {runner : CycleRunner} {paths : StatePaths} (placed : runner.Placed paths)
    (values : Dict String ℚ) (faults : WriteFaults) (now : ℚ) (disk : Disk ℚ) :
    (runner.feedbackStep values faults now disk).1.Placed paths ∧
      ∀ path, path ≠ paths.calibration → path ≠ paths.planTree →
        (runner.feedbackStep values faults now disk).2.1 path = disk path := by
  cases loops : runner.feedbackLoop with
  | none =>
    have idle : runner.feedbackStep values faults now disk = (runner, disk, none, []) := by
      rw [CycleRunner.feedbackStep, loops]
    rw [idle]
    exact ⟨placed, fun _ _ _ => rfl⟩
  | some loop =>
    obtain ⟨ownRecords, ownThreads⟩ := placed loop loops
    obtain ⟨sameRecords, sameThreads, elsewhere⟩ := loop.resolve_elsewhere faults now values disk
    obtain ⟨after, files⟩ := feedbackStep_of_loop loops values faults now disk
    rw [after, files]
    refine ⟨fun loop' found => ?_, fun path notRecords notThreads => ?_⟩
    · rw [← Option.some.inj found]
      exact ⟨sameRecords.trans ownRecords, sameThreads.trans ownThreads⟩
    · exact elsewhere path (ownRecords ▸ notRecords) (ownThreads ▸ notThreads)

theorem Placed.run {runner : CycleRunner} {paths : StatePaths} (placed : runner.Placed paths) (ids : IdSource) (c : ℕ)
    (env : CycleEnvironment) (disk : Disk ℚ) :
    (runner.run ids c env disk).1.Placed paths ∧
      ∀ path, path ≠ paths.calibration → path ≠ paths.planTree → (runner.run ids c env disk).2.1 path = disk path :=
  (placed.forecastStep ids (currentValues (guarded runner.selfModel env.selfModelTick .selfModel).1)
    env.startedAt).feedbackStep _ env.faults env.startedAt disk

end CycleRunner

namespace CentroidDaemon

/-- The snapshot that has reached its file last. -/
def lastWritten (traces : List CycleTrace) : Option WorldSnapshot := (traces.filterMap CycleTrace.written).getLast?

theorem lastWritten_append_singleton (before : List CycleTrace) (trace : CycleTrace) :
    lastWritten (before ++ [trace]) = trace.written.or (lastWritten before) := by
  rw [lastWritten, List.filterMap_append, List.getLast?_append]
  cases written : trace.written <;> simp [written, lastWritten]

theorem lastWritten_of_mem {traces : List CycleTrace} {trace : CycleTrace} (member : trace ∈ traces)
    {snapshot : WorldSnapshot} (written : trace.written = some snapshot) : ∃ last, lastWritten traces = some last := by
  have inside : snapshot ∈ traces.filterMap CycleTrace.written := List.mem_filterMap.mpr ⟨trace, member, written⟩
  rw [lastWritten, List.getLast?_eq_some_getLast (List.ne_nil_of_mem inside)]
  exact ⟨_, rfl⟩

/-- A daemon whose graph reads the snapshot of its self model, and whose planner
writes elsewhere. -/
structure Flowing (daemon : CentroidDaemon) (graph : CoherenceGraph) : Prop where
  wired : daemon.coherenceGraph = some graph
  path : graph.snapshotPath = SnapshotWriter.snapshotPath daemon.stateDir
  placed : daemon.runner.Placed (paths daemon.stateDir)

section

variable (stdev : List ℚ → ℚ) (floatOfText : String → Option ℚ) (ids : IdSource) {graph : CoherenceGraph}
  {self : CentroidDaemon}

/-- What a tick of the self model leaves on file. -/
theorem Flowing.selfModelStep (flowing : self.Flowing graph) (moment : Moment) (disk : Disk ℚ) :
    (∀ snapshot, (self.selfModelStep stdev moment disk).written = some snapshot →
      graph.OnFile snapshot (self.selfModelStep stdev moment disk).disk) ∧
    ((self.selfModelStep stdev moment disk).written = none →
      (self.selfModelStep stdev moment disk).disk = disk) ∧
    ∀ snapshot, (self.selfModelStep stdev moment disk).returned = some snapshot →
      (self.selfModelStep stdev moment disk).written = some snapshot := by
  have cases := (SelfModel.tickUnder_cases stdev moment.tickFaults
    (moment.registered.foldl SelfModel.registerSource self.selfModel) moment.read disk moment.startedAt).2
  rw [SelfModel.foldl_registerSource_stateDir, self.sameDir] at cases
  rw [← CentroidDaemon.selfModelStep] at cases
  rcases cases with ⟨files, nothing, failed⟩ | ⟨snapshot, fault, written, notLost, noIndex, files, same⟩
  · rw [nothing, failed]
    exact ⟨fun _ found => (nomatch found), fun _ => files, fun _ found => (nomatch found)⟩
  · rw [written, files]
    refine ⟨fun other found => ?_, fun found => (nomatch found), fun other returned => ?_⟩
    · obtain rfl := Option.some.inj found
      have plain : { CoherenceGraph.rawOf snapshot with coherenceIndex := .null } = CoherenceGraph.rawOf snapshot := by
        simp only [CoherenceGraph.rawOf, noIndex, Option.elim_none]
      refine ⟨.null, Or.inl rfl, ?_⟩
      rw [flowing.path, plain]
      cases fault with
      | none => exact SnapshotWriter.writeRaw_snapshotPath self.stateDir _ disk
      | snapshot => exact absurd rfl notLost
      | trends => exact Function.update_self _ _ _
    · rw [same other returned]

/-- What a cycle shows of its two ticks. -/
theorem cycle_result (self : CentroidDaemon) (graphs : self.coherenceGraph = some graph) (c : ℕ) (moment : Moment)
    (disk : Disk ℚ) :
    let ticked := self.selfModelStep stdev moment disk
    let trace := (self.cycle stdev floatOfText ids c moment disk).2.2
    trace.written = ticked.written ∧ trace.result.selfModelSnapshot = ticked.returned ∧
      trace.result.coherenceReport = (self.coherenceStep floatOfText moment ticked.returned ticked.disk).1 := by
  intro ticked trace
  have snapshot : trace.result.selfModelSnapshot =
      (CycleRunner.guarded self.runner.selfModel (ticked.returned.elim (.error moment.raised) .ok) .selfModel).1 := rfl
  have report : trace.result.coherenceReport = (CycleRunner.guarded self.runner.coherenceGraph
      ((self.coherenceStep floatOfText moment ticked.returned ticked.disk).1.elim (.error moment.raised) .ok)
      .coherence).1 := rfl
  have asksGraph : self.runner.coherenceGraph = true := by
    rw [self.graphs, graphs]
    rfl
  rw [snapshot, report, self.models, asksGraph]
  refine ⟨rfl, ?_, ?_⟩
  · cases ticked.returned <;> rfl
  · cases (self.coherenceStep floatOfText moment ticked.returned ticked.disk).1 <;> rfl

/-- One cycle, after others that have left the last snapshot of theirs on file. -/
theorem Flowing.cycle (flowing : self.Flowing graph) {before : List CycleTrace} {disk : Disk ℚ}
    (onFile : ∀ snapshot, lastWritten before = some snapshot → graph.OnFile snapshot disk) (c : ℕ) (moment : Moment) :
    let after := self.cycle stdev floatOfText ids c moment disk
    after.1.Flowing graph ∧
      (∀ snapshot, after.2.2.result.selfModelSnapshot = some snapshot → after.2.2.written = some snapshot) ∧
      ∀ snapshot, lastWritten (before ++ [after.2.2]) = some snapshot → graph.OnFile snapshot after.2.1 ∧
        ∀ report, after.2.2.result.coherenceReport = some report → report = graph.reportOf snapshot moment.startedAt := by
  intro after
  obtain ⟨fresh, idle, isWritten⟩ := flowing.selfModelStep stdev moment disk
  obtain ⟨placed, elsewhere⟩ := flowing.placed.run ids c (self.seenEnvironment stdev floatOfText moment disk)
    (self.seen stdev floatOfText moment disk)
  obtain ⟨sameWritten, sameSnapshot, sameReport⟩ :=
    cycle_result stdev floatOfText ids self flowing.wired c moment disk
  refine ⟨⟨flowing.wired, flowing.path, placed⟩, fun snapshot returned => ?_, fun snapshot last => ?_⟩
  · rw [sameSnapshot] at returned
    exact sameWritten.trans (isWritten snapshot returned)
  · rw [lastWritten_append_singleton, sameWritten] at last
    have ticked : graph.OnFile snapshot (self.selfModelStep stdev moment disk).disk := by
      cases written : (self.selfModelStep stdev moment disk).written with
      | none =>
        rw [written, Option.none_or] at last
        rw [idle written]
        exact onFile snapshot last
      | some own =>
        rw [written, Option.some_or] at last
        rw [← Option.some.inj last]
        exact fresh own written
    have seen : graph.OnFile snapshot (self.seen stdev floatOfText moment disk) ∧
        ∀ report, after.2.2.result.coherenceReport = some report → report = graph.reportOf snapshot moment.startedAt := by
      rw [sameReport, CentroidDaemon.seen, coherenceStep, flowing.wired]
      dsimp only
      split
      · exact ⟨ticked, fun _ none => by cases none⟩
      · exact ticked.tickUnder flowing.path floatOfText moment.coherenceFault moment.startedAt
    refine ⟨seen.1.congr ?_, seen.2⟩
    rw [flowing.path]
    obtain ⟨notRecords, notThreads⟩ := paths_elsewhere self.stateDir
    exact elsewhere _ notRecords.1.symm notThreads.1.symm

/-- A session of cycles after others. -/
theorem Flowing.runFrom (flowing : self.Flowing graph) {before : List CycleTrace} {disk : Disk ℚ}
    (onFile : ∀ snapshot, lastWritten before = some snapshot → graph.OnFile snapshot disk) (c : ℕ)
    (moments : List Moment) :
    let final := self.runFrom stdev floatOfText ids disk c moments
    (∀ snapshot, lastWritten (before ++ final.2.2) = some snapshot → graph.OnFile snapshot final.2.1) ∧
      ∀ earlier trace later, final.2.2 = earlier ++ trace :: later →
        (∀ snapshot, trace.result.selfModelSnapshot = some snapshot → trace.written = some snapshot) ∧
        ∀ snapshot, lastWritten (before ++ (earlier ++ [trace])) = some snapshot →
          ∀ report, trace.result.coherenceReport = some report → ∃ now, report = graph.reportOf snapshot now := by
  induction moments generalizing self before disk c with
  | nil =>
    refine ⟨fun snapshot last => ?_, fun earlier trace later split => ?_⟩
    · rw [CentroidDaemon.runFrom, List.append_nil] at last
      exact onFile snapshot last
    · exact absurd split.symm (List.append_ne_nil_of_right_ne_nil earlier (List.cons_ne_nil trace later))
  | cons moment moments ih =>
    obtain ⟨flowing', isWritten, here⟩ := flowing.cycle stdev floatOfText ids onFile c moment
    obtain ⟨leaves, shows⟩ := ih flowing' (fun snapshot last => (here snapshot last).1) (c + 1)
    refine ⟨fun snapshot last => ?_, fun earlier trace later split => ?_⟩
    · refine leaves snapshot ?_
      rw [List.append_assoc, List.singleton_append]
      exact last
    · cases earlier with
      | nil =>
        obtain ⟨rfl, -⟩ := List.cons.inj split
        refine ⟨isWritten, fun snapshot last report isReport => ?_⟩
        exact ⟨_, (here snapshot last).2 report isReport⟩
      | cons first earlier =>
        obtain ⟨rfl, rest⟩ := List.cons.inj split
        obtain ⟨isWritten', reports⟩ := shows earlier trace later rest
        refine ⟨isWritten', fun snapshot last => ?_⟩
        refine reports snapshot ?_
        rw [List.append_assoc, List.singleton_append]
        exact last

theorem flowing_of_fromConfig {reading : NumberReading ℚ ℚ} {graphDoc : Option (Value ℚ)}
    {enumerate : ∀ g : CoherenceGraphDef (Key ℚ) ℚ, SetOrder g.nodeIds} {config : DaemonConfig} {disk : Disk ℚ}
    {drawn : ℕ} (wired : fromConfig reading graphDoc enumerate config disk drawn = .ok self)
    (hasGraph : self.coherenceGraph = some graph) : self.Flowing graph := by
  obtain ⟨dir, -, graphs, calibration, calibrated, looped⟩ := fromConfig_spec wired
  refine ⟨hasGraph, ?_, fun loop loops => ?_⟩
  · rw [hasGraph, wireGraph] at graphs
    split at graphs
    · split at graphs
      · cases graphs
      · rename_i built
        cases graphs
        rw [dir]
        exact (CoherenceGraph.init_spec built).2.1
    · cases graphs
  · rw [loops] at looped
    unfold wireLoop at looped
    split at looped
    · rename_i store
      split at looped
      · cases looped
      · rename_i planTree threads
        cases looped
        rw [dir]
        refine ⟨?_, PlanTree.reopen_path threads⟩
        unfold wireCalibration at calibrated
        split at calibrated
        · split at calibrated
          · cases calibrated
          · rename_i records
            cases calibrated
            exact (CalibrationStore.reopen_spec records).1
        · cases calibrated
    · cases looped

/-- In a session of a daemon with a graph every report of coherence is that of the
snapshot that has reached its file last, which is the one of its own cycle where the
cycle returns one. After the session this snapshot is on file, with no index or with
its own. All this holds whatever raises. -/
theorem report_of_last_written {reading : NumberReading ℚ ℚ} {graphDoc : Option (Value ℚ)}
    {enumerate : ∀ g : CoherenceGraphDef (Key ℚ) ℚ, SetOrder g.nodeIds} {config : DaemonConfig} {disk : Disk ℚ}
    {drawn : ℕ} (wired : fromConfig reading graphDoc enumerate config disk drawn = .ok self)
    (hasGraph : self.coherenceGraph = some graph) (moments : List Moment) :
    let final := self.runCycles stdev floatOfText ids disk moments
    (∀ snapshot, lastWritten final.2.2 = some snapshot → graph.OnFile snapshot final.2.1) ∧
      ∀ earlier trace later, final.2.2 = earlier ++ trace :: later →
        (∀ snapshot, trace.result.selfModelSnapshot = some snapshot →
          lastWritten (earlier ++ [trace]) = some snapshot) ∧
        ∀ snapshot, lastWritten (earlier ++ [trace]) = some snapshot →
          ∀ report, trace.result.coherenceReport = some report → ∃ now, report = graph.reportOf snapshot now := by
  have nothing : ∀ snapshot, lastWritten [] = some snapshot → graph.OnFile snapshot disk := fun _ none => nomatch none
  obtain ⟨leaves, shows⟩ := (flowing_of_fromConfig wired hasGraph).runFrom stdev floatOfText ids nothing 0 moments
  refine ⟨leaves, fun earlier trace later split => ?_⟩
  obtain ⟨isWritten, reports⟩ := shows earlier trace later split
  refine ⟨fun snapshot returned => ?_, reports⟩
  rw [lastWritten_append_singleton, isWritten snapshot returned, Option.some_or]

end

/-- A cycle in which this write of the snapshot raises. -/
def failingWrite (fault : SnapshotFault) : Moment :=
  { stormyMoment with
    tickFaults := ⟨fun _ => true, fault⟩
    seedFails := false
    coherenceFault := .none }

theorem report_of_last_written_chain :
    ∃ self snapshot,
      fromConfig strictReading (some chainDoc) SafetyPreflight.declarationOrder {} (fun _ => .missing) 0 = .ok self ∧
      let final := self.runCycles (fun _ => 0) (fun _ => none) CycleRunner.unaryIds (fun _ => .missing)
        [failingWrite .trends, failingWrite .snapshot]
      lastWritten final.2.2 = some snapshot ∧ SafetyPreflight.chainCoherence.OnFile snapshot final.2.1 := by
  have records : CalibrationStore.reopen strictReading (paths "state").calibration (fun _ => .missing) =
      some ⟨(paths "state").calibration, ∅⟩ := rfl
  have threads : PlanTree.reopen strictReading (1 / 5) (paths "state").planTree (fun _ => .missing) =
      some ⟨1 / 5, (paths "state").planTree, ∅, PlanTree.keyed_empty⟩ := rfl
  obtain ⟨self, wired, -, hasGraph, -⟩ := fromConfig_of_opened rfl rfl wireGraph_chain records threads 0
  obtain ⟨-, model, -⟩ := fromConfig_spec wired
  obtain ⟨onFile, -⟩ := report_of_last_written (fun _ => 0) (fun _ => none) CycleRunner.unaryIds wired hasGraph
    [failingWrite .trends, failingWrite .snapshot]
  have first : ∃ snapshot, (self.selfModelStep (fun _ => 0) (failingWrite .trends) fun _ => .missing).written =
      some snapshot := by
    rw [selfModelStep, model]
    exact ⟨_, rfl⟩
  obtain ⟨written, isWritten⟩ := first
  let trace := (self.cycle (fun _ => 0) (fun _ => none) CycleRunner.unaryIds 0 (failingWrite .trends) fun _ => .missing).2.2
  have reached : trace.written = some written := isWritten
  obtain ⟨snapshot, last⟩ := lastWritten_of_mem (List.mem_cons_self (a := trace)) reached
  exact ⟨self, snapshot, wired, last, onFile snapshot last⟩

end CentroidDaemon

end Centroid
