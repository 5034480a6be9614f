import Centroid.Planner.FeedbackLoop
import Centroid.Planner.Restarts

namespace Centroid

open StateLoad

namespace ForecastFeedbackLoop

section Invariant

variable {F : Type} [Zero F] [One F] [Add F] [Sub F] [Mul F] [Div F] [NatCast F] [LT F] [DecidableLT F] [FloatLike F]
  [FloatSum F]
variable (faults : WriteFaults) (now : F) (actualValues : Dict String F) (Keeps : ResolveState F → Prop)

/-- The update of one thread within `resolve`. -/
def refreshed (state : ResolveState F) (threadId : String) (newConf : F) : ResolveState F :=
  let (planTree, disk, _) := state.planTree.updateConfidence threadId newConf now state.disk
    (faults.planTree state.planTreeWrites)
  { state with planTree := planTree, disk := disk, planTreeWrites := state.planTreeWrites + 1 }

/-- Each update that the loop over some threads makes is as required. -/
def RefreshesHold (Holds : ResolveState F → Forecast F → String → Prop) (forecastId : String) (forecast : Forecast F) :
    List (PlanThread F) → ResolveState F → Prop
  | [], _ => True
  | thread :: rest, state =>
    if forecastId ∈ thread.forecastIds then
      Holds state forecast thread.threadId ∧ (faults.planTree state.planTreeWrites = false →
        RefreshesHold Holds forecastId forecast rest (refreshed faults now state thread.threadId
          (ForecastGenerator.confidenceOf (recordedMaes state.calibration forecast))))
    else RefreshesHold Holds forecastId forecast rest state

/-- Each update that the loop over the pending forecasts makes is as required. -/
def ResolvesHold (Holds : ResolveState F → Forecast F → String → Prop) (cycle : ℕ) :
    List (String × PendingForecast F) → ResolveState F → Prop
  | [], _ => True
  | (forecastId, pending) :: rest, state =>
    if cycle - pending.registeredCycle < pending.forecast.cycleDistance then ResolvesHold Holds cycle rest state
    else
      let scored := pending.forecast.predictions.entries.foldl
        (scoreField faults actualValues forecastId pending.forecast) state
      RefreshesHold faults now Holds forecastId pending.forecast scored.planTree.activeThreads scored ∧
        match refreshThreads faults now forecastId pending.forecast scored.planTree.activeThreads scored with
        | (_, some _) => True
        | (state, none) => ResolvesHold Holds cycle rest { state with resolvedIds := state.resolvedIds ++ [forecastId] }

omit [Zero F] [Add F] [Mul F] in
/-- What the required updates of active threads keep, the loop over active
threads keeps. -/
theorem refreshThreads_keeps {Holds : ResolveState F → Forecast F → String → Prop}
    (update : ∀ state forecast threadId, Keeps state → state.planTree.ActiveIn threadId → Holds state forecast threadId →
      Keeps (refreshed faults now state threadId
        (ForecastGenerator.confidenceOf (recordedMaes state.calibration forecast))))
    (forecastId : String) (forecast : Forecast F) {threads : List (PlanThread F)} {state : ResolveState F} (keeps : Keeps state)
    (active : ∀ thread ∈ threads, state.planTree.ActiveIn thread.threadId)
    (distinct : (threads.map PlanThread.threadId).Nodup)
    (required : RefreshesHold faults now Holds forecastId forecast threads state) :
    Keeps (refreshThreads faults now forecastId forecast threads state).1 := by
  induction threads generalizing state with
  | nil => exact keeps
  | cons thread rest ih =>
    obtain ⟨apart, restDistinct⟩ := List.nodup_cons.mp distinct
    rw [refreshThreads]
    rw [RefreshesHold] at required
    split
    · rename_i linked
      rw [if_pos linked] at required
      obtain ⟨holds, restRequired⟩ := required
      have first := update state forecast thread.threadId keeps (active thread List.mem_cons_self) holds
      have later : ∀ other ∈ rest, (refreshed faults now state thread.threadId
          (ForecastGenerator.confidenceOf (recordedMaes state.calibration forecast))).planTree.ActiveIn other.threadId := by
        intro other member
        have ne : thread.threadId ≠ other.threadId := by
          intro same
          exact apart (same ▸ List.mem_map_of_mem member)
        obtain ⟨stored, found, isActive⟩ := active other (List.mem_cons_of_mem _ member)
        refine ⟨stored, ?_, isActive⟩
        rw [refreshed, PlanTree.get?_updateConfidence, if_neg ne]
        exact found
      obtain ⟨stored, found, -⟩ := active thread List.mem_cons_self
      dsimp only
      split
      · exact first
      · rename_i succeeded
        have written : faults.planTree state.planTreeWrites = false := by
          simp only [PlanTree.updateConfidence, found] at succeeded
          split at succeeded
          · cases succeeded
          · rename_i written
            exact Bool.eq_false_iff.mpr written
        exact ih first later restDistinct (restRequired written)
    · rename_i unlinked
      rw [if_neg unlinked] at required
      exact ih keeps (fun other member => active other (List.mem_cons_of_mem _ member)) restDistinct required

/-- What the scores and the required updates of active threads keep, `resolve`
keeps. -/
theorem resolvePending_keeps_of {Holds : ResolveState F → Forecast F → String → Prop}
    (score : ∀ state forecastId forecast entry, Keeps state →
      Keeps (scoreField faults actualValues forecastId forecast state entry))
    (update : ∀ state forecast threadId, Keeps state → state.planTree.ActiveIn threadId → Holds state forecast threadId →
      Keeps (refreshed faults now state threadId
        (ForecastGenerator.confidenceOf (recordedMaes state.calibration forecast))))
    (resolved : ∀ state ids, Keeps state → Keeps { state with resolvedIds := ids })
    (cycle : ℕ) (pending : List (String × PendingForecast F)) (state : ResolveState F) (keeps : Keeps state)
    (required : ResolvesHold faults now actualValues Holds cycle pending state) :
    Keeps (resolvePending faults now cycle actualValues pending state).1 := by
  induction pending generalizing state with
  | nil => exact keeps
  | cons entry rest ih =>
    obtain ⟨forecastId, waiting⟩ := entry
    rw [resolvePending]
    rw [ResolvesHold] at required
    split
    · rename_i early
      rw [if_pos early] at required
      exact ih state keeps required
    · rename_i mature
      rw [if_neg mature] at required
      obtain ⟨refreshes, later⟩ := required
      have scored : ∀ entries : List (String × F), ∀ state, Keeps state →
          Keeps (entries.foldl (scoreField faults actualValues forecastId waiting.forecast) state) := by
        intro entries
        induction entries with
        | nil => exact fun _ keeps => keeps
        | cons entry entries ihEntries => exact fun state keeps => ihEntries _ (score state _ _ entry keeps)
      have refreshedAll := refreshThreads_keeps faults now Keeps update forecastId waiting.forecast
        (scored waiting.forecast.predictions.entries state keeps) (fun thread => PlanTree.activeIn_of_mem _)
        (PlanTree.activeThreads_nodup _) refreshes
      dsimp only
      split
      · rename_i raised
        rw [raised] at refreshedAll
        exact refreshedAll
      · rename_i finished
        rw [finished] at refreshedAll later
        exact ih _ (resolved _ _ refreshedAll) later

/-- Each update of a thread that `resolve` makes is as required. -/
def EachUpdate (Holds : ResolveState F → Forecast F → String → Prop) (self : ForecastFeedbackLoop F) (disk : Disk F) : Prop :=
  ResolvesHold faults now actualValues Holds (self.cycle + 1) self.pending.entries
    ⟨self.calibration, self.planTree, disk, 0, 0, [], []⟩

omit [Zero F] [Add F] [Mul F] in
theorem refreshesHold_of_forall {Holds : ResolveState F → Forecast F → String → Prop}
    (all : ∀ state forecast threadId, Holds state forecast threadId) (forecastId : String) (forecast : Forecast F)
    (threads : List (PlanThread F)) (state : ResolveState F) :
    RefreshesHold faults now Holds forecastId forecast threads state := by
  induction threads generalizing state with
  | nil => exact trivial
  | cons thread rest ih =>
    rw [RefreshesHold]
    split
    · exact ⟨all _ _ _, fun _ => ih _⟩
    · exact ih _

theorem resolvesHold_of_forall {Holds : ResolveState F → Forecast F → String → Prop}
    (all : ∀ state forecast threadId, Holds state forecast threadId) (cycle : ℕ) (pending : List (String × PendingForecast F))
    (state : ResolveState F) : ResolvesHold faults now actualValues Holds cycle pending state := by
  induction pending generalizing state with
  | nil => exact trivial
  | cons entry rest ih =>
    rw [ResolvesHold]
    split
    · exact ih _
    · refine ⟨refreshesHold_of_forall faults now all _ _ _ _, ?_⟩
      split
      · exact trivial
      · exact ih _

/-- What the scores and all updates of active threads keep, `resolve` keeps. -/
theorem resolvePending_keeps
    (score : ∀ state forecastId forecast entry, Keeps state →
      Keeps (scoreField faults actualValues forecastId forecast state entry))
    (update : ∀ state threadId newConf, Keeps state → state.planTree.ActiveIn threadId →
      Keeps (refreshed faults now state threadId newConf))
    (resolved : ∀ state ids, Keeps state → Keeps { state with resolvedIds := ids })
    (cycle : ℕ) (pending : List (String × PendingForecast F)) (state : ResolveState F) (keeps : Keeps state) :
    Keeps (resolvePending faults now cycle actualValues pending state).1 :=
  resolvePending_keeps_of faults now actualValues Keeps score
    (fun state _ threadId keeps active (_ : True) => update state threadId _ keeps active) resolved cycle
    pending state keeps (resolvesHold_of_forall faults now actualValues (fun _ _ _ => trivial) cycle pending state)

end Invariant

end ForecastFeedbackLoop

/-- A feedback loop with its stores, and the files. -/
structure PlanRun where
  loop : ForecastFeedbackLoop
  disk : Disk ℚ

/-- What happens to a plan tree. Each call says whether its write fails. A
restart leaves open what the calibration store finds. -/
inductive PlanCall where
  | addThread (goal : String) (steps : List PlanStep) (initialConfidence : ℚ) (forecastIds : Option (List String))
      (threadId : String) (createdAt updatedAt : ℚ) (fails : Bool)
  | updateConfidence (threadId : String) (newConfidence now : ℚ) (fails : Bool)
  | complete (threadId : String) (now : ℚ) (fails : Bool)
  | register (forecast : Forecast)
  | resolve (actualValues : Dict String ℚ) (faults : WriteFaults) (now : ℚ)
  | restart (threshold : ℚ) (records : Dict String CalibrationRecord)

namespace PlanRun

def tree (self : PlanRun) : PlanTree := self.loop.planTree

def statusOf (self : PlanRun) (threadId : String) : Option ThreadStatus :=
  (self.tree.threads.get? threadId).map PlanThread.status

/-- The run with another tree and its files. -/
def withTree (self : PlanRun) (planTree : PlanTree) (disk : Disk ℚ) : PlanRun :=
  ⟨{ self.loop with planTree := planTree }, disk⟩

section

variable (reading : NumberReading ℚ ℚ) (paths : StatePaths)

/-- A constructor that raises leaves everything as it was. -/
def step (self : PlanRun) : PlanCall → PlanRun
  | .addThread goal steps initialConfidence forecastIds threadId createdAt updatedAt fails =>
    let (planTree, disk, _) := self.tree.addThread goal steps initialConfidence forecastIds threadId createdAt updatedAt
      self.disk fails
    self.withTree planTree disk
  | .updateConfidence threadId newConfidence now fails =>
    let (planTree, disk, _) := self.tree.updateConfidence threadId newConfidence now self.disk fails
    self.withTree planTree disk
  | .complete threadId now fails =>
    let (planTree, disk, _) := self.tree.complete threadId now self.disk fails
    self.withTree planTree disk
  | .register forecast => { self with loop := self.loop.register forecast }
  | .resolve actualValues faults now =>
    let (loop, disk, _) := self.loop.resolve faults now actualValues self.disk
    ⟨loop, disk⟩
  | .restart threshold records =>
    match PlanTree.reopen reading threshold paths.planTree self.disk with
    | none => self
    | some planTree => ⟨.init ⟨paths.calibration, records⟩ planTree, self.disk⟩

def run (self : PlanRun) (calls : List PlanCall) : PlanRun := calls.foldl (step reading paths) self

/-- The call overrules no status: it gives no thread the identifier of one that
is not active, completes no abandoned one, and gives a completed one no
confidence below the threshold. -/
def Respects (self : PlanRun) : PlanCall → Prop
  | .addThread _ _ _ _ threadId _ _ _ => ∀ status, self.statusOf threadId = some status → status = .active
  | .updateConfidence threadId newConfidence _ _ =>
    self.statusOf threadId = some .completed → self.tree.abandonThreshold ≤ newConfidence
  | .complete threadId _ _ => self.statusOf threadId ≠ some .abandoned
  | .register _ | .resolve _ _ _ | .restart _ _ => True

/-- At a restart, the state file has the completed and abandoned threads as such. -/
def OnFile (self : PlanRun) : PlanCall → Prop
  | .restart threshold _ => ∀ planTree, PlanTree.reopen reading threshold paths.planTree self.disk = some planTree →
      ∀ threadId status, status ≠ .active → self.statusOf threadId = some status →
        (planTree.threads.get? threadId).map PlanThread.status = some status
  | _ => True

/-- Each call of the run overrules no status and loses none. -/
def Orderly (self : PlanRun) : List PlanCall → Prop
  | [] => True
  | call :: rest => self.Respects call ∧ self.OnFile reading paths call ∧ (self.step reading paths call).Orderly rest

/-- Every thread that is completed or abandoned now is so later. -/
def Keeps (self later : PlanRun) : Prop :=
  ∀ threadId status, status ≠ .active → self.statusOf threadId = some status → later.statusOf threadId = some status

variable {reading paths}

variable (reading paths) in
/-- What the updates of the records and the required ones of active threads keep of
the stores and the files, a resolution keeps. -/
theorem resolve_keeps (Keeps : CalibrationStore → PlanTree → Disk ℚ → Prop)
    {Holds : ResolveState → Forecast → String → Prop} {self : PlanRun} {actualValues : Dict String ℚ}
    {faults : WriteFaults} {now : ℚ}
    (score : ∀ calibration planTree disk field horizon predicted actual fails, Keeps calibration planTree disk →
      Keeps (CalibrationStore.update calibration field horizon predicted actual disk fails).1 planTree
        (calibration.update field horizon predicted actual disk fails).2.1)
    (update : ∀ (state : ResolveState) forecast threadId, Keeps state.calibration state.planTree state.disk →
      state.planTree.ActiveIn threadId → Holds state forecast threadId →
      let newConf := ForecastGenerator.confidenceOf (ForecastFeedbackLoop.recordedMaes state.calibration forecast)
      let updated := state.planTree.updateConfidence threadId newConf now state.disk (faults.planTree state.planTreeWrites)
      Keeps state.calibration updated.1 updated.2.1)
    (start : Keeps self.loop.calibration self.tree self.disk)
    (required : self.loop.EachUpdate faults now actualValues Holds self.disk) :
    let later := self.step reading paths (.resolve actualValues faults now)
    Keeps later.loop.calibration later.tree later.disk := by
  have kept := ForecastFeedbackLoop.resolvePending_keeps_of faults now actualValues
    (fun state => Keeps state.calibration state.planTree state.disk)
    (fun state forecastId forecast entry keeps => score _ _ _ _ _ _ _ _ keeps)
    (fun state forecast threadId keeps active holds => update state forecast threadId keeps active holds)
    (fun state ids keeps => keeps) (self.loop.cycle + 1) self.loop.pending.entries
    ⟨self.loop.calibration, self.loop.planTree, self.disk, 0, 0, [], []⟩ start required
  obtain ⟨records, threads, disk⟩ := self.loop.resolve_stores faults now actualValues self.disk
  dsimp only [PlanRun.step, tree]
  rw [records, threads, disk]
  exact kept

end

/-- A plan without threads, on no files. -/
def emptyPlan : PlanRun := ⟨.init ⟨"state/calibration.json", ∅⟩ ⟨1 / 5, "state/plan_tree.json", ∅, PlanTree.keyed_empty⟩,
  fun _ => .missing⟩

def wordsOnly : NumberReading ℚ ℚ := exactReading (fun _ => none) (fun _ => none) fun _ => ""

/-- The empty plan after some calls. -/
def after (calls : List PlanCall) : PlanRun := emptyPlan.run wordsOnly Stores.defaultPaths calls

section Quiet

variable {floatOfText : String → Option ℚ} {intOfText : String → Option ℤ} {render : Value ℚ → String}
  {paths : StatePaths}

/-- The state file holds the threads that the tree has. -/
def InStep (reading : NumberReading ℚ ℚ) (paths : StatePaths) (calibration : CalibrationStore) (planTree : PlanTree)
    (disk : Disk ℚ) : Prop :=
  calibration.path = paths.calibration ∧ planTree.path = paths.planTree ∧ ∀ threshold, ∃ found,
    PlanTree.reopen reading threshold paths.planTree disk = some found ∧ found.threads = planTree.threads

/-- No write of the plan tree fails during the call. -/
def Quiet : PlanCall → Prop
  | .addThread _ _ _ _ _ _ _ fails => fails = false
  | .updateConfidence _ _ _ fails => fails = false
  | .complete _ _ fails => fails = false
  | .resolve _ faults _ => ∀ i, faults.planTree i = false
  | .register _ | .restart _ _ => True

/-- Each call of the run overrules no status. -/
def Respectful (reading : NumberReading ℚ ℚ) (paths : StatePaths) (self : PlanRun) : List PlanCall → Prop
  | [] => True
  | call :: rest => self.Respects call ∧ (self.step reading paths call).Respectful reading paths rest

theorem InStep.setThread {calibration : CalibrationStore} {planTree : PlanTree} {disk : Disk ℚ}
    (inStep : InStep (exactReading floatOfText intOfText render) paths calibration planTree disk) (thread : PlanThread) :
    InStep (exactReading floatOfText intOfText render) paths calibration (planTree.setThread thread)
      ((planTree.setThread thread).persist disk false) := by
  obtain ⟨ownRecords, ownThreads, -⟩ := inStep
  refine ⟨ownRecords, ownThreads, fun threshold => ⟨planTree.setThread thread, ?_, rfl⟩⟩
  have written := (planTree.setThread thread).reopen_persist floatOfText intOfText render threshold disk
  rwa [show (planTree.setThread thread).path = paths.planTree from ownThreads] at written

theorem InStep.updateRecord {reading : NumberReading ℚ ℚ} {calibration : CalibrationStore} {planTree : PlanTree}
    {disk : Disk ℚ} (inStep : InStep reading paths calibration planTree disk) (field horizon : String)
    (predicted actual : ℚ) (fails : Bool) :
    InStep reading paths (calibration.update field horizon predicted actual disk fails).1 planTree
      (calibration.update field horizon predicted actual disk fails).2.1 := by
  obtain ⟨ownRecords, ownThreads, held⟩ := inStep
  refine ⟨ownRecords, ownThreads, fun threshold => ?_⟩
  have own : (calibration.update field horizon predicted actual disk fails).1.path = paths.calibration := ownRecords
  have sameTree := PlanTree.reopen_persist_calibration reading threshold own disk fails
  obtain ⟨found, opened, same⟩ := held threshold
  exact ⟨found, sameTree.trans opened, same⟩

theorem InStep.updateConfidence {calibration : CalibrationStore} {planTree : PlanTree} {disk : Disk ℚ}
    (inStep : InStep (exactReading floatOfText intOfText render) paths calibration planTree disk) (threadId : String)
    (newConfidence now : ℚ) :
    InStep (exactReading floatOfText intOfText render) paths calibration
      (planTree.updateConfidence threadId newConfidence now disk false).1
      (planTree.updateConfidence threadId newConfidence now disk false).2.1 := by
  rw [PlanTree.updateConfidence]
  split
  · exact inStep
  · exact inStep.setThread _

/-- After a call without failed writes, the state file holds the threads. -/
theorem InStep.step {self : PlanRun}
    (inStep : InStep (exactReading floatOfText intOfText render) paths self.loop.calibration self.tree self.disk)
    {call : PlanCall} (quiet : Quiet call) :
    InStep (exactReading floatOfText intOfText render) paths
      (self.step (exactReading floatOfText intOfText render) paths call).loop.calibration
      (self.step (exactReading floatOfText intOfText render) paths call).tree
      (self.step (exactReading floatOfText intOfText render) paths call).disk := by
  cases call with
  | addThread goal steps initialConfidence forecastIds threadId createdAt updatedAt fails =>
    cases (show fails = false from quiet)
    exact inStep.setThread _
  | updateConfidence threadId newConfidence now fails =>
    cases (show fails = false from quiet)
    exact inStep.updateConfidence threadId newConfidence now
  | complete threadId now fails =>
    cases (show fails = false from quiet)
    rw [PlanRun.step, PlanTree.complete]
    cases self.tree.threads.get? threadId with
    | none => exact inStep
    | some thread => exact inStep.setThread _
  | register forecast => exact inStep
  | resolve actualValues faults now =>
    refine resolve_keeps _ paths (InStep (exactReading floatOfText intOfText render) paths)
      (fun _ _ _ field horizon predicted actual fails inStep => inStep.updateRecord field horizon predicted actual fails)
      (fun state forecast threadId inStep _ _ => ?_) inStep
      (ForecastFeedbackLoop.resolvesHold_of_forall faults now actualValues (fun _ _ _ => trivial) _ _ _)
    rw [quiet state.planTreeWrites]
    exact inStep.updateConfidence threadId _ now
  | restart threshold records =>
    rw [PlanRun.step]
    split
    · exact inStep
    · rename_i planTree opened
      exact ⟨rfl, PlanTree.reopen_path opened, fun other => PlanTree.reopen_threads opened other⟩

/-- Where the state file holds the threads, a restart loses none. -/
theorem InStep.onFile {reading : NumberReading ℚ ℚ} {self : PlanRun}
    (inStep : InStep reading paths self.loop.calibration self.tree self.disk) (call : PlanCall) :
    self.OnFile reading paths call := by
  cases call with
  | restart threshold records =>
    intro planTree opened threadId status _ reached
    obtain ⟨found, opened', threads⟩ := inStep.2.2 threshold
    rw [opened] at opened'
    rw [Option.some.inj opened', threads]
    exact reached
  | _ => exact trivial

/-- Without failed writes nothing is lost at a restart: a run from what a
constructor loads is orderly where it overrules no status. -/
theorem orderly_of_quiet {start : PlanRun} {threshold : ℚ} (ownRecords : start.loop.calibration.path = paths.calibration)
    (opened : PlanTree.reopen (exactReading floatOfText intOfText render) threshold paths.planTree start.disk =
      some start.tree)
    {calls : List PlanCall} (quiet : ∀ call ∈ calls, Quiet call)
    (respectful : start.Respectful (exactReading floatOfText intOfText render) paths calls) :
    start.Orderly (exactReading floatOfText intOfText render) paths calls := by
  have inStep : InStep (exactReading floatOfText intOfText render) paths start.loop.calibration start.tree start.disk :=
    ⟨ownRecords, PlanTree.reopen_path opened, fun other => PlanTree.reopen_threads opened other⟩
  clear ownRecords opened
  induction calls generalizing start with
  | nil => exact trivial
  | cons call rest ih =>
    obtain ⟨respects, later⟩ := respectful
    refine ⟨respects, inStep.onFile call, ?_⟩
    exact ih (fun other member => quiet other (List.mem_cons_of_mem _ member)) later
      (inStep.step (quiet call List.mem_cons_self))

end Quiet

end PlanRun

end Centroid
