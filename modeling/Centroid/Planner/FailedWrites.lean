import Centroid.Planner.FeedbackLoop
import Centroid.Planner.Restarts

namespace Centroid

open Rounding StateLoad

namespace PlanTree

theorem ext_threads {self other : PlanTree} (threshold : self.abandonThreshold = other.abandonThreshold)
    (path : self.path = other.path) (threads : self.threads = other.threads) : self = other := by
  cases self
  cases other
  cases threshold
  cases path
  cases threads
  rfl

/-- To store a thread changes nothing where it is stored already. -/
theorem setThread_eq_self_iff (self : PlanTree) (thread : PlanThread) :
    self.setThread thread = self ↔ self.threads.get? thread.threadId = some thread := by
  rw [← Dict.set_eq_self_iff]
  exact ⟨fun same => congrArg PlanTree.threads same, fun same => ext_threads rfl rfl same⟩

theorem setThread_of_stored_eq_self_iff (self : PlanTree) {threadId : String} {thread other : PlanThread}
    (stored : self.threads.get? threadId = some thread) (own : other.threadId = thread.threadId) :
    self.setThread other = self ↔ other = thread := by
  rw [setThread_eq_self_iff, own, self.keyed threadId thread stored, stored, Option.some.injEq, eq_comm]

theorem refresh_eq_self_iff (self : PlanTree) (thread : PlanThread) (newConfidence now : ℚ) :
    self.refresh thread newConfidence now = thread ↔
      roundTo 6 newConfidence = thread.confidence ∧ now = thread.updatedAt ∧
        (newConfidence < self.abandonThreshold → thread.status = .abandoned) := by
  cases thread
  simp only [refresh, PlanThread.mk.injEq, true_and, and_true]
  rw [and_rotate]
  split
  · rename_i below
    simp only [below, true_imp_iff, eq_comm, roundTo_rat]
  · rename_i above
    simp [above]

theorem finish_eq_self_iff (thread : PlanThread) (now : ℚ) :
    finish thread now = thread ↔ now = thread.updatedAt ∧ thread.status = .completed := by
  cases thread
  simp only [finish, PlanThread.mk.injEq, true_and, and_true]
  exact ⟨fun same => ⟨same.2, same.1.symm⟩, fun same => ⟨same.2.symm, same.1⟩⟩

end PlanTree

/-- The thread that `add_thread` makes. -/
def newThread (goal : String) (steps : List PlanStep) (initialConfidence : ℚ) (forecastIds : Option (List String))
    (threadId : String) (createdAt updatedAt : ℚ) : PlanThread where
  threadId := threadId
  goal := goal
  steps := steps
  status := .active
  confidence := roundTo 6 initialConfidence
  createdAt := createdAt
  updatedAt := updatedAt
  forecastIds := forecastIds.getD []

namespace Stores

/-- A call whose write raises. -/
def failedCall (self : Stores) : StoreCall → Stores
  | .update field horizon predicted actual =>
    let (calibration, disk, _) := self.calibration.update field horizon predicted actual self.disk true
    ⟨calibration, self.planTree, disk⟩
  | .addThread goal steps initialConfidence forecastIds threadId createdAt updatedAt =>
    let (planTree, disk, _) := self.planTree.addThread goal steps initialConfidence forecastIds threadId createdAt
      updatedAt self.disk true
    ⟨self.calibration, planTree, disk⟩
  | .updateConfidence threadId newConfidence now =>
    let (planTree, disk, _) := self.planTree.updateConfidence threadId newConfidence now self.disk true
    ⟨self.calibration, planTree, disk⟩
  | .complete threadId now =>
    let (planTree, disk, _) := self.planTree.complete threadId now self.disk true
    ⟨self.calibration, planTree, disk⟩

/-- The call would leave everything as it is. An update of the calibration never
does. -/
def Idle (self : Stores) : StoreCall → Prop
  | .update _ _ _ _ => False
  | .addThread goal steps initialConfidence forecastIds threadId createdAt updatedAt =>
    self.planTree.threads.get? threadId =
      some (newThread goal steps initialConfidence forecastIds threadId createdAt updatedAt)
  | .updateConfidence threadId newConfidence now => ∀ thread, self.planTree.threads.get? threadId = some thread →
      roundTo 6 newConfidence = thread.confidence ∧ now = thread.updatedAt ∧
        (newConfidence < self.planTree.abandonThreshold → thread.status = .abandoned)
  | .complete threadId now => ∀ thread, self.planTree.threads.get? threadId = some thread →
      now = thread.updatedAt ∧ thread.status = .completed

theorem withTree_eq_self_iff (self : Stores) (planTree : PlanTree) :
    Stores.mk self.calibration planTree self.disk = self ↔ planTree = self.planTree := by
  constructor
  · intro same
    exact congrArg Stores.planTree same
  · rintro rfl
    rfl

/-- A failed write undoes nothing: the stores are as before exactly where the
call would leave everything as it is. -/
theorem failedCall_eq_self_iff (self : Stores) (storeCall : StoreCall) :
    self.failedCall storeCall = self ↔ self.Idle storeCall := by
  cases storeCall with
  | update field horizon predicted actual =>
    refine iff_of_false (fun same => ?_) id
    have more := self.calibration.samplesOf_update field horizon predicted actual self.disk true
      (calibrationKey field horizon)
    have calibration : (self.calibration.update field horizon predicted actual self.disk true).1 = self.calibration :=
      congrArg Stores.calibration same
    rw [calibration, if_pos rfl] at more
    omega
  | addThread goal steps initialConfidence forecastIds threadId createdAt updatedAt =>
    exact (self.withTree_eq_self_iff _).trans (self.planTree.setThread_eq_self_iff _)
  | updateConfidence threadId newConfidence now =>
    cases stored : self.planTree.threads.get? threadId with
    | none => simp [failedCall, Idle, PlanTree.updateConfidence, stored]
    | some thread =>
      have changed := self.planTree.setThread_of_stored_eq_self_iff stored
        (show (self.planTree.refresh thread newConfidence now).threadId = thread.threadId from rfl)
      simp only [failedCall, Idle, PlanTree.updateConfidence, stored, Option.some.injEq, forall_eq']
      exact (self.withTree_eq_self_iff _).trans (changed.trans (self.planTree.refresh_eq_self_iff thread newConfidence now))
  | complete threadId now =>
    cases stored : self.planTree.threads.get? threadId with
    | none => simp [failedCall, Idle, PlanTree.complete, stored]
    | some thread =>
      have changed := self.planTree.setThread_of_stored_eq_self_iff stored
        (show (PlanTree.finish thread now).threadId = thread.threadId from rfl)
      simp only [failedCall, Idle, PlanTree.complete, stored, Option.some.injEq, forall_eq']
      exact (self.withTree_eq_self_iff _).trans (changed.trans (PlanTree.finish_eq_self_iff thread now))

/-- A failed write leaves the files. -/
theorem disk_failedCall (self : Stores) (storeCall : StoreCall) : (self.failedCall storeCall).disk = self.disk := by
  cases storeCall with
  | update field horizon predicted actual => rfl
  | addThread goal steps initialConfidence forecastIds threadId createdAt updatedAt => rfl
  | updateConfidence threadId newConfidence now =>
    cases stored : self.planTree.threads.get? threadId with
    | none => simp [failedCall, PlanTree.updateConfidence, stored]
    | some thread =>
      simp only [failedCall, PlanTree.updateConfidence, stored]
      rfl
  | complete threadId now =>
    cases stored : self.planTree.threads.get? threadId with
    | none => simp [failedCall, PlanTree.complete, stored]
    | some thread =>
      simp only [failedCall, PlanTree.complete, stored]
      rfl

/-- Stores that agree with their files do so after a failed write exactly where
the call would leave everything as it is. -/
theorem settled_failedCall_iff {reading : NumberReading ℚ ℚ} {paths : StatePaths} {threshold : ℚ} {self : Stores}
    (settled : self.Settled reading paths threshold) (storeCall : StoreCall) :
    (self.failedCall storeCall).Settled reading paths threshold ↔ self.Idle storeCall := by
  rw [← failedCall_eq_self_iff, Settled, disk_failedCall, settled, Option.some.injEq, eq_comm]

end Stores

namespace ForecastFeedbackLoop

/-- A field that is scored has another record afterwards, whether or not the
result says so. -/
theorem scoreField_changes (faults : WriteFaults) (actualValues : Dict String ℚ) (forecastId : String)
    (forecast : Forecast) (state : ResolveState) (entry : String × ℚ) :
    let after := scoreField faults actualValues forecastId forecast state entry
    ∃ result, after.results = state.results ++ [result] ∧
      result.calibrationUpdated = !faults.calibration state.calibrationWrites ∧
      after.calibration.get result.field result.horizon.name ≠ state.calibration.get result.field result.horizon.name := by
  refine ⟨_, rfl, ?_, fun same => ?_⟩
  · cases faults.calibration state.calibrationWrites <;> rfl
  · have more := state.calibration.samplesOf_update entry.1 forecast.horizon.name entry.2
      ((actualValues.get? entry.1).getD entry.2) state.disk (faults.calibration state.calibrationWrites)
      (calibrationKey entry.1 forecast.horizon.name)
    rw [if_pos rfl] at more
    have grown : (scoreField faults actualValues forecastId forecast state entry).calibration.samplesOf
        (calibrationKey entry.1 forecast.horizon.name) =
          state.calibration.samplesOf (calibrationKey entry.1 forecast.horizon.name) + 1 := more
    have unchanged : (scoreField faults actualValues forecastId forecast state entry).calibration.samplesOf
        (calibrationKey entry.1 forecast.horizon.name) =
          state.calibration.samplesOf (calibrationKey entry.1 forecast.horizon.name) :=
      congrArg (fun record => Option.elim record 0 CalibrationRecord.sampleCount) same
    omega

end ForecastFeedbackLoop

/-- A failed write is not undone. What the four calls leave in memory is what was
there exactly where they would change nothing, which an update of the
calibration always does, and only there do memory and files still agree. A
result that says that the calibration was not updated comes with a record that
was. -/
theorem failed_writes_iff_idle (self : Stores) (storeCall : StoreCall) :
    (self.failedCall storeCall = self ↔ self.Idle storeCall) ∧
      (∀ reading paths threshold, self.Settled reading paths threshold →
        ((self.failedCall storeCall).Settled reading paths threshold ↔ self.Idle storeCall)) ∧
      ∀ faults (actualValues : Dict String ℚ) forecastId forecast state entry,
        let after := ForecastFeedbackLoop.scoreField faults actualValues forecastId forecast state entry
        ∃ result, after.results = state.results ++ [result] ∧
          result.calibrationUpdated = !faults.calibration state.calibrationWrites ∧
          after.calibration.get result.field result.horizon.name ≠
            state.calibration.get result.field result.horizon.name :=
  ⟨self.failedCall_eq_self_iff storeCall, fun _ _ _ settled => Stores.settled_failedCall_iff settled storeCall,
    ForecastFeedbackLoop.scoreField_changes⟩

/-- An update of an empty store whose write fails leaves a sample in memory that
no file has. -/
theorem failed_update_stays :
    let after := Stores.fresh.failedCall (.update "load" "short" (1 / 2) (3 / 4))
    Stores.fresh.calibration.samplesOf "load:short" = 0 ∧ after.calibration.samplesOf "load:short" = 1 ∧
      after.disk "state/calibration.json" = .missing := by
  refine ⟨rfl, ?_, rfl⟩
  decide +kernel

end Centroid
