import Centroid.Planner.Reopening

namespace Centroid

open StateLoad

/-- The files of the two stores, which are not the same. -/
structure StatePaths where
  calibration : String
  planTree : String
  apart : calibration ≠ planTree

/-- A write of the calibration leaves what a plan tree would load. -/
theorem PlanTree.reopen_persist_calibration (reading : NumberReading ℚ ℚ) (threshold : ℚ) {paths : StatePaths}
    {calibration : CalibrationStore} (own : calibration.path = paths.calibration) (disk : Disk ℚ) (fails : Bool) :
    PlanTree.reopen reading threshold paths.planTree (calibration.persist disk fails) =
      PlanTree.reopen reading threshold paths.planTree disk := by
  have elsewhere : paths.planTree ≠ calibration.path := by
    rw [own]
    exact paths.apart.symm
  exact PlanTree.reopen_congr reading threshold paths.planTree (disk.write_of_ne elsewhere _ fails)

/-- Both stores, and the files. -/
structure Stores where
  calibration : CalibrationStore
  planTree : PlanTree
  disk : Disk ℚ

inductive StoreCall where
  | update (field horizon : String) (predicted actual : ℚ)
  | addThread (goal : String) (steps : List PlanStep) (initialConfidence : ℚ) (forecastIds : Option (List String))
      (threadId : String) (createdAt updatedAt : ℚ)
  | updateConfidence (threadId : String) (newConfidence now : ℚ)
  | complete (threadId : String) (now : ℚ)

/-- What a call returns or raises. -/
inductive StoreReply where
  | record (updated : Option CalibrationRecord)
  | thread (outcome : Except PlanTreeError PlanThread)

/-- What happens to the stores: a call, or both are replaced by fresh ones. -/
inductive StoreEvent where
  | call (storeCall : StoreCall)
  | restart

def StoreEvent.call? : StoreEvent → Option StoreCall
  | .call storeCall => some storeCall
  | .restart => none

namespace Stores

/-- A call whose write succeeds. -/
def call (self : Stores) : StoreCall → Stores × StoreReply
  | .update field horizon predicted actual =>
    let (calibration, disk, updated) := self.calibration.update field horizon predicted actual self.disk false
    (⟨calibration, self.planTree, disk⟩, .record updated)
  | .addThread goal steps initialConfidence forecastIds threadId createdAt updatedAt =>
    let (planTree, disk, outcome) := self.planTree.addThread goal steps initialConfidence forecastIds threadId createdAt
      updatedAt self.disk false
    (⟨self.calibration, planTree, disk⟩, .thread outcome)
  | .updateConfidence threadId newConfidence now =>
    let (planTree, disk, outcome) := self.planTree.updateConfidence threadId newConfidence now self.disk false
    (⟨self.calibration, planTree, disk⟩, .thread outcome)
  | .complete threadId now =>
    let (planTree, disk, outcome) := self.planTree.complete threadId now self.disk false
    (⟨self.calibration, planTree, disk⟩, .thread outcome)

/-- The stores after some calls, with what each of them returned or raised. -/
def run (self : Stores) : List StoreCall → Stores × List StoreReply
  | [] => (self, [])
  | storeCall :: rest =>
    let (self, reply) := self.call storeCall
    let (self, replies) := self.run rest
    (self, reply :: replies)

section

variable (reading : NumberReading ℚ ℚ) (paths : StatePaths) (threshold : ℚ)

/-- Fresh stores on the files. -/
def reopen (disk : Disk ℚ) : Option Stores := do
  let calibration ← CalibrationStore.reopen reading paths.calibration disk
  let planTree ← PlanTree.reopen reading threshold paths.planTree disk
  return ⟨calibration, planTree, disk⟩

/-- The same with restarts in between. -/
def runRestarted (self : Stores) : List StoreEvent → Option (Stores × List StoreReply)
  | [] => some (self, [])
  | .call storeCall :: rest =>
    let (self, reply) := self.call storeCall
    (self.runRestarted rest).map fun (self, replies) => (self, reply :: replies)
  | .restart :: rest => (reopen reading paths threshold self.disk).bind fun fresh => fresh.runRestarted rest

/-- Fresh stores on the files would be the ones there are. -/
def Settled (self : Stores) : Prop := reopen reading paths threshold self.disk = some self

variable {reading paths threshold}

theorem Settled.parts {self : Stores} (settled : self.Settled reading paths threshold) :
    CalibrationStore.reopen reading paths.calibration self.disk = some self.calibration ∧
      PlanTree.reopen reading threshold paths.planTree self.disk = some self.planTree := by
  obtain ⟨_, _, disk⟩ := self
  simp only [Settled, reopen, Option.bind_eq_bind, Option.bind_eq_some_iff] at settled
  obtain ⟨calibration, records, planTree, threads, same⟩ := settled
  cases same
  exact ⟨records, threads⟩

theorem settled_of_parts {self : Stores}
    (records : CalibrationStore.reopen reading paths.calibration self.disk = some self.calibration)
    (threads : PlanTree.reopen reading threshold paths.planTree self.disk = some self.planTree) :
    self.Settled reading paths threshold := by
  rw [Settled, reopen, records, threads]
  rfl

end

section

variable {floatOfText : String → Option ℚ} {intOfText : String → Option ℤ} {render : Value ℚ → String}
  {paths : StatePaths} {threshold : ℚ}

theorem Settled.writeCalibration {self : Stores}
    (settled : self.Settled (exactReading floatOfText intOfText render) paths threshold) {calibration : CalibrationStore}
    (own : calibration.path = paths.calibration) (keyed : calibration.Keyed) :
    Settled (exactReading floatOfText intOfText render) paths threshold
      ⟨calibration, self.planTree, calibration.persist self.disk false⟩ := by
  refine settled_of_parts ?_ ?_
  · rw [← own]
    exact CalibrationStore.reopen_persist (exactReading_exact floatOfText intOfText render) keyed self.disk
  · rw [PlanTree.reopen_persist_calibration _ _ own]
    exact settled.parts.2

theorem Settled.writePlanTree {self : Stores}
    (settled : self.Settled (exactReading floatOfText intOfText render) paths threshold) {planTree : PlanTree}
    (own : planTree.path = paths.planTree) :
    Settled (exactReading floatOfText intOfText render) paths threshold
      ⟨self.calibration, planTree, planTree.persist self.disk false⟩ := by
  refine settled_of_parts ?_ ?_
  · have elsewhere : paths.calibration ≠ planTree.path := by
      rw [own]
      exact paths.apart
    have untouched : planTree.persist self.disk false paths.calibration = self.disk paths.calibration :=
      self.disk.write_of_ne elsewhere _ _
    rw [CalibrationStore.reopen_congr _ _ untouched]
    exact settled.parts.1
  · rw [← own]
    exact planTree.reopen_persist floatOfText intOfText render threshold self.disk

/-- A call leaves what fresh stores would find. -/
theorem Settled.call {self : Stores} (settled : self.Settled (exactReading floatOfText intOfText render) paths threshold)
    (storeCall : StoreCall) :
    (self.call storeCall).1.Settled (exactReading floatOfText intOfText render) paths threshold := by
  obtain ⟨ownRecords, keyed⟩ := CalibrationStore.reopen_spec settled.parts.1
  have ownThreads := PlanTree.reopen_path settled.parts.2
  cases storeCall with
  | update field horizon predicted actual =>
    exact settled.writeCalibration ownRecords (CalibrationStore.keyed_update keyed field horizon predicted actual self.disk false)
  | addThread => exact settled.writePlanTree ownThreads
  | updateConfidence threadId newConfidence now =>
    cases found : self.planTree.threads.get? threadId with
    | none =>
      have same : (self.call (.updateConfidence threadId newConfidence now)).1 = self := by
        simp only [Stores.call, PlanTree.updateConfidence, found]
      rwa [same]
    | some thread =>
      simp only [Stores.call, PlanTree.updateConfidence, found]
      exact settled.writePlanTree ownThreads
  | complete threadId now =>
    cases found : self.planTree.threads.get? threadId with
    | none =>
      have same : (self.call (.complete threadId now)).1 = self := by
        simp only [Stores.call, PlanTree.complete, found]
      rwa [same]
    | some thread =>
      simp only [Stores.call, PlanTree.complete, found]
      exact settled.writePlanTree ownThreads

end

/-- Restarts at any points of a run are not seen: every one of them succeeds, the
calls return and raise the same, and the stores are the same. -/
theorem runRestarted_eq_run {floatOfText : String → Option ℚ} {intOfText : String → Option ℤ}
    {render : Value ℚ → String} {paths : StatePaths} {threshold : ℚ} {disk : Disk ℚ} {self : Stores}
    (opened : reopen (exactReading floatOfText intOfText render) paths threshold disk = some self)
    (events : List StoreEvent) :
    self.runRestarted (exactReading floatOfText intOfText render) paths threshold events =
      some (self.run (events.filterMap StoreEvent.call?)) := by
  have settled : self.Settled (exactReading floatOfText intOfText render) paths threshold := by
    have sameDisk : self.disk = disk := by
      simp only [reopen, Option.bind_eq_bind, Option.bind_eq_some_iff] at opened
      obtain ⟨_, -, _, -, same⟩ := opened
      cases same
      rfl
    rw [Settled, sameDisk]
    exact opened
  clear opened
  induction events generalizing self with
  | nil => rfl
  | cons event events ih =>
    cases event with
    | call storeCall =>
      have later := ih (settled.call storeCall)
      rw [runRestarted]
      dsimp only
      rw [later]
      rfl
    | restart =>
      rw [runRestarted, settled]
      exact ih settled

def defaultPaths : StatePaths := ⟨"state/calibration.json", "state/plan_tree.json", by decide⟩

/-- Stores on no files. -/
def fresh : Stores :=
  ⟨⟨"state/calibration.json", ∅⟩, ⟨1 / 5, "state/plan_tree.json", ∅, PlanTree.keyed_empty⟩, fun _ => .missing⟩

theorem runRestarted_eq_run_fresh :
    let reading := exactReading (fun _ => none) (fun _ => none) fun _ => ""
    let add : StoreCall := .addThread "keep the load low" [⟨"watch", false, false⟩] (9 / 10) (some ["f0"]) "t0" 1 2
    let calls : List StoreCall := [.update "load" "short" (1 / 2) (3 / 4), add, .complete "t0" 3]
    fresh.runRestarted reading defaultPaths (1 / 5) [.restart, .call (.update "load" "short" (1 / 2) (3 / 4)), .restart,
      .call add, .call (.complete "t0" 3), .restart] = some (fresh.run calls) := by
  have opened : reopen (exactReading (fun _ => none) (fun _ => none) fun _ => "") defaultPaths (1 / 5)
      (fun _ => .missing) = some fresh := rfl
  exact runRestarted_eq_run opened _

end Stores

end Centroid
