import Centroid.Planner.PlanLifecycle

namespace Centroid

open StateLoad Rounding

/-- What is not below the threshold is not below it when it is rounded. -/
def PassesRounded (threshold confidence : ℚ) : Prop := threshold ≤ confidence → threshold ≤ roundTo 6 confidence

namespace PlanTree

/-- No active thread has a confidence below the threshold. -/
def ActiveAbove (self : PlanTree) : Prop :=
  ∀ threadId thread, self.threads.get? threadId = some thread → thread.status = .active →
    self.abandonThreshold ≤ thread.confidence

theorem activeAbove_setThread_iff {self : PlanTree} (above : self.ActiveAbove) (thread : PlanThread) :
    (self.setThread thread).ActiveAbove ↔ (thread.status = .active → self.abandonThreshold ≤ thread.confidence) := by
  constructor
  · intro stored
    exact stored thread.threadId thread (by rw [get?_setThread, if_pos rfl])
  · intro own threadId other found active
    rw [get?_setThread] at found
    split at found
    · cases found
      exact own active
    · exact above threadId other found active

/-- The rounded confidence is stored, the confidence as given is compared. -/
theorem refresh_above_iff (self : PlanTree) (thread : PlanThread) (newConfidence now : ℚ) :
    ((self.refresh thread newConfidence now).status = .active →
        self.abandonThreshold ≤ (self.refresh thread newConfidence now).confidence) ↔
      (thread.status = .active → PassesRounded self.abandonThreshold newConfidence) := by
  simp only [refresh, PassesRounded]
  split
  · rename_i below
    refine ⟨fun _ _ passes => absurd below (not_lt.mpr passes), fun _ abandoned => ?_⟩
    cases abandoned
  · rename_i passes
    exact ⟨fun above active _ => above active, fun above active => above active (not_lt.mp passes)⟩

theorem activeAbove_updateConfidence_iff {self : PlanTree} (above : self.ActiveAbove) (threadId : String)
    (newConfidence now : ℚ) (disk : Disk ℚ) (fails : Bool) :
    (self.updateConfidence threadId newConfidence now disk fails).1.ActiveAbove ↔
      (self.ActiveIn threadId → PassesRounded self.abandonThreshold newConfidence) := by
  cases found : self.threads.get? threadId with
  | none =>
    simp only [updateConfidence, found]
    refine ⟨?_, fun _ => above⟩
    rintro - ⟨thread, stored, -⟩
    cases found.symm.trans stored
  | some thread =>
    simp only [updateConfidence, found]
    rw [activeAbove_setThread_iff above, refresh_above_iff]
    constructor
    · rintro passes ⟨stored, found', active⟩
      cases found.symm.trans found'
      exact passes active
    · intro passes active
      exact passes ⟨thread, found, active⟩

theorem threshold_updateConfidence (self : PlanTree) (threadId : String) (newConfidence now : ℚ) (disk : Disk ℚ)
    (fails : Bool) :
    (self.updateConfidence threadId newConfidence now disk fails).1.abandonThreshold = self.abandonThreshold := by
  rw [updateConfidence]
  split
  · rfl
  · rfl

/-- What `add_thread` is given is compared with nothing. -/
theorem activeAbove_addThread_iff {self : PlanTree} (above : self.ActiveAbove) (goal : String) (steps : List PlanStep)
    (initialConfidence : ℚ) (forecastIds : Option (List String)) (threadId : String) (createdAt updatedAt : ℚ)
    (disk : Disk ℚ) (fails : Bool) :
    (self.addThread goal steps initialConfidence forecastIds threadId createdAt updatedAt disk fails).1.ActiveAbove ↔
      self.abandonThreshold ≤ roundTo 6 initialConfidence := by
  rw [addThread, activeAbove_setThread_iff above]
  exact ⟨fun own => own rfl, fun passes _ => passes⟩

theorem activeAbove_complete {self : PlanTree} (above : self.ActiveAbove) (threadId : String) (now : ℚ) (disk : Disk ℚ)
    (fails : Bool) : (self.complete threadId now disk fails).1.ActiveAbove := by
  rw [complete]
  split
  · exact above
  · rw [activeAbove_setThread_iff above]
    intro active
    cases active

end PlanTree

namespace PlanRun

section

variable (reading : NumberReading ℚ ℚ) (paths : StatePaths)

/-- A new thread starts with a confidence that passes the threshold, and an active
one gets none that passes before it is rounded only. -/
def GivesEnough (self : PlanRun) : PlanCall → Prop
  | .addThread _ _ initialConfidence _ _ _ _ _ => self.tree.abandonThreshold ≤ roundTo 6 initialConfidence
  | .updateConfidence threadId newConfidence _ _ =>
    self.tree.ActiveIn threadId → PassesRounded self.tree.abandonThreshold newConfidence
  | .complete _ _ _ | .register _ | .resolve _ _ _ | .restart _ _ => True

/-- The same for what a resolution gives to the threads. -/
def ResolvesEnough (self : PlanRun) : PlanCall → Prop
  | .resolve actualValues faults now =>
    self.loop.EachUpdate faults now actualValues (fun state forecast _ => PassesRounded self.tree.abandonThreshold
      (ForecastGenerator.confidenceOf (ForecastFeedbackLoop.recordedMaes state.calibration forecast))) self.disk
  | .addThread _ _ _ _ _ _ _ _ | .updateConfidence _ _ _ _ | .complete _ _ _ | .register _ | .restart _ _ => True

end

section

variable {floatOfText : String → Option ℚ} {intOfText : String → Option ℤ} {render : Value ℚ → String}
  {paths : StatePaths}

/-- Neither the tree nor what a restart would load has an active thread below the
threshold. -/
def Sound (reading : NumberReading ℚ ℚ) (paths : StatePaths) (calibration : CalibrationStore) (planTree : PlanTree)
    (disk : Disk ℚ) : Prop :=
  calibration.path = paths.calibration ∧ planTree.path = paths.planTree ∧ planTree.ActiveAbove ∧
    ∀ threshold found, PlanTree.reopen reading threshold paths.planTree disk = some found → found.ActiveAbove

/-- A write puts the tree there is in place of what a restart would load; a
failed one leaves that. -/
theorem Sound.setThread {calibration : CalibrationStore} {planTree : PlanTree} {disk : Disk ℚ}
    (sound : Sound (exactReading floatOfText intOfText render) paths calibration planTree disk) {thread : PlanThread}
    (above : (planTree.setThread thread).ActiveAbove) (fails : Bool) :
    Sound (exactReading floatOfText intOfText render) paths calibration (planTree.setThread thread)
      ((planTree.setThread thread).persist disk fails) := by
  obtain ⟨ownRecords, ownThreads, -, onFile⟩ := sound
  refine ⟨ownRecords, ownThreads, above, fun threshold found opened => ?_⟩
  cases fails with
  | true => exact onFile threshold found opened
  | false =>
    have written := (planTree.setThread thread).reopen_persist floatOfText intOfText render threshold disk
    rw [show (planTree.setThread thread).path = paths.planTree from ownThreads, opened] at written
    cases written
    exact above

theorem Sound.updateRecord {reading : NumberReading ℚ ℚ} {calibration : CalibrationStore} {planTree : PlanTree}
    {disk : Disk ℚ} (sound : Sound reading paths calibration planTree disk) (field horizon : String)
    (predicted actual : ℚ) (fails : Bool) :
    Sound reading paths (calibration.update field horizon predicted actual disk fails).1 planTree
      (calibration.update field horizon predicted actual disk fails).2.1 := by
  obtain ⟨ownRecords, ownThreads, above, onFile⟩ := sound
  refine ⟨ownRecords, ownThreads, above, fun threshold found opened => ?_⟩
  have own : (calibration.update field horizon predicted actual disk fails).1.path = paths.calibration := ownRecords
  have sameTree := PlanTree.reopen_persist_calibration reading threshold own disk fails
  exact onFile threshold found (sameTree.symm.trans opened)

theorem Sound.updateConfidence {calibration : CalibrationStore} {planTree : PlanTree} {disk : Disk ℚ}
    (sound : Sound (exactReading floatOfText intOfText render) paths calibration planTree disk) {threadId : String}
    {newConfidence : ℚ} (passes : planTree.ActiveIn threadId → PassesRounded planTree.abandonThreshold newConfidence)
    (now : ℚ) (fails : Bool) :
    Sound (exactReading floatOfText intOfText render) paths calibration
      (planTree.updateConfidence threadId newConfidence now disk fails).1
      (planTree.updateConfidence threadId newConfidence now disk fails).2.1 := by
  have above := (PlanTree.activeAbove_updateConfidence_iff sound.2.2.1 threadId newConfidence now disk fails).mpr passes
  cases found : planTree.threads.get? threadId with
  | none =>
    simp only [PlanTree.updateConfidence, found]
    exact sound
  | some thread =>
    simp only [PlanTree.updateConfidence, found] at above ⊢
    exact sound.setThread above fails

/-- A call that gives enough leaves no active thread below the threshold, in the
tree or on file. -/
theorem Sound.step {self : PlanRun}
    (sound : Sound (exactReading floatOfText intOfText render) paths self.loop.calibration self.tree self.disk)
    {call : PlanCall} (gives : self.GivesEnough call) (resolves : self.ResolvesEnough call) :
    Sound (exactReading floatOfText intOfText render) paths
      (self.step (exactReading floatOfText intOfText render) paths call).loop.calibration
      (self.step (exactReading floatOfText intOfText render) paths call).tree
      (self.step (exactReading floatOfText intOfText render) paths call).disk := by
  cases call with
  | addThread goal steps initialConfidence forecastIds threadId createdAt updatedAt fails =>
    have above := (PlanTree.activeAbove_addThread_iff sound.2.2.1 goal steps initialConfidence forecastIds threadId
      createdAt updatedAt self.disk fails).mpr gives
    exact sound.setThread above fails
  | updateConfidence threadId newConfidence now fails => exact sound.updateConfidence gives now fails
  | complete threadId now fails =>
    have above := PlanTree.activeAbove_complete sound.2.2.1 threadId now self.disk fails
    rw [PlanRun.step]
    cases found : self.tree.threads.get? threadId with
    | none =>
      simp only [PlanTree.complete, found]
      exact sound
    | some thread =>
      simp only [PlanTree.complete, found] at above ⊢
      exact sound.setThread above fails
  | register forecast => exact sound
  | resolve actualValues faults now =>
    refine (resolve_keeps _ paths (fun calibration planTree disk =>
      planTree.abandonThreshold = self.tree.abandonThreshold ∧
        Sound (exactReading floatOfText intOfText render) paths calibration planTree disk)
      (fun _ _ _ field horizon predicted actual fails keeps =>
        ⟨keeps.1, keeps.2.updateRecord field horizon predicted actual fails⟩) ?_ ⟨rfl, sound⟩ resolves).2
    rintro state forecast threadId ⟨same, sound⟩ - passes
    dsimp only
    rw [← same] at passes ⊢
    exact ⟨PlanTree.threshold_updateConfidence _ _ _ _ _ _, sound.updateConfidence (fun _ => passes) now _⟩
  | restart threshold records =>
    rw [PlanRun.step]
    split
    · exact sound
    · rename_i planTree opened
      exact ⟨rfl, PlanTree.reopen_path opened, sound.2.2.2 threshold planTree opened, sound.2.2.2⟩

end

section

variable {reading : NumberReading ℚ ℚ} {paths : StatePaths}

end

end PlanRun

end Centroid
