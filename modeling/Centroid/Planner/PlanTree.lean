import Centroid.Lib.Files
import Centroid.Lib.FloatOps

namespace Centroid

structure PlanStep where
  description : String
  mutatesState : Bool
  requiresApproval : Bool

inductive ThreadStatus where
  | active
  | completed
  | abandoned
  deriving DecidableEq

def ThreadStatus.name : ThreadStatus → String
  | .active => "active"
  | .completed => "completed"
  | .abandoned => "abandoned"

/-- A single execution thread, linked to forecasts by their identifiers. -/
structure PlanThread (F : Type := ℚ) where
  threadId : String
  goal : String
  steps : List PlanStep
  status : ThreadStatus
  confidence : F
  createdAt : F
  updatedAt : F
  forecastIds : List String

/-- Every thread is stored under its own identifier. -/
structure PlanTree (F : Type := ℚ) where
  abandonThreshold : F
  path : String
  threads : Dict String (PlanThread F)
  keyed : ∀ key thread, threads.get? key = some thread → thread.threadId = key

section

variable {F : Type} [LT F] [DecidableLT F] [FloatLike F]

omit [LT F] [DecidableLT F] [FloatLike F] in
theorem PlanTree.keyed_empty (key : String) (thread : PlanThread F)
    (found : (∅ : Dict String (PlanThread F)).get? key = some thread) : thread.threadId = key := by
  cases found

inductive PlanTreeError where
  | keyError
  | writeFailed

def PlanStep.serialize (s : PlanStep) : Value F :=
  .dict [(.str "description", .str s.description), (.str "mutates_state", .bool s.mutatesState),
    (.str "requires_approval", .bool s.requiresApproval)]

/-- `_serialize_thread`. -/
def PlanThread.serialize (t : PlanThread F) : Value F :=
  .dict [(.str "thread_id", .str t.threadId), (.str "goal", .str t.goal),
    (.str "steps", .list (t.steps.map PlanStep.serialize)), (.str "status", .str t.status.name),
    (.str "confidence", .num t.confidence), (.str "created_at", .num t.createdAt),
    (.str "updated_at", .num t.updatedAt), (.str "forecast_ids", .list (t.forecastIds.map .str))]

namespace PlanTree

def persist (self : PlanTree F) (disk : Disk F) (fails : Bool) : Disk F :=
  disk.write self.path [(.str "abandon_threshold", .num self.abandonThreshold),
    (.str "threads", .list (self.threads.values.map PlanThread.serialize))] fails

/-- A thread after a confidence update. -/
def refresh (self : PlanTree F) (thread : PlanThread F) (newConfidence now : F) : PlanThread F :=
  { thread with
    confidence := FloatLike.roundTo 6 newConfidence
    updatedAt := now
    status := if newConfidence < self.abandonThreshold then .abandoned else thread.status }

/-- Store a thread under its identifier. -/
def setThread (self : PlanTree F) (thread : PlanThread F) : PlanTree F where
  abandonThreshold := self.abandonThreshold
  path := self.path
  threads := self.threads.set thread.threadId thread
  keyed := by
    intro key other found
    rw [Dict.get?_set] at found
    split at found
    · rename_i here
      cases found
      exact here
    · exact self.keyed key other found

/-- `update_confidence`. The thread is changed before the write. -/
def updateConfidence (self : PlanTree F) (threadId : String) (newConfidence now : F) (disk : Disk F) (fails : Bool) :
    PlanTree F × Disk F × Except PlanTreeError (PlanThread F) :=
  match self.threads.get? threadId with
  | none => (self, disk, .error .keyError)
  | some thread =>
    let thread := self.refresh thread newConfidence now
    let self := self.setThread thread
    (self, self.persist disk fails, if fails then .error .writeFailed else .ok thread)

/-- `add_thread`, given the identifier and the times that it draws. -/
def addThread (self : PlanTree F) (goal : String) (steps : List PlanStep) (initialConfidence : F)
    (forecastIds : Option (List String)) (threadId : String) (createdAt updatedAt : F) (disk : Disk F) (fails : Bool) :
    PlanTree F × Disk F × Except PlanTreeError (PlanThread F) :=
  let thread : PlanThread F := {
    threadId := threadId
    goal := goal
    steps := steps
    status := .active
    confidence := FloatLike.roundTo 6 initialConfidence
    createdAt := createdAt
    updatedAt := updatedAt
    forecastIds := forecastIds.getD [] }
  let self := self.setThread thread
  (self, self.persist disk fails, if fails then .error .writeFailed else .ok thread)

/-- A thread once it is completed. -/
def finish (thread : PlanThread F) (now : F) : PlanThread F := { thread with status := .completed, updatedAt := now }

def complete (self : PlanTree F) (threadId : String) (now : F) (disk : Disk F) (fails : Bool) :
    PlanTree F × Disk F × Except PlanTreeError (PlanThread F) :=
  match self.threads.get? threadId with
  | none => (self, disk, .error .keyError)
  | some thread =>
    let thread := finish thread now
    let self := self.setThread thread
    (self, self.persist disk fails, if fails then .error .writeFailed else .ok thread)

def activeThreads (self : PlanTree F) : List (PlanThread F) := self.threads.values.filter (·.status = .active)

/-- On a stored thread an update raises exactly when the write does. -/
theorem updateConfidence_of_mem (self : PlanTree F) {threadId : String} (stored : threadId ∈ self.threads.keys)
    (newConfidence now : F) (disk : Disk F) (fails : Bool) :
    ∃ thread, (self.updateConfidence threadId newConfidence now disk fails).2.2 =
        (if fails then .error .writeFailed else .ok thread) ∧
      (self.updateConfidence threadId newConfidence now disk fails).1.threads.keys = self.threads.keys := by
  obtain ⟨thread, found⟩ := (self.threads.mem_keys_iff threadId).mp stored
  have own := self.keyed threadId thread found
  refine ⟨self.refresh thread newConfidence now, by simp only [updateConfidence, found], ?_⟩
  simp only [updateConfidence, found, setThread, refresh, own]
  exact self.threads.keys_set_of_mem stored _

omit [LT F] [DecidableLT F] [FloatLike F] in
theorem mem_keys_of_active (self : PlanTree F) {thread : PlanThread F} (active : thread ∈ self.activeThreads) :
    thread.threadId ∈ self.threads.keys := by
  obtain ⟨⟨key, value⟩, entry, rfl⟩ := List.mem_map.mp (List.mem_filter.mp active).1
  have found := (self.threads.mem_entries_iff key value).mp entry
  exact (self.threads.mem_keys_iff _).mpr ⟨value, self.keyed key value found ▸ found⟩

/-- The thread of that identifier is active. -/
def ActiveIn (self : PlanTree F) (threadId : String) : Prop :=
  ∃ thread, self.threads.get? threadId = some thread ∧ thread.status = .active

omit [LT F] [DecidableLT F] [FloatLike F] in
theorem activeIn_of_mem (self : PlanTree F) {thread : PlanThread F} (active : thread ∈ self.activeThreads) :
    self.ActiveIn thread.threadId := by
  obtain ⟨stored, isActive⟩ := List.mem_filter.mp active
  obtain ⟨⟨key, value⟩, entry, rfl⟩ := List.mem_map.mp stored
  have found := (self.threads.mem_entries_iff key value).mp entry
  exact ⟨value, self.keyed key value found ▸ found, of_decide_eq_true isActive⟩

omit [LT F] [DecidableLT F] [FloatLike F] in
theorem activeThreads_nodup (self : PlanTree F) : (self.activeThreads.map PlanThread.threadId).Nodup := by
  have ids : self.threads.values.map PlanThread.threadId = self.threads.keys := by
    rw [Dict.values, Dict.keys, List.map_map]
    refine List.map_congr_left fun entry member => ?_
    exact self.keyed entry.1 entry.2 ((self.threads.mem_entries_iff _ _).mp member)
  have distinct : (self.threads.values.map PlanThread.threadId).Nodup := by
    rw [ids]
    exact self.threads.distinct
  exact distinct.sublist (List.filter_sublist.map _)

omit [LT F] [DecidableLT F] [FloatLike F] in
theorem get?_setThread (self : PlanTree F) (thread : PlanThread F) (threadId : String) :
    (self.setThread thread).threads.get? threadId =
      if thread.threadId = threadId then some thread else self.threads.get? threadId :=
  Dict.get?_set _ _ _ _

/-- An update changes the thread that it names and no other. -/
theorem get?_updateConfidence (self : PlanTree F) (threadId other : String) (newConfidence now : F) (disk : Disk F)
    (fails : Bool) :
    (self.updateConfidence threadId newConfidence now disk fails).1.threads.get? other =
      if threadId = other then (self.threads.get? threadId).map fun thread => self.refresh thread newConfidence now
      else self.threads.get? other := by
  cases found : self.threads.get? threadId with
  | none =>
    simp only [updateConfidence, found, Option.map_none]
    split
    · rename_i same
      rw [← same, found]
    · rfl
  | some thread =>
    have own : (self.refresh thread newConfidence now).threadId = threadId := self.keyed threadId thread found
    simp only [updateConfidence, found, get?_setThread, own, Option.map_some]

end PlanTree

end

end Centroid
