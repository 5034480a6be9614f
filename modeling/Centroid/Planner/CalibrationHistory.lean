import Centroid.Planner.Reopening
import Centroid.Planner.ResolutionTiming

namespace Centroid

open StateLoad

/-- The arguments of one `update`. -/
structure CalibrationUpdate (F : Type := ℚ) where
  field : String
  horizon : Horizon
  predicted : F
  actual : F

namespace CalibrationUpdate

variable {F : Type}

def error [Sub F] (u : CalibrationUpdate F) : F := u.predicted - u.actual

def pair (u : CalibrationUpdate F) : String × Horizon := (u.field, u.horizon)

/-- The updates of one pair. -/
def ofPair (updates : List (CalibrationUpdate F)) (field : String) (horizon : Horizon) : List (CalibrationUpdate F) :=
  updates.filter fun u => u.pair = (field, horizon)

theorem ofPair_append_singleton (updates : List (CalibrationUpdate F)) (u : CalibrationUpdate F) (field : String)
    (horizon : Horizon) :
    ofPair (updates ++ [u]) field horizon =
      if u.pair = (field, horizon) then ofPair updates field horizon ++ [u] else ofPair updates field horizon := by
  rw [ofPair, List.filter_append, List.filter_singleton]
  by_cases own : u.pair = (field, horizon)
  · rw [if_pos own, decide_eq_true own]
    rfl
  · rw [if_neg own, decide_eq_false own]
    exact List.append_nil _

end CalibrationUpdate

/-- What happens to a calibration store. It is read again in place, or a new one
is opened on its file. -/
inductive CalibrationCall (F : Type := ℚ) where
  | update (u : CalibrationUpdate F) (fails : Bool)
  | load
  | reopen

def CalibrationCall.update? {F : Type} : CalibrationCall F → Option (CalibrationUpdate F)
  | .update u _ => some u
  | .load | .reopen => none

/-- A call whose write does not fail. -/
def CalibrationCall.Persists {F : Type} : CalibrationCall F → Prop
  | .update _ fails => fails = false
  | .load | .reopen => True

/-- A store in use, and the files. -/
structure CalibrationRun (F : Type := ℚ) where
  store : CalibrationStore F
  disk : Disk F

/-- The updates that the store in memory remembers, and those that its file
does, if there is one. -/
structure CalibrationLedger (F : Type := ℚ) where
  memory : List (CalibrationUpdate F)
  onFile : Option (List (CalibrationUpdate F))

namespace CalibrationLedger

variable {F : Type}

def record (self : CalibrationLedger F) : CalibrationCall F → CalibrationLedger F
  | .update u fails => ⟨self.memory ++ [u], if fails then self.onFile else some (self.memory ++ [u])⟩
  | .load => ⟨self.onFile.getD self.memory, self.onFile⟩
  | .reopen => ⟨self.onFile.getD [], self.onFile⟩

/-- The ledger of a store that starts without a file. -/
def ofHistory (calls : List (CalibrationCall F)) : CalibrationLedger F := calls.foldl record ⟨[], none⟩

/-- The file holds what the memory does. -/
def InStep (self : CalibrationLedger F) : Prop := self.onFile.getD [] = self.memory

theorem InStep.record {self : CalibrationLedger F} (inStep : self.InStep) {call : CalibrationCall F} (persists : call.Persists) :
    (self.record call).memory = self.memory ++ call.update?.toList ∧ (self.record call).InStep := by
  obtain ⟨memory, onFile⟩ := self
  cases call with
  | update u fails =>
    cases (show fails = false from persists)
    exact ⟨rfl, rfl⟩
  | load =>
    have same : onFile.getD memory = memory := by
      cases onFile with
      | none => rfl
      | some updates => exact inStep
    refine ⟨same.trans (List.append_nil _).symm, ?_⟩
    exact Eq.trans inStep same.symm
  | reopen => exact ⟨Eq.trans inStep (List.append_nil _).symm, rfl⟩

/-- Without failed writes every update is remembered. -/
theorem memory_of_persists {calls : List (CalibrationCall F)} (persists : ∀ call ∈ calls, call.Persists) :
    (ofHistory calls).memory = calls.filterMap CalibrationCall.update? := by
  have both : (ofHistory calls).memory = calls.filterMap CalibrationCall.update? ∧ (ofHistory calls).InStep := by
    induction calls using List.reverseRecOn with
    | nil => exact ⟨rfl, rfl⟩
    | append_singleton calls call ih =>
      obtain ⟨memory, inStep⟩ := ih fun other member => persists other (List.mem_append_left _ member)
      obtain ⟨longer, next⟩ := inStep.record (persists call (by simp))
      rw [ofHistory, List.foldl_append, List.filterMap_append, ← memory]
      refine ⟨longer.trans ?_, next⟩
      cases call <;> rfl
  exact both.1

end CalibrationLedger

section

variable {F : Type} [Zero F] [Add F] [Sub F] [Mul F] [Div F] [NatCast F] [FloatLike F]

namespace CalibrationStore

/-- `load` on a store in use: a document replaces the records. -/
def load [DecidableEq F] (self : CalibrationStore F) (reading : NumberReading F F) (disk : Disk F) :
    Option (CalibrationStore F) :=
  match disk self.path with
  | .missing | .garbled => some self
  | .object _ => reopen reading self.path disk

def apply (self : CalibrationStore F) (u : CalibrationUpdate F) (disk : Disk F) (fails : Bool) :
    CalibrationStore F × Disk F × Option (CalibrationRecord F) :=
  self.update u.field u.horizon.name u.predicted u.actual disk fails

/-- The store in memory after some updates of an empty one. -/
def ofUpdates (path : String) (updates : List (CalibrationUpdate F)) : CalibrationStore F :=
  updates.foldl (fun store u => (store.apply u (fun _ => .missing) true).1) ⟨path, ∅⟩

theorem ofUpdates_append_singleton (path : String) (updates : List (CalibrationUpdate F)) (u : CalibrationUpdate F)
    (disk : Disk F) (fails : Bool) :
    ofUpdates path (updates ++ [u]) = ((ofUpdates path updates).apply u disk fails).1 := by
  rw [ofUpdates, List.foldl_append]
  rfl

theorem path_ofUpdates (path : String) (updates : List (CalibrationUpdate F)) : (ofUpdates path updates).path = path := by
  induction updates using List.reverseRecOn with
  | nil => rfl
  | append_singleton updates u ih =>
    rw [ofUpdates_append_singleton path updates u (fun _ => .missing) true]
    exact ih

theorem keyed_ofUpdates (path : String) (updates : List (CalibrationUpdate F)) : (ofUpdates path updates).Keyed := by
  induction updates using List.reverseRecOn with
  | nil => exact fun entry member => nomatch member
  | append_singleton updates u ih =>
    rw [ofUpdates_append_singleton path updates u (fun _ => .missing) true]
    exact keyed_update ih u.field u.horizon.name u.predicted u.actual _ _

/-- An update changes the record of its own pair and no other. -/
theorem get_apply (self : CalibrationStore F) (u : CalibrationUpdate F) (disk : Disk F) (fails : Bool) (field : String)
    (horizon : Horizon) :
    (self.apply u disk fails).1.get field horizon.name =
      if u.pair = (field, horizon) then
        some (((self.get field horizon.name).getD (.init field horizon.name)).addSample u.predicted u.actual)
      else self.get field horizon.name := by
  simp only [apply, update, get, Dict.get?_set]
  by_cases own : u.pair = (field, horizon)
  · obtain ⟨rfl, rfl⟩ := Prod.mk.inj own
    rw [if_pos rfl, if_pos own]
  · have ne : calibrationKey u.field u.horizon.name ≠ calibrationKey field horizon.name := by
      intro same
      obtain ⟨sameField, sameHorizon⟩ := calibrationKey_inj same
      exact own (Prod.ext sameField sameHorizon)
    rw [if_neg ne, if_neg own]

end CalibrationStore

/-- The record of a pair after its updates. -/
def CalibrationRecord.ofUpdates (field : String) (horizon : Horizon) (own : List (CalibrationUpdate F)) :
    CalibrationRecord F :=
  own.foldl (fun record u => record.addSample u.predicted u.actual) (.init field horizon.name)

namespace CalibrationRecord

theorem ofUpdates_append_singleton (field : String) (horizon : Horizon) (own : List (CalibrationUpdate F))
    (u : CalibrationUpdate F) :
    ofUpdates field horizon (own ++ [u]) = (ofUpdates field horizon own).addSample u.predicted u.actual :=
  List.foldl_append

/-- What the errors do not decide of a record. -/
theorem ofUpdates_spec (field : String) (horizon : Horizon) (own : List (CalibrationUpdate F)) :
    (ofUpdates field horizon own).field = field ∧ (ofUpdates field horizon own).horizon = horizon.name ∧
      (ofUpdates field horizon own).sampleCount = own.length := by
  induction own using List.reverseRecOn with
  | nil => exact ⟨rfl, rfl, rfl⟩
  | append_singleton own u ih =>
    rw [ofUpdates_append_singleton, List.length_append]
    exact ⟨ih.1, ih.2.1, congrArg (· + 1) ih.2.2⟩

end CalibrationRecord

namespace CalibrationStore

theorem get_ofUpdates (path : String) (updates : List (CalibrationUpdate F)) (field : String) (horizon : Horizon) :
    (ofUpdates path updates).get field horizon.name =
      if CalibrationUpdate.ofPair updates field horizon = [] then none
      else some (.ofUpdates field horizon (CalibrationUpdate.ofPair updates field horizon)) := by
  induction updates using List.reverseRecOn with
  | nil => rfl
  | append_singleton updates u ih =>
    rw [ofUpdates_append_singleton path updates u (fun _ => .missing) true, get_apply, ih,
      CalibrationUpdate.ofPair_append_singleton]
    split
    · have longer : CalibrationUpdate.ofPair updates field horizon ++ [u] ≠ [] := by simp
      rw [if_neg longer, CalibrationRecord.ofUpdates_append_singleton]
      split
      · rename_i first
        rw [first]
        rfl
      · rfl
    · rfl

theorem horizon_ofUpdates {path : String} {updates : List (CalibrationUpdate F)} {key : String} {record : CalibrationRecord F}
    (found : (ofUpdates path updates).records.get? key = some record) :
    ∃ horizon : Horizon, record.horizon = horizon.name := by
  induction updates using List.reverseRecOn generalizing key record with
  | nil => cases found
  | append_singleton updates u ih =>
    rw [ofUpdates_append_singleton path updates u (fun _ => .missing) true, apply, update, Dict.get?_set] at found
    split at found
    · cases found
      cases before : (ofUpdates path updates).records.get? (calibrationKey u.field u.horizon.name) with
      | none => exact ⟨u.horizon, rfl⟩
      | some old =>
        obtain ⟨horizon, same⟩ := ih before
        exact ⟨horizon, same⟩
    · exact ih found

/-- Every record is found under its pair. -/
theorem mem_values_ofUpdates {path : String} {updates : List (CalibrationUpdate F)} {record : CalibrationRecord F}
    (stored : record ∈ (ofUpdates path updates).records.values) :
    ∃ horizon : Horizon, record.horizon = horizon.name ∧
      (ofUpdates path updates).get record.field horizon.name = some record := by
  obtain ⟨⟨key, _⟩, entry, rfl⟩ := List.mem_map.mp stored
  have found := (Dict.mem_entries_iff _ _ _).mp entry
  obtain ⟨horizon, same⟩ := horizon_ofUpdates found
  refine ⟨horizon, same, ?_⟩
  have own : key = calibrationKey _ _ := keyed_ofUpdates path updates _ entry
  rw [get, ← same, ← own]
  exact found

/-- What is written of a store. -/
def contents (self : CalibrationStore F) : StateFile F :=
  .object [(.str "records", .list (self.records.values.map CalibrationRecord.asDict))]

end CalibrationStore

namespace CalibrationRun

def step [DecidableEq F] (reading : NumberReading F F) (self : CalibrationRun F) : CalibrationCall F → Option (CalibrationRun F)
  | .update u fails =>
    let (store, disk, _) := self.store.apply u self.disk fails
    some ⟨store, disk⟩
  | .load => (self.store.load reading self.disk).map fun store => ⟨store, self.disk⟩
  | .reopen => (CalibrationStore.reopen reading self.store.path self.disk).map fun store => ⟨store, self.disk⟩

/-- The run after some calls, unless one of them raises while it reads. -/
def after [DecidableEq F] (reading : NumberReading F F) (self : CalibrationRun F) (calls : List (CalibrationCall F)) :
    Option (CalibrationRun F) :=
  calls.foldlM (step reading) self

/-- The run holds what a ledger says. -/
structure Tracks (self : CalibrationRun F) (path : String) (ledger : CalibrationLedger F) : Prop where
  store : self.store = .ofUpdates path ledger.memory
  file : self.disk path = (ledger.onFile.map fun updates => (CalibrationStore.ofUpdates path updates).contents).getD .missing

section

variable [DecidableEq F] {reading : NumberReading F F} {path : String}

theorem reopen_contents (exact : reading.Exact) {disk : Disk F} {updates : List (CalibrationUpdate F)}
    (written : disk path = (CalibrationStore.ofUpdates path updates).contents) :
    CalibrationStore.reopen reading path disk = some (.ofUpdates path updates) := by
  have round := CalibrationStore.reopen_persist exact (CalibrationStore.keyed_ofUpdates path updates) disk
  rw [CalibrationStore.path_ofUpdates] at round
  rw [← round]
  refine CalibrationStore.reopen_congr _ path ?_
  rw [written, CalibrationStore.persist, CalibrationStore.path_ofUpdates]
  exact (Function.update_self path _ disk).symm

theorem reopen_missing {disk : Disk F} (missing : disk path = .missing) :
    CalibrationStore.reopen reading path disk = some (.ofUpdates path []) := by
  rw [CalibrationStore.reopen, missing]
  rfl

/-- Every call is what its ledger says. -/
theorem Tracks.step (exact : reading.Exact) {self : CalibrationRun F} {ledger : CalibrationLedger F}
    (tracks : self.Tracks path ledger) (call : CalibrationCall F) :
    ∃ next, self.step reading call = some next ∧ next.Tracks path (ledger.record call) := by
  obtain ⟨store, disk⟩ := self
  obtain ⟨memory, onFile⟩ := ledger
  obtain ⟨inMemory, file⟩ := tracks
  dsimp only at inMemory file
  subst inMemory
  have own := CalibrationStore.path_ofUpdates path memory
  cases call with
  | update u fails =>
    have longer := CalibrationStore.ofUpdates_append_singleton path memory u disk fails
    refine ⟨_, rfl, longer.symm, ?_⟩
    cases fails with
    | true => exact file
    | false =>
      have written : ((CalibrationStore.ofUpdates path memory).apply u disk false).2.1 path =
          (CalibrationStore.ofUpdates path (memory ++ [u])).contents := by
        have stored := congrArg (fun store => store.persist disk false path) longer.symm
        refine stored.trans ?_
        rw [CalibrationStore.persist, CalibrationStore.path_ofUpdates]
        exact Function.update_self _ _ _
      exact written
  | load =>
    dsimp only [CalibrationRun.step, CalibrationStore.load]
    rw [own]
    cases onFile with
    | none =>
      have missing : disk path = .missing := file
      rw [missing]
      exact ⟨_, rfl, rfl, file⟩
    | some updates =>
      have written : disk path = (CalibrationStore.ofUpdates path updates).contents := file
      rw [reopen_contents exact written, written]
      exact ⟨_, rfl, rfl, file⟩
  | reopen =>
    dsimp only [CalibrationRun.step]
    rw [own]
    cases onFile with
    | none =>
      rw [reopen_missing file]
      exact ⟨_, rfl, rfl, file⟩
    | some updates =>
      rw [reopen_contents exact file]
      exact ⟨_, rfl, rfl, file⟩

/-- A store that starts without a file holds what its ledger says, and no call
raises while it reads. -/
theorem tracks_after (exact : reading.Exact) {start : CalibrationRun F} (fresh : start.Tracks path ⟨[], none⟩)
    (calls : List (CalibrationCall F)) :
    ∃ run, start.after reading calls = some run ∧ run.Tracks path (.ofHistory calls) := by
  induction calls using List.reverseRecOn with
  | nil => exact ⟨start, rfl, fresh⟩
  | append_singleton calls call ih =>
    obtain ⟨before, reached, tracks⟩ := ih
    obtain ⟨run, stepped, tracksNext⟩ := tracks.step exact call
    refine ⟨run, ?_, ?_⟩
    · rw [after, List.foldlM_append]
      rw [after] at reached
      rw [reached]
      simpa using stepped
    · rw [CalibrationLedger.ofHistory, List.foldl_append]
      exact tracksNext

/-- A store without a file, whatever other files there are. -/
def start (path : String) (disk : Disk F) : CalibrationRun F := ⟨⟨path, ∅⟩, Function.update disk path .missing⟩

omit [DecidableEq F] in
theorem tracks_start (path : String) (disk : Disk F) : (start path disk).Tracks path ⟨[], none⟩ :=
  ⟨rfl, Function.update_self path _ disk⟩

theorem store_after (exact : reading.Exact) {disk : Disk F} {calls : List (CalibrationCall F)} {run : CalibrationRun F}
    (reached : (start path disk).after reading calls = some run) :
    run.store = .ofUpdates path (CalibrationLedger.ofHistory calls).memory := by
  obtain ⟨other, reached', inMemory, -⟩ := tracks_after exact (tracks_start path disk) calls
  rw [reached] at reached'
  cases reached'
  exact inMemory

end

end CalibrationRun

end

end Centroid
