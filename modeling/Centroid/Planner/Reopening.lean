import Centroid.Planner.Calibration
import Centroid.Planner.PlanTree
import Centroid.Planner.StateLoading

namespace Centroid

open StateLoad

/-- A file of state as its loader finds it. -/
def stateText {F : Type} : StateFile F → StateText F
  | .missing => .missing
  | .garbled => .garbled
  | .object entries => .document (.dict entries)

/-- Numbers are read as they were written. -/
def exactReading (floatOfText : String → Option ℚ) (intOfText : String → Option ℤ) (render : Value ℚ → String) :
    NumberReading ℚ ℚ where
  zero := 0
  exact := id
  ofBool b := if b then 1 else 0
  float := .ok
  int q := .ok (q.num.tdiv q.den)
  floatOfText := floatOfText
  intOfText := intOfText
  render := render

/-- The same for floats. -/
def floatReading (floatOfText : String → Option PyFloat) (intOfText : String → Option ℤ) (render : Value PyFloat → String) :
    NumberReading PyFloat PyFloat where
  zero := .finite 0
  exact := id
  ofBool b := .finite (if b then 1 else 0)
  float := .ok
  int x := match x with
    | .finite q => .ok (q.num.tdiv q.den)
    | .nan => .error .valueError
    | .infinity _ => .error .overflowError
  floatOfText := floatOfText
  intOfText := intOfText
  render := render

/-- What the stores write of their numbers is read as it was. -/
structure StateLoad.NumberReading.Exact {F : Type} [FloatLike F] (reading : NumberReading F F) : Prop where
  float : ∀ x, reading.float x = .ok x
  int : ∀ n : ℕ, reading.int (FloatLike.integer n) = .ok (n : ℤ)

theorem exactReading_exact (floatOfText : String → Option ℚ) (intOfText : String → Option ℤ) (render : Value ℚ → String) :
    (exactReading floatOfText intOfText render).Exact :=
  ⟨fun _ => rfl, fun n => by simp [exactReading]⟩

theorem floatReading_exact (floatOfText : String → Option PyFloat) (intOfText : String → Option ℤ)
    (render : Value PyFloat → String) : (floatReading floatOfText intOfText render).Exact :=
  ⟨fun _ => rfl, fun n => by simp [floatReading, FloatLike.integer]⟩

def textOf {F : Type} : Value F → Option String
  | .str s => some s
  | _ => none

def ThreadStatus.ofName (name : String) : Option ThreadStatus :=
  [ThreadStatus.active, .completed, .abandoned].find? fun status => status.name = name

/-- A loaded record that holds what a record is declared to hold, under its own
key. -/
def CalibrationRecord.ofLoaded {F : Type} (entry : String × LoadedRecord F F) : Option (String × CalibrationRecord F) := do
  let field ← textOf entry.2.field
  let horizon ← textOf entry.2.horizon
  if entry.1 = calibrationKey field horizon ∧ 0 ≤ entry.2.sampleCount then
    return (entry.1, ⟨field, horizon, entry.2.mae, entry.2.bias, entry.2.sampleCount.toNat⟩)
  else none

def PlanStep.ofLoaded : LoadedStep ℚ → Option PlanStep
  | ⟨.str description, .bool mutatesState, .bool requiresApproval⟩ => some ⟨description, mutatesState, requiresApproval⟩
  | _ => none

/-- A loaded thread that holds what a thread is declared to hold, under its own
identifier. -/
def PlanThread.ofLoaded (entry : Key ℚ × LoadedThread ℚ ℚ) : Option PlanThread := do
  let threadId ← textOf entry.2.threadId
  let goal ← textOf entry.2.goal
  let steps ← entry.2.steps.mapM PlanStep.ofLoaded
  let status ← (textOf entry.2.status).bind ThreadStatus.ofName
  let forecastIds ← entry.2.forecastIds.mapM textOf
  if entry.1 = .str threadId then
    return ⟨threadId, goal, steps, status, entry.2.confidence, entry.2.createdAt, entry.2.updatedAt, forecastIds⟩
  else none

section Reopen

/-- `CalibrationStore(path)`, unless it raises. A file of other contents than a store writes, such as
a negative count or a field that is no string, is loaded by the source and is none here. -/
def CalibrationStore.reopen {F : Type} [DecidableEq F] (reading : NumberReading F F) (path : String) (disk : Disk F) :
    Option (CalibrationStore F) :=
  match constructed (loadRecords reading (stateText (disk path))) with
  | .error _ => none
  | .ok records => (records.entries.mapM CalibrationRecord.ofLoaded).map fun entries => ⟨path, LoadLoop.assign ∅ entries⟩

/-- The tree that holds threads, in their order. -/
def PlanTree.ofThreads (threshold : ℚ) (path : String) (threads : List PlanThread) : PlanTree :=
  threads.foldl PlanTree.setThread ⟨threshold, path, ∅, PlanTree.keyed_empty⟩

variable (reading : NumberReading ℚ ℚ)

/-- `PlanTree(threshold, path)`, unless it raises. A file of other contents than a tree writes, such as a
status of another name, is none here as well. -/
def PlanTree.reopen (threshold : ℚ) (path : String) (disk : Disk ℚ) : Option PlanTree :=
  match constructed (loadThreads reading threshold (stateText (disk path))) with
  | .error _ => none
  | .ok tree => (tree.threads.entries.mapM PlanThread.ofLoaded).map (PlanTree.ofThreads tree.abandonThreshold path)

theorem CalibrationStore.reopen_congr {F : Type} [DecidableEq F] (reading : NumberReading F F) (path : String)
    {disk other : Disk F} (same : disk path = other path) :
    CalibrationStore.reopen reading path disk = CalibrationStore.reopen reading path other := by
  rw [CalibrationStore.reopen, CalibrationStore.reopen, same]

theorem PlanTree.reopen_congr (threshold : ℚ) (path : String) {disk other : Disk ℚ} (same : disk path = other path) :
    PlanTree.reopen reading threshold path disk = PlanTree.reopen reading threshold path other := by
  rw [PlanTree.reopen, PlanTree.reopen, same]

end Reopen

section Calibration

variable {F : Type}

/-- A record as the loader finds it. -/
def CalibrationRecord.loaded (self : CalibrationRecord F) : LoadedRecord F F :=
  ⟨.str self.field, .str self.horizon, self.mae, self.bias, self.sampleCount⟩

theorem readRecord_asDict [DecidableEq F] [FloatLike F] {reading : NumberReading F F} (exact : reading.Exact)
    (record : CalibrationRecord F) :
    readRecord reading record.asDict = .ok (calibrationKey record.field record.horizon, record.loaded) := by
  simp [readRecord, CalibrationRecord.asDict, subscript, getOr, Assoc.get?, floatOf, intOf, exact.float, exact.int,
    formatted, calibrationKey, CalibrationRecord.loaded, bind, Except.bind, pure, Except.pure]

theorem CalibrationRecord.ofLoaded_loaded (record : CalibrationRecord F) :
    CalibrationRecord.ofLoaded (calibrationKey record.field record.horizon, record.loaded) =
      some (calibrationKey record.field record.horizon, record) := by
  simp [CalibrationRecord.ofLoaded, CalibrationRecord.loaded, textOf]

/-- Every record is stored under its own key. -/
def CalibrationStore.Keyed (self : CalibrationStore F) : Prop :=
  ∀ entry ∈ self.records.entries, entry.1 = calibrationKey entry.2.field entry.2.horizon

theorem CalibrationStore.keyed_update [Zero F] [Add F] [Sub F] [Mul F] [Div F] [NatCast F] [FloatLike F]
    {self : CalibrationStore F} (keyed : self.Keyed) (field horizon : String) (predicted actual : F) (disk : Disk F)
    (fails : Bool) : (self.update field horizon predicted actual disk fails).1.Keyed := by
  rintro ⟨key, record⟩ stored
  have found := (Dict.mem_entries_iff _ _ _).mp stored
  simp only [update, Dict.get?_set] at found
  split at found
  · rename_i here
    subst here
    cases found
    cases before : self.records.get? (calibrationKey field horizon) with
    | none => rfl
    | some old => exact keyed (_, old) ((Dict.mem_entries_iff _ _ _).mpr before)
  · exact keyed _ ((Dict.mem_entries_iff _ _ _).mpr found)

/-- Entries that pass the check of what is loaded are under their own keys. -/
theorem CalibrationRecord.keyed_of_mapM {loaded : List (String × LoadedRecord F F)}
    {entries : List (String × CalibrationRecord F)} (typed : loaded.mapM CalibrationRecord.ofLoaded = some entries) :
    ∀ entry ∈ entries, entry.1 = calibrationKey entry.2.field entry.2.horizon := by
  induction loaded generalizing entries with
  | nil =>
    cases typed
    intro entry member
    cases member
  | cons first loaded ih =>
    rw [List.mapM_cons, Option.bind_eq_bind, Option.bind_eq_some_iff] at typed
    obtain ⟨head, read, typed⟩ := typed
    obtain ⟨tail, later, same⟩ := Option.bind_eq_some_iff.mp typed
    cases same
    intro entry member
    rcases List.mem_cons.mp member with rfl | after
    · simp only [CalibrationRecord.ofLoaded, Option.bind_eq_bind, Option.bind_eq_some_iff] at read
      obtain ⟨field, -, horizon, -, read⟩ := read
      split at read
      · rename_i passed
        cases read
        exact passed.1
      · cases read
    · exact ih later entry after

theorem CalibrationStore.reopen_spec [DecidableEq F] {reading : NumberReading F F} {path : String} {disk : Disk F}
    {self : CalibrationStore F} (opened : CalibrationStore.reopen reading path disk = some self) :
    self.path = path ∧ self.Keyed := by
  unfold reopen at opened
  split at opened
  · cases opened
  · obtain ⟨entries, typed, rfl⟩ := Option.map_eq_some_iff.mp opened
    refine ⟨rfl, fun entry stored => ?_⟩
    rcases LoadLoop.mem_assign stored with none | member
    · cases none
    · exact CalibrationRecord.keyed_of_mapM typed entry member

theorem CalibrationRecord.mapM_ofLoaded {entries : List (String × CalibrationRecord F)}
    (keyed : ∀ entry ∈ entries, entry.1 = calibrationKey entry.2.field entry.2.horizon) :
    (entries.map fun entry => (entry.1, entry.2.loaded)).mapM CalibrationRecord.ofLoaded = some entries := by
  induction entries with
  | nil => rfl
  | cons entry entries ih =>
    have own := keyed entry List.mem_cons_self
    have read : CalibrationRecord.ofLoaded (entry.1, entry.2.loaded) = some entry := by
      rw [own, CalibrationRecord.ofLoaded_loaded, ← own]
    have later := ih fun other member => keyed other (List.mem_cons_of_mem _ member)
    rw [List.map_cons, List.mapM_cons, read, later]
    rfl

/-- What a store writes is what a new one finds. -/
theorem CalibrationStore.reopen_persist [DecidableEq F] [FloatLike F] {reading : NumberReading F F}
    (exact : reading.Exact) {self : CalibrationStore F} (keyed : self.Keyed) (disk : Disk F) :
    CalibrationStore.reopen reading self.path (self.persist disk false) = some self := by
  have written : stateText (self.persist disk false self.path) =
      .document (.dict [(.str "records", .list (self.records.values.map CalibrationRecord.asDict))]) := by
    simp [persist, Disk.write, stateText]
  have reads : LoadLoop.Reads (readRecord reading) (self.records.values.map CalibrationRecord.asDict)
      (self.records.entries.map fun entry => (entry.1, entry.2.loaded)) := by
    rw [LoadLoop.Reads, Dict.values, List.map_map, List.forall₂_map_left_iff, List.forall₂_map_right_iff, List.forall₂_same]
    intro entry member
    rw [Function.comp_apply, readRecord_asDict exact, keyed entry member]
  have distinct : ((∅ : Dict String (LoadedRecord F F)).keys ++
      (self.records.entries.map fun entry => (entry.1, entry.2.loaded)).map Prod.fst).Nodup := by
    rw [List.map_map]
    exact self.records.distinct
  have loaded : constructed (loadRecords reading (stateText (self.persist disk false self.path))) =
      .ok (LoadLoop.assign ∅ (self.records.entries.map fun entry => (entry.1, entry.2.loaded))) := by
    rw [written, loadRecords]
    exact congrArg constructed (LoadLoop.run_of_reads reads ∅)
  rw [reopen, loaded]
  dsimp only
  rw [LoadLoop.entries_assign distinct]
  have typed := CalibrationRecord.mapM_ofLoaded keyed
  simp only [EmptyCollection.emptyCollection, Dict.empty, List.nil_append, typed, Option.map_some]
  exact congrArg some (congrArg (CalibrationStore.mk self.path) (LoadLoop.assign_entries self.records))

end Calibration

section RoundTrip

variable (floatOfText : String → Option ℚ) (intOfText : String → Option ℤ) (render : Value ℚ → String)

def PlanStep.loaded (s : PlanStep) : LoadedStep ℚ := ⟨.str s.description, .bool s.mutatesState, .bool s.requiresApproval⟩

theorem readStep_serialize (s : PlanStep) : readStep s.serialize = .ok s.loaded := by
  simp [readStep, PlanStep.serialize, Assoc.get?, PlanStep.loaded]

/-- A thread as the loader finds it. -/
def PlanThread.loaded (t : PlanThread) : LoadedThread ℚ ℚ :=
  ⟨.str t.threadId, .str t.goal, t.steps.map PlanStep.loaded, .str t.status.name, t.confidence, t.createdAt,
    t.updatedAt, t.forecastIds.map .str⟩

theorem readThread_serialize (t : PlanThread) :
    readThread (exactReading floatOfText intOfText render) t.serialize = .ok (.str t.threadId, t.loaded) := by
  have steps : (t.steps.map PlanStep.serialize).mapM readStep = Except.ok (t.steps.map PlanStep.loaded) := by
    have each : readStep ∘ PlanStep.serialize = fun s => pure s.loaded := funext readStep_serialize
    rw [List.mapM_map, each]
    exact List.mapM_pure
  simp [readThread, deserializeThread, PlanThread.serialize, subscript, getOr, Assoc.get?, floatOf, StateLoad.iterate,
    hashed, exactReading, PlanThread.loaded, steps, bind, Except.bind, pure, Except.pure]

theorem ThreadStatus.ofName_name (status : ThreadStatus) : ThreadStatus.ofName status.name = some status := by
  cases status <;> rfl

theorem PlanThread.ofLoaded_loaded (t : PlanThread) : PlanThread.ofLoaded (.str t.threadId, t.loaded) = some t := by
  have steps : (t.steps.map PlanStep.loaded).mapM PlanStep.ofLoaded = some t.steps := by
    rw [List.mapM_map]
    exact List.mapM_pure.trans (congrArg some (List.map_id _))
  have forecastIds : (t.forecastIds.map (Value.str (N := ℚ))).mapM textOf = some t.forecastIds := by
    rw [List.mapM_map]
    exact List.mapM_pure.trans (congrArg some (List.map_id _))
  simp [PlanThread.ofLoaded, PlanThread.loaded, textOf, steps, forecastIds, ThreadStatus.ofName_name]

theorem PlanTree.foldl_setThread (threads : List PlanThread) (tree : PlanTree) :
    (threads.foldl setThread tree).threads = LoadLoop.assign tree.threads (threads.map fun t => (t.threadId, t)) ∧
      (threads.foldl setThread tree).abandonThreshold = tree.abandonThreshold ∧
      (threads.foldl setThread tree).path = tree.path := by
  induction threads generalizing tree with
  | nil => exact ⟨rfl, rfl, rfl⟩
  | cons thread threads ih => exact ih (tree.setThread thread)

theorem PlanTree.reopen_path {reading : NumberReading ℚ ℚ} {threshold : ℚ} {path : String} {disk : Disk ℚ}
    {self : PlanTree} (opened : PlanTree.reopen reading threshold path disk = some self) : self.path = path := by
  unfold reopen at opened
  split at opened
  · cases opened
  · obtain ⟨threads, -, rfl⟩ := Option.map_eq_some_iff.mp opened
    exact (foldl_setThread threads _).2.2

/-- The threads that are loaded do not depend on the threshold that the
constructor is given. -/
theorem loadThreads_threshold (reading : NumberReading ℚ ℚ) (threshold other : ℚ) (file : StateText ℚ) :
    (loadThreads reading threshold file).1.threads = (loadThreads reading other file).1.threads ∧
      (loadThreads reading threshold file).2 = (loadThreads reading other file).2 := by
  cases file with
  | missing => exact ⟨rfl, rfl⟩
  | garbled => exact ⟨rfl, rfl⟩
  | document data =>
    cases data with
    | dict object =>
      cases written : Assoc.get? object (.str "abandon_threshold") with
      | none =>
        simp only [loadThreads, documentThreshold, written]
        cases documentThreads (.dict object) <;> exact ⟨rfl, rfl⟩
      | some value =>
        simp only [loadThreads, documentThreshold, written]
        cases floatOf reading value with
        | error e => exact ⟨rfl, rfl⟩
        | ok own => exact ⟨rfl, rfl⟩
    | _ => exact ⟨rfl, rfl⟩

theorem PlanTree.reopen_threads {reading : NumberReading ℚ ℚ} {threshold : ℚ} {path : String} {disk : Disk ℚ}
    {self : PlanTree} (opened : PlanTree.reopen reading threshold path disk = some self) (other : ℚ) :
    ∃ found, PlanTree.reopen reading other path disk = some found ∧ found.threads = self.threads := by
  obtain ⟨sameThreads, sameEnd⟩ := loadThreads_threshold reading threshold other (stateText (disk path))
  unfold reopen at opened ⊢
  revert opened sameThreads sameEnd
  generalize loadThreads reading threshold (stateText (disk path)) = loaded
  generalize loadThreads reading other (stateText (disk path)) = loaded'
  obtain ⟨⟨own, threads⟩, stopped⟩ := loaded
  obtain ⟨⟨own', threads'⟩, stopped'⟩ := loaded'
  rintro opened rfl rfl
  have threadsOf : ∀ typed : List PlanThread,
      (PlanTree.ofThreads own' path typed).threads = (PlanTree.ofThreads own path typed).threads := by
    intro typed
    rw [ofThreads, ofThreads, (foldl_setThread typed _).1, (foldl_setThread typed _).1]
  cases kept : constructed (LoadedTree.mk own threads, stopped) with
  | error e =>
    rw [kept] at opened
    cases opened
  | ok tree =>
    obtain ⟨caught, rfl⟩ := (constructed_ok_iff _ _).mp kept
    have kept' : constructed (LoadedTree.mk own' threads, stopped) = .ok ⟨own', threads⟩ :=
      (constructed_ok_iff _ _).mpr ⟨caught, rfl⟩
    rw [kept] at opened
    obtain ⟨typed, read, rfl⟩ := Option.map_eq_some_iff.mp opened
    rw [kept']
    exact ⟨PlanTree.ofThreads own' path typed, Option.map_eq_some_iff.mpr ⟨typed, read, rfl⟩, threadsOf typed⟩

theorem PlanTree.entries_eq (self : PlanTree) :
    self.threads.values.map (fun t => (t.threadId, t)) = self.threads.entries := by
  rw [Dict.values, List.map_map]
  refine (List.map_congr_left ?_).trans (List.map_id _)
  intro entry member
  have own := self.keyed entry.1 entry.2 ((self.threads.mem_entries_iff _ _).mp member)
  exact Prod.ext own rfl

/-- A tree is what its own threads make. -/
theorem PlanTree.ofThreads_values (self : PlanTree) :
    PlanTree.ofThreads self.abandonThreshold self.path self.threads.values = self := by
  obtain ⟨threads, threshold, path⟩ := foldl_setThread self.threads.values
    ⟨self.abandonThreshold, self.path, ∅, keyed_empty⟩
  have same : (PlanTree.ofThreads self.abandonThreshold self.path self.threads.values).threads = self.threads := by
    refine threads.trans ?_
    rw [self.entries_eq]
    exact LoadLoop.assign_entries self.threads
  revert same threshold path
  unfold PlanTree.ofThreads
  generalize self.threads.values.foldl setThread _ = other
  cases self
  cases other
  rintro ⟨⟩ ⟨⟩ ⟨⟩
  rfl

/-- A thread as the loader keeps it. -/
def PlanThread.loadedEntry (t : PlanThread) : Key ℚ × LoadedThread ℚ ℚ := (.str t.threadId, t.loaded)

theorem PlanThread.mapM_ofLoaded (threads : List PlanThread) :
    (threads.map PlanThread.loadedEntry).mapM PlanThread.ofLoaded = some threads := by
  have each : PlanThread.ofLoaded ∘ PlanThread.loadedEntry = fun t => pure t := funext PlanThread.ofLoaded_loaded
  rw [List.mapM_map, each]
  exact List.mapM_pure.trans (congrArg some (List.map_id _))

/-- What a tree writes is what a new one finds, whatever threshold it is
constructed with. -/
theorem PlanTree.reopen_persist (self : PlanTree) (threshold : ℚ) (disk : Disk ℚ) :
    PlanTree.reopen (exactReading floatOfText intOfText render) threshold self.path (self.persist disk false) =
      some self := by
  have written : stateText (self.persist disk false self.path) =
      .document (.dict [(.str "abandon_threshold", .num self.abandonThreshold),
        (.str "threads", .list (self.threads.values.map PlanThread.serialize))]) := by
    simp [persist, Disk.write, stateText]
  have reads : LoadLoop.Reads (readThread (exactReading floatOfText intOfText render))
      (self.threads.values.map PlanThread.serialize) (self.threads.values.map PlanThread.loadedEntry) := by
    rw [LoadLoop.Reads, List.forall₂_map_left_iff, List.forall₂_map_right_iff, List.forall₂_same]
    exact fun t _ => readThread_serialize floatOfText intOfText render t
  have distinct : ((∅ : Dict (Key ℚ) (LoadedThread ℚ ℚ)).keys ++
      (self.threads.values.map PlanThread.loadedEntry).map Prod.fst).Nodup := by
    have keys : (self.threads.values.map PlanThread.loadedEntry).map Prod.fst =
        self.threads.keys.map (Key.str (N := ℚ)) := by
      rw [Dict.keys, ← self.entries_eq, List.map_map, List.map_map, List.map_map]
      rfl
    rw [keys]
    exact self.threads.distinct.map fun a b same => Key.str.inj same
  have loaded : constructed (loadThreads (exactReading floatOfText intOfText render) threshold
      (stateText (self.persist disk false self.path))) =
      .ok ⟨self.abandonThreshold, LoadLoop.assign ∅ (self.threads.values.map PlanThread.loadedEntry)⟩ := by
    have own : documentThreshold (exactReading floatOfText intOfText render) threshold
        (.dict [(.str "abandon_threshold", .num self.abandonThreshold),
          (.str "threads", .list (self.threads.values.map PlanThread.serialize))]) = .ok self.abandonThreshold := rfl
    have raws : documentThreads (.dict [(.str "abandon_threshold", .num self.abandonThreshold),
        (.str "threads", .list (self.threads.values.map PlanThread.serialize))]) =
        .ok (self.threads.values.map PlanThread.serialize) := rfl
    rw [written, loadThreads, own]
    dsimp only
    rw [raws]
    dsimp only
    rw [LoadLoop.run_of_reads reads ∅]
    rfl
  rw [reopen, loaded]
  dsimp only
  rw [LoadLoop.entries_assign distinct]
  have typed := PlanThread.mapM_ofLoaded self.threads.values
  simp only [EmptyCollection.emptyCollection, Dict.empty, List.nil_append, typed, Option.map_some]
  exact congrArg some self.ofThreads_values

end RoundTrip

end Centroid
