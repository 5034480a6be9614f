import Centroid.Config.ConfigLoader
import Centroid.Lib.Chase

namespace Centroid

open Chase

namespace ConfigEnvironment

variable (env : ConfigEnvironment)

/-- The reference that the file of a path holds, if it can be read and holds
one. -/
def reference? (path : PurePath) : Option String :=
  match env.readPayload path with
  | .ok (_, extended) => extended
  | .error _ => none

/-- The next path in the chain of references. -/
def next? (path : PurePath) : Option PurePath :=
  (env.reference? path).map (env.resolveExtendedPath path)

/-- The file that a path is read from. -/
def fileOf (path : PurePath) : Option Location :=
  match env.locateText path with
  | .error _ => none
  | .ok loc =>
    match env.fs.entries.get? loc with
    | some (.file _) => some loc
    | _ => none

/-- The chain of references comes back to a file. -/
def Revisits (start : PurePath) : Prop :=
  ∃ i j path other, i < j ∧ chain env.next? start i = some path ∧ chain env.next? start j = some other ∧
    env.fileOf path = env.fileOf other ∧ (env.fileOf path).isSome = true

/-- A reference that is not joined to the directory of its file: it is
absolute, or it has several components and is not found next to the file. -/
def takenAsItStands (path : PurePath) (extended : String) : Bool :=
  let candidate := PurePath.parse extended
  candidate.isAbsolute || (candidate.comps.length ≠ 1 && !env.foundBeside path candidate)

/-- A reference that is a bare name. -/
def isSingleName (extended : String) : Bool :=
  let candidate := PurePath.parse extended
  !candidate.isAbsolute && candidate.comps.length = 1

/-- Two references of the chain, for the same path, are taken as they stand. -/
def RepeatsReference (start : PurePath) : Prop :=
  ∃ i j path other extended again, i < j ∧
    chain env.next? start i = some path ∧ env.reference? path = some extended ∧
    chain env.next? start j = some other ∧ env.reference? other = some again ∧
    env.takenAsItStands path extended = true ∧ env.takenAsItStands other again = true ∧
    PurePath.parse extended = PurePath.parse again

/-- The references of the chain from its place `i` up to its place `j` have a
property, together with the paths that hold them. -/
def Along (start : PurePath) (i j : ℕ) (property : PurePath → String → Prop) : Prop :=
  ∀ k path extended, i ≤ k → k < j → chain env.next? start k = some path → env.reference? path = some extended →
    property path extended

/-- The chain comes back to the name of a file by bare names only. -/
def ReturnsByNames (start : PurePath) : Prop :=
  ∃ i j path other, i < j ∧ chain env.next? start i = some path ∧ chain env.next? start j = some other ∧
    path.name = other.name ∧ env.Along start i j fun _ extended => isSingleName extended = true

section Loader

variable {env}

theorem resourcePackageAndName_ne_circular {path : PurePath} {error : ConfigLoadError}
    (failed : resourcePackageAndName path = .error error) (place : String) : error ≠ .circular place := by
  unfold resourcePackageAndName at failed
  split at failed <;> cases failed
  simp

theorem locateText_ne_circular {path : PurePath} {error : ConfigLoadError}
    (failed : env.locateText path = .error error) (place : String) : error ≠ .circular place := by
  unfold locateText at failed
  split at failed
  · cases failed
  · split at failed
    · rename_i e package
      cases failed
      exact resourcePackageAndName_ne_circular package place
    · repeat' split at failed
      all_goals cases failed
      all_goals simp

theorem readJson_ne_circular {path : PurePath} {error : ConfigLoadError}
    (failed : env.readJson path = .error error) (place : String) : error ≠ .circular place := by
  unfold readJson at failed
  split at failed
  · rename_i e located
    cases failed
    exact locateText_ne_circular located place
  · split at failed <;> cases failed <;> simp

/-- Reading alone never reports a circle. -/
theorem readPayload_ne_circular {path : PurePath} {error : ConfigLoadError}
    (failed : env.readPayload path = .error error) (place : String) : error ≠ .circular place := by
  unfold readPayload at failed
  split at failed
  · rename_i e read
    cases failed
    exact readJson_ne_circular read place
  · simp only at failed
    repeat' split at failed
    all_goals cases failed
    all_goals simp
  · cases failed
    simp

theorem next?_of_payload {path : PurePath} {payload : JsonObject} {extended : String}
    (read : env.readPayload path = .ok (payload, some extended)) :
    env.next? path = some (env.resolveExtendedPath path extended) := by
  simp [next?, reference?, read]

/-- The loader runs out of fuel, reports a circle or ends as the chase of the
references by their texts does. -/
theorem loadConfigData_chase (env : ConfigEnvironment) (fuel : ℕ) (path : PurePath) (seen : List String) :
    match chase env.next? PurePath.str fuel path seen with
    | none => env.loadConfigData fuel path seen = none
    | some .ended => ∃ result, env.loadConfigData fuel path seen = some result ∧
        ∀ place, result ≠ .error (.circular place)
    | some (.repeated place) => env.loadConfigData fuel path seen = some (.error (.circular place.str)) := by
  induction fuel generalizing path seen with
  | zero => rfl
  | succ fuel ih =>
    rw [chase, loadConfigData]
    rcases read : env.readPayload path with error | ⟨payload, _ | extended⟩
    · have last : env.next? path = none := by simp [next?, reference?, read]
      simp only [last]
      exact ⟨_, rfl, fun place same => readPayload_ne_circular read place (by simpa using same)⟩
    · have last : env.next? path = none := by simp [next?, reference?, read]
      simp only [last]
      exact ⟨_, rfl, fun place => by simp⟩
    · simp only [next?_of_payload read]
      by_cases again : (env.resolveExtendedPath path extended).str ∈ seen
      · simp only [again, if_true]
      · simp only [again, if_false]
        have later := ih (env.resolveExtendedPath path extended) ((env.resolveExtendedPath path extended).str :: seen)
        cases run : chase env.next? PurePath.str fuel (env.resolveExtendedPath path extended)
            ((env.resolveExtendedPath path extended).str :: seen) with
        | none =>
          rw [run] at later
          simp only [later]
        | some outcome =>
          rw [run] at later
          cases outcome with
          | ended =>
            obtain ⟨result, loaded, plain⟩ := later
            cases result with
            | error e => exact ⟨.error e, by simp only [loaded], plain⟩
            | ok parent => exact ⟨.ok (deepMerge parent payload), by simp only [loaded], fun place => by simp⟩
          | repeated place => simp only [later]

end Loader

section Chain

variable {env}

theorem reference?_of_next? {path next : PurePath} (stepped : env.next? path = some next) :
    ∃ extended, env.reference? path = some extended ∧ next = env.resolveExtendedPath path extended := by
  obtain ⟨extended, held, same⟩ := Option.map_eq_some_iff.mp stepped
  exact ⟨extended, held, same.symm⟩

/-- A chain that goes on holds a reference. -/
theorem chain_reference {start last : PurePath} {k j : ℕ} (before : k < j)
    (found : chain env.next? start j = some last) :
    ∃ path extended, chain env.next? start k = some path ∧ env.reference? path = some extended ∧
      chain env.next? start (k + 1) = some (env.resolveExtendedPath path extended) := by
  obtain ⟨path, next, here, stepped, after⟩ := chain_step before found
  obtain ⟨extended, held, rfl⟩ := reference?_of_next? stepped
  exact ⟨path, extended, here, held, after⟩

/-- A path with a reference is read from a file of the tree. -/
theorem fileOf_of_reference {path : PurePath} {extended : String} (held : env.reference? path = some extended) :
    ∃ loc, env.fileOf path = some loc ∧ loc ∈ env.fs.entries.keys := by
  unfold reference? at held
  split at held
  · rename_i payload reference read
    unfold readPayload readJson at read
    unfold fileOf
    cases located : env.locateText path with
    | error e => simp [located] at read
    | ok loc =>
      simp only [located] at read ⊢
      cases entry : env.fs.entries.get? loc with
      | none => simp [entry] at read
      | some kind =>
        cases kind with
        | dir => simp [entry] at read
        | file content => exact ⟨loc, rfl, (Dict.mem_keys_iff _ _).mpr ⟨_, entry⟩⟩
  · cases held

theorem fileOf_of_directory {path : PurePath} {loc : Location} (located : env.fs.locate path = some loc)
    (dir : isDirectory env.fs.entries loc = true) : env.fileOf path = none := by
  unfold isDirectory at dir
  split at dir
  · rename_i entry
    simp only [fileOf, locateText, located, entry]
  · cases dir

theorem comps_ne_nil {path : PurePath} {extended : String} (held : env.reference? path = some extended) :
    path.comps ≠ [] := by
  intro bare
  obtain ⟨loc, located, dir⟩ := env.fs.locate_of_nil bare
  obtain ⟨place, file, -⟩ := fileOf_of_reference held
  rw [fileOf_of_directory located dir] at file
  cases file

theorem resolve_of_taken {path : PurePath} {extended : String} (taken : env.takenAsItStands path extended = true) :
    env.resolveExtendedPath path extended = PurePath.parse extended := by
  simp only [takenAsItStands, Bool.or_eq_true, Bool.and_eq_true, decide_eq_true_eq, Bool.not_eq_true'] at taken
  unfold resolveExtendedPath
  by_cases absolute : (PurePath.parse extended).isAbsolute = true
  · simp only [absolute, if_true]
  · obtain ⟨several, away⟩ := taken.resolve_left absolute
    have relative := Bool.not_eq_true _ ▸ absolute
    simp only [absolute, away, PurePath.parts_of_relative relative, several, and_false, if_false,
      Bool.false_eq_true]

/-- A bare name is joined to the directory of its file, also where the path
of the file is a bare name itself. -/
theorem resolve_of_joined {path : PurePath} {extended : String} (nonempty : path.comps ≠ [])
    (joined : env.takenAsItStands path extended = false) :
    (PurePath.parse extended).isAbsolute = false ∧
      env.resolveExtendedPath path extended = path.parent.join (PurePath.parse extended) := by
  simp only [takenAsItStands, Bool.or_eq_false_iff, Bool.and_eq_false_iff, decide_eq_false_iff_not, not_not,
    Bool.not_eq_false'] at joined
  obtain ⟨relative, kind⟩ := joined
  refine ⟨relative, ?_⟩
  unfold resolveExtendedPath
  by_cases beside : env.foundBeside path (PurePath.parse extended) = true
  · simp only [relative, beside, if_true, Bool.false_eq_true, if_false]
  · have bare := kind.resolve_right beside
    have single : (PurePath.parse extended).parts.length = 1 := by rwa [PurePath.parts_of_relative relative]
    by_cases deep : 2 ≤ path.parts.length
    · simp only [relative, beside, deep, single, and_self, if_true, Bool.false_eq_true, if_false]
    · simp only [relative, beside, deep, false_and, if_false, Bool.false_eq_true]
      obtain ⟨bareName, above⟩ := PurePath.parent_of_short nonempty (Nat.lt_of_not_le deep)
      obtain ⟨root, comps⟩ := PurePath.join_of_relative path.parent relative
      refine PurePath.ext ?_ ?_
      · rw [root, PurePath.root_of_relative relative]
        exact bareName.symm
      · rw [comps, above, List.nil_append]

/-- A joined reference that leads to a file lengthens the path by all its
components but one. -/
theorem length_of_joined {path : PurePath} {extended : String} (held : env.reference? path = some extended)
    (joined : env.takenAsItStands path extended = false)
    (readable : (env.fileOf (env.resolveExtendedPath path extended)).isSome = true) :
    0 < (PurePath.parse extended).comps.length ∧
      (env.resolveExtendedPath path extended).comps.length + 1 =
        path.comps.length + (PurePath.parse extended).comps.length := by
  have nonempty := comps_ne_nil held
  obtain ⟨relative, resolved⟩ := resolve_of_joined nonempty joined
  have positive := List.length_pos_iff.mpr nonempty
  constructor
  · by_contra bare
    have bare := List.length_eq_zero_iff.mp (Nat.eq_zero_of_not_pos bare)
    -- The reference is a dot: what is found next to the file is its directory.
    have beside : env.foundBeside path (PurePath.parse extended) = true := by
      simpa [takenAsItStands, relative, bare] using joined
    obtain ⟨loc, located, dir⟩ := env.fs.locate_parent (Bool.and_eq_true_iff.mp beside).1 nonempty
    have same : path.parent.join (PurePath.parse extended) = path.parent := by
      obtain ⟨root, comps⟩ := PurePath.join_of_relative path.parent relative
      exact PurePath.ext root (by rw [comps, bare, List.append_nil])
    rw [resolved, same, fileOf_of_directory located dir] at readable
    cases readable
  · rw [resolved, (PurePath.join_of_relative path.parent relative).2, List.length_append,
      PurePath.comps_parent, List.length_dropLast]
    omega

end Chain

end ConfigEnvironment

end Centroid
