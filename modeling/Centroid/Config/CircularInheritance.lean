import Centroid.Config.ExtendsChain
import Mathlib.Data.Nat.SuccPred
import Mathlib.Order.Interval.Set.OrdConnected

namespace Centroid

open Chase

namespace ConfigEnvironment

section

variable {env : ConfigEnvironment} {start : PurePath}

/-- A stretch of the chain that begins and ends at one path reads a file at
every place, its end included. -/
theorem readable_of_return {i j k : ℕ} {path between : PurePath} (before : i < j)
    (first : chain env.next? start i = some path) (last : chain env.next? start j = some path) (upper : k ≤ j)
    (here : chain env.next? start k = some between) : (env.fileOf between).isSome = true := by
  have known : ∃ extended, env.reference? between = some extended := by
    rcases Nat.lt_or_eq_of_le upper with inside | rfl
    · obtain ⟨_, extended, same, held, -⟩ := chain_reference inside last
      cases here.symm.trans same
      exact ⟨extended, held⟩
    · obtain ⟨_, extended, same, held, -⟩ := chain_reference before last
      cases here.symm.trans last
      cases first.symm.trans same
      exact ⟨extended, held⟩
  obtain ⟨extended, held⟩ := known
  obtain ⟨loc, file, -⟩ := fileOf_of_reference held
  rw [file]
  rfl

/-- Along a stretch of the chain on which every reference is joined, paths
only get longer; one that comes back has met bare names only. -/
theorem names_of_joined {i j : ℕ} {path : PurePath} (before : i < j) (first : chain env.next? start i = some path)
    (last : chain env.next? start j = some path)
    (joined : env.Along start i j fun between extended => env.takenAsItStands between extended = false) :
    env.Along start i j fun _ extended => isSingleName extended = true := by
  let length k := ((chain env.next? start k).map fun between => between.comps.length).getD 0
  have stretch : ∀ k between extended, i ≤ k → k < j → chain env.next? start k = some between →
      env.reference? between = some extended →
      0 < (PurePath.parse extended).comps.length ∧
        length (k + 1) + 1 = length k + (PurePath.parse extended).comps.length := by
    intro k between extended lower upper here held
    obtain ⟨_, _, same, heldSame, after⟩ := chain_reference upper last
    cases here.symm.trans same
    cases held.symm.trans heldSame
    have step := length_of_joined held (joined k between extended lower upper here held)
      (readable_of_return before first last upper after)
    simpa only [length, here, after, Option.map_some, Option.getD_some] using step
  have grows : ∀ k, i ≤ k → k < j → length k ≤ length (k + 1) := by
    intro k lower upper
    obtain ⟨between, extended, here, held, -⟩ := chain_reference upper last
    obtain ⟨positive, step⟩ := stretch k between extended lower upper here held
    omega
  intro k between extended lower upper here held
  obtain ⟨positive, step⟩ := stretch k between extended lower upper here held
  have monotone : MonotoneOn length (Set.Icc i j) :=
    monotoneOn_of_le_add_one Set.ordConnected_Icc fun k _ inside after => grows k inside.1 after.2
  have toHere : length i ≤ length k := monotone ⟨le_rfl, before.le⟩ ⟨lower, upper.le⟩ lower
  have fromNext : length (k + 1) ≤ length j := monotone ⟨by omega, upper⟩ ⟨before.le, le_rfl⟩ upper
  have ends : length i = length j := by simp only [length, first, last]
  have relative := (resolve_of_joined (comps_ne_nil held) (joined k between extended lower upper here held)).1
  simp only [isSingleName, relative, Bool.not_false, Bool.true_and, decide_eq_true_eq]
  omega

theorem resolve_of_name {path : PurePath} {extended : String} (nonempty : path.comps ≠ [])
    (name : isSingleName extended = true) :
    (env.resolveExtendedPath path extended).root = path.root ∧
      (env.resolveExtendedPath path extended).comps.dropLast = path.comps.dropLast ∧
      (env.resolveExtendedPath path extended).comps ≠ [] := by
  simp only [isSingleName, Bool.and_eq_true, Bool.not_eq_true', decide_eq_true_eq] at name
  obtain ⟨relative, single⟩ := name
  have joined : env.takenAsItStands path extended = false := by
    simp [takenAsItStands, relative, single]
  obtain ⟨root, comps⟩ := PurePath.join_of_relative path.parent relative
  obtain ⟨comp, only⟩ := List.length_eq_one_iff.mp single
  rw [(resolve_of_joined nonempty joined).2, root, comps, only]
  exact ⟨rfl, List.dropLast_concat, by simp⟩

/-- Bare names stay in the directory of the first path. -/
theorem directory_of_names {i j : ℕ} {path other : PurePath} (before : i < j)
    (first : chain env.next? start i = some path) (last : chain env.next? start j = some other)
    (names : env.Along start i j fun _ extended => isSingleName extended = true) {k : ℕ} (lower : i ≤ k)
    (upper : k ≤ j) :
    ∃ between, chain env.next? start k = some between ∧ between.root = path.root ∧
      between.comps.dropLast = path.comps.dropLast ∧ between.comps ≠ [] := by
  induction k, lower using Nat.le_induction with
  | base =>
    obtain ⟨_, extended, here, held, -⟩ := chain_reference before last
    cases first.symm.trans here
    exact ⟨path, first, rfl, rfl, comps_ne_nil held⟩
  | succ k lower ih =>
    obtain ⟨between, here, root, above, nonempty⟩ := ih (by omega)
    obtain ⟨_, extended, same, held, after⟩ := chain_reference upper last
    cases here.symm.trans same
    obtain ⟨rootNext, aboveNext, full⟩ := resolve_of_name nonempty (names k between extended lower upper here held)
    exact ⟨_, after, rootNext.trans root, aboveNext.trans above, full⟩

/-- A path comes back exactly where a reference does that is taken as it
stands, or where bare names lead back to a name. -/
theorem meets_iff :
    Meets env.next? start PurePath.str ↔ env.RepeatsReference start ∨ env.ReturnsByNames start := by
  constructor
  · rintro ⟨i, j, path, other, before, first, last, texts⟩
    cases PurePath.str_injective texts
    by_cases taken : ∃ k between extended, i ≤ k ∧ k < j ∧ chain env.next? start k = some between ∧
        env.reference? between = some extended ∧ env.takenAsItStands between extended = true
    · -- one period later the same file holds the same reference
      obtain ⟨k, between, extended, lower, upper, here, held, kind⟩ := taken
      have shifted := chain_shift (first.trans last.symm) (k - i)
      rw [Nat.add_sub_cancel' lower, here] at shifted
      exact .inl ⟨k, j + (k - i), between, between, extended, extended, by omega, here, held, shifted.symm, held,
        kind, kind, rfl⟩
    · refine .inr ⟨i, j, path, path, before, first, last, rfl, names_of_joined before first last ?_⟩
      intro k between extended lower upper here held
      by_contra kind
      exact taken ⟨k, between, extended, lower, upper, here, held, Bool.not_eq_false _ ▸ kind⟩
  · rintro (⟨i, j, path, other, extended, again, before, first, held, last, heldAgain, kind, kindAgain, same⟩ |
      ⟨i, j, path, other, before, first, last, name, names⟩)
    · refine ⟨i + 1, j + 1, PurePath.parse extended, PurePath.parse again, by omega, ?_, ?_, by rw [same]⟩
      · rw [chain, first, Option.bind_some, next?, held, Option.map_some, resolve_of_taken kind]
      · rw [chain, last, Option.bind_some, next?, heldAgain, Option.map_some, resolve_of_taken kindAgain]
    · obtain ⟨_, here, -, -, nonempty⟩ := directory_of_names before first last names le_rfl before.le
      cases first.symm.trans here
      obtain ⟨_, there, root, above, nonemptyOther⟩ := directory_of_names before first last names before.le le_rfl
      cases last.symm.trans there
      refine ⟨i, j, path, other, before, first, last, ?_⟩
      rw [PurePath.eq_of_name root.symm above.symm name nonempty nonemptyOther]

/-- A chain without an end reads a file again, since the tree is finite. -/
theorem ends_or_revisits (env : ConfigEnvironment) (start : PurePath) :
    (∃ n, chain env.next? start n = none) ∨ env.Revisits start := by
  by_contra neither
  obtain ⟨endless, fresh⟩ := not_or.mp neither
  have files : ∀ n, ∃ path, chain env.next? start n = some path ∧
      env.fileOf path ∈ env.fs.entries.keys.map some ∧ (env.fileOf path).isSome = true := by
    intro n
    obtain ⟨last, found⟩ := Option.ne_none_iff_exists'.mp (not_exists.mp endless (n + 1))
    obtain ⟨path, extended, here, held, -⟩ := chain_reference (Nat.lt_succ_self n) found
    obtain ⟨loc, file, member⟩ := fileOf_of_reference held
    exact ⟨path, here, file ▸ List.mem_map_of_mem member, file ▸ rfl⟩
  obtain ⟨i, j, path, other, before, first, last, same⟩ := meets_of_endless env.fileOf _
    fun n => let ⟨path, here, member, _⟩ := files n; ⟨path, here, member⟩
  obtain ⟨_, here, -, file⟩ := files i
  cases first.symm.trans here
  exact fresh ⟨i, j, path, other, before, first, last, same, file⟩

/-- The loader reports a circle exactly where a path comes back. -/
theorem loadAgentConfig_circular_iff (env : ConfigEnvironment) (render : Json → String) (start : PurePath) :
    (∃ fuel place, env.loadAgentConfig render fuel start = some (.error (.circular place))) ↔
      Meets env.next? start PurePath.str := by
  rw [← chase_repeated_iff]
  constructor
  · rintro ⟨fuel, place, failed⟩
    have raised : env.loadConfigData fuel start [start.str] = some (.error (.circular place)) := by
      unfold loadAgentConfig at failed
      split at failed
      · cases failed
      · rename_i error loaded
        cases failed
        exact loaded
      · split at failed <;> cases failed
    have follows := loadConfigData_chase env fuel start [start.str]
    rcases run : chase env.next? PurePath.str fuel start [start.str] with _ | _ | last
    · rw [run, raised] at follows
      cases follows
    · rw [run] at follows
      obtain ⟨result, loaded, plain⟩ := follows
      rw [raised] at loaded
      cases loaded
      exact absurd rfl (plain place)
    · exact ⟨fuel, last, run⟩
  · rintro ⟨fuel, place, run⟩
    have follows := loadConfigData_chase env fuel start [start.str]
    rw [run] at follows
    exact ⟨fuel, place.str, by simp only [loadAgentConfig, follows]⟩

/-- A chain that ends is loaded or refused. -/
theorem loadAgentConfig_of_end {n : ℕ} (ending : chain env.next? start n = none) (render : Json → String) :
    ∃ fuel result, env.loadAgentConfig render fuel start = some result := by
  obtain ⟨fuel, outcome, run⟩ := chase_of_end PurePath.str ending [start.str]
  have follows := loadConfigData_chase env fuel start [start.str]
  rw [run] at follows
  refine ⟨fuel, ?_⟩
  cases outcome with
  | ended =>
    obtain ⟨result, loaded, -⟩ := follows
    unfold loadAgentConfig
    rw [loaded]
    rcases result with error | data
    · exact ⟨_, rfl⟩
    · rcases parsed : parseAgentConfig render data (some start) with error | config
      · exact ⟨.error (.rejected error), by simp only [parsed]⟩
      · exact ⟨.ok config, by simp only [parsed]⟩
  | repeated place => exact ⟨.error (.circular place.str), by simp only [loadAgentConfig, follows]⟩

/-- Loading always ends, with the error for circular inheritance whenever the
chain of references comes back to a file, exactly where a chain that comes
back repeats a reference taken as it stands or returns by bare names. -/
theorem loadAgentConfig_detects_iff (env : ConfigEnvironment) (render : Json → String) (start : PurePath) :
    ((∃ fuel result, env.loadAgentConfig render fuel start = some result) ∧
      (env.Revisits start →
        ∃ fuel place, env.loadAgentConfig render fuel start = some (.error (.circular place)))) ↔
    (env.Revisits start → env.RepeatsReference start ∨ env.ReturnsByNames start) := by
  rw [loadAgentConfig_circular_iff, meets_iff]
  constructor
  · rintro ⟨-, detects⟩
    exact detects
  · intro detects
    refine ⟨?_, detects⟩
    rcases ends_or_revisits env start with ⟨n, ending⟩ | revisits
    · exact loadAgentConfig_of_end ending render
    · obtain ⟨fuel, place, failed⟩ := (loadAgentConfig_circular_iff env render start).mpr
        (meets_iff.mpr (detects revisits))
      exact ⟨fuel, _, failed⟩

end

/-- The file `a/x.json` extends `../a/x.json`, which is found next to it. -/
def selfReferring : ConfigEnvironment where
  fs :=
    { entries :=
        ⟨[([], .dir), (["a"], .dir),
          (["a", "x.json"], .file (some (.dict [(.str "extends", .str "../a/x.json")])))], by decide⟩
      root := rfl
      inDirectory := by decide
      cwd := []
      cwd_dir := rfl }
  packageDir _ := none

/-- A path of the file whose directory part makes a number of detours. -/
def Spells (path : PurePath) (detours : ℕ) : Prop :=
  path.isAbsolute = false ∧ ∃ dir, path.comps = dir ++ ["x.json"] ∧
    selfReferring.fs.walk [] dir = some ["a"] ∧ dir.length = 2 * detours + 1

theorem Spells.locate {path : PurePath} {detours : ℕ} (spells : Spells path detours) :
    selfReferring.fs.locate path = some ["a", "x.json"] := by
  obtain ⟨relative, dir, comps, walked, -⟩ := spells
  have below : selfReferring.fs.step ["a"] "x.json" = some ["a", "x.json"] := by decide +kernel
  unfold FileSystem.locate
  rw [comps, FileTree.walk_concat]
  simp only [relative, Bool.false_eq_true, if_false]
  rw [show selfReferring.fs.cwd = [] from rfl, walked]
  exact below

theorem Spells.reference? {path : PurePath} {detours : ℕ} (spells : Spells path detours) :
    selfReferring.reference? path = some "../a/x.json" := by
  have read : selfReferring.readJson path = .ok (.dict [(.str "extends", .str "../a/x.json")]) := by
    simp only [readJson, locateText, spells.locate]
    rfl
  simp only [ConfigEnvironment.reference?, readPayload, read]
  rfl

theorem Spells.fileOf {path : PurePath} {detours : ℕ} (spells : Spells path detours) :
    selfReferring.fileOf path = some ["a", "x.json"] := by
  simp only [ConfigEnvironment.fileOf, locateText, spells.locate]
  rfl

/-- Following the reference adds a detour. -/
theorem Spells.next? {path : PurePath} {detours : ℕ} (spells : Spells path detours) :
    ∃ next, selfReferring.next? path = some next ∧ Spells next (detours + 1) := by
  have parsed : PurePath.parse "../a/x.json" = ⟨.relative, ["..", "a", "x.json"], by decide⟩ := by decide +kernel
  have around : selfReferring.fs.walk ["a"] ["..", "a"] = some ["a"] := by decide +kernel
  obtain ⟨root, comps⟩ := PurePath.join_of_relative path.parent (congrArg PurePath.isAbsolute parsed)
  have added : Spells (path.parent.join (PurePath.parse "../a/x.json")) (detours + 1) := by
    obtain ⟨relative, dir, here, walked, length⟩ := spells
    refine ⟨?_, dir ++ ["..", "a"], ?_, ?_, ?_⟩
    · rw [PurePath.isAbsolute, root]
      exact relative
    · rw [comps, parsed, PurePath.comps_parent, here, List.dropLast_concat, List.append_assoc]
      rfl
    · rw [FileTree.walk_append, walked]
      exact around
    · simp only [List.length_append, List.length_cons, List.length_nil, length]
      omega
  have beside : selfReferring.foundBeside path (PurePath.parse "../a/x.json") = true := by
    simp only [foundBeside, FileSystem.pathExists, spells.locate, added.locate]
    rfl
  refine ⟨_, ?_, added⟩
  rw [ConfigEnvironment.next?, spells.reference?, Option.map_some, resolveExtendedPath]
  simp only [congrArg PurePath.isAbsolute parsed, beside]
  rfl

theorem selfReferring_chain {start : PurePath} (spells : Spells start 0) (n : ℕ) :
    ∃ path, chain selfReferring.next? start n = some path ∧ Spells path n := by
  induction n with
  | zero => exact ⟨start, rfl, spells⟩
  | succ n ih =>
    obtain ⟨path, here, spelled⟩ := ih
    obtain ⟨next, stepped, added⟩ := spelled.next?
    exact ⟨next, by rw [chain, here]; exact stepped, added⟩

/-- A file that extends itself by a detour over its directory is spelled
anew in every turn, so the loader never comes to an end. -/
theorem detour_never_detected : ¬
    ((∃ fuel result, selfReferring.loadAgentConfig (fun _ => "") fuel (.parse "a/x.json") = some result) ∧
      (selfReferring.Revisits (.parse "a/x.json") → ∃ fuel place,
        selfReferring.loadAgentConfig (fun _ => "") fuel (.parse "a/x.json") = some (.error (.circular place)))) := by
  have spells : Spells (.parse "a/x.json") 0 :=
    ⟨by decide +kernel, ["a"], by decide +kernel, by decide +kernel, rfl⟩
  rintro ⟨-, detects⟩
  obtain ⟨path, first, spelled⟩ := selfReferring_chain spells 0
  obtain ⟨other, second, added⟩ := selfReferring_chain spells 1
  have circular := detects ⟨0, 1, path, other, Nat.zero_lt_one, first, second, by rw [spelled.fileOf, added.fileOf],
    by rw [spelled.fileOf]; rfl⟩
  obtain ⟨i, j, here, there, before, atI, atJ, texts⟩ := (loadAgentConfig_circular_iff _ _ _).mp circular
  obtain ⟨_, same, -, dir, comps, -, length⟩ := selfReferring_chain spells i
  obtain ⟨_, sameLater, -, dirLater, compsLater, -, lengthLater⟩ := selfReferring_chain spells j
  cases atI.symm.trans same
  cases atJ.symm.trans sameLater
  rw [PurePath.str_injective texts, compsLater] at comps
  have lengths := congrArg List.length comps
  simp only [List.length_append, length, lengthLater] at lengths
  omega

end ConfigEnvironment

end Centroid
