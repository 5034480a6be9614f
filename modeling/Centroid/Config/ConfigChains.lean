import Centroid.Config.MergedPaths

namespace Centroid

/-- The merge of a root with the configurations derived from it, one after the
other. -/
def mergeChain (root : JsonObject) (derived : List JsonObject) : JsonObject := derived.foldl deepMerge root

def IsObject (value : Json) : Prop := ∃ data, value = .dict data

/-- A configuration has a value at a path. -/
def Assigns (config : JsonObject) (path : List String) : Prop := ∃ value, atPath (.dict config) path = some value

/-- A configuration has something else than an object on the way of a path. -/
def Blocks (config : JsonObject) (path : List String) : Prop :=
  ∃ front rest value, path = front ++ rest ∧ rest ≠ [] ∧ atPath (.dict config) front = some value ∧ ¬IsObject value

/-- A configuration has its say on a path. -/
def Decides (config : JsonObject) (path : List String) : Prop := Assigns config path ∨ Blocks config path

theorem blocksPath_cons_of_not_object {json : Json} (other : ¬IsObject json) (name : String) (rest : List String) :
    blocksPath json (name :: rest) = true := by
  cases json with
  | dict data => exact (other ⟨data, rfl⟩).elim
  | _ => rfl

theorem blocksPath_iff {json : Json} {path : List String} :
    blocksPath json path = true ↔
      ∃ front rest value, path = front ++ rest ∧ rest ≠ [] ∧ atPath json front = some value ∧ ¬IsObject value := by
  induction path generalizing json with
  | nil =>
    rw [blocksPath]
    refine ⟨fun impossible => ?_, ?_⟩
    · cases impossible
    · rintro ⟨front, rest, value, split, some, _⟩
      exact (some (List.append_eq_nil_iff.mp split.symm).2).elim
  | cons name path ih =>
    by_cases object : IsObject json
    · obtain ⟨data, rfl⟩ := object
      rw [blocksPath]
      constructor
      · intro blocked
        cases found : JsonObject.get? data name with
        | none => simp [found] at blocked
        | some inner =>
          simp only [found, Option.map_some, Option.getD_some] at blocked
          obtain ⟨front, rest, value, split, some, reached, other⟩ := ih.mp blocked
          refine ⟨name :: front, rest, value, by rw [split, List.cons_append], some, ?_, other⟩
          rw [atPath_dict, found]
          exact reached
      · rintro ⟨front, rest, value, split, some, reached, other⟩
        cases front with
        | nil =>
          rw [atPath_nil, Option.some.injEq] at reached
          exact (other ⟨data, reached.symm⟩).elim
        | cons first front =>
          obtain ⟨rfl, rfl⟩ := List.cons.inj split
          rw [atPath_dict] at reached
          obtain ⟨inner, found, reached⟩ := Option.bind_eq_some_iff.mp reached
          rw [found, Option.map_some, Option.getD_some]
          exact ih.mpr ⟨front, rest, value, rfl, some, reached, other⟩
    · refine ⟨fun _ => ⟨[], name :: path, json, rfl, List.cons_ne_nil _ _, atPath_nil json, object⟩, fun _ => ?_⟩
      exact blocksPath_cons_of_not_object object name path

theorem blocks_iff {config : JsonObject} {path : List String} : Blocks config path ↔ blocksPath (.dict config) path = true :=
  blocksPath_iff.symm

theorem decides_iff {config : JsonObject} {path : List String} :
    Decides config path ↔ (atPath (.dict config) path).isSome ∨ blocksPath (.dict config) path = true := by
  rw [Decides, blocks_iff, Assigns, Option.isSome_iff_exists]

theorem mergeValue_of_not_object {value : Json} (other : ¬IsObject value) (merged : Option Json) :
    mergeValue merged value = value := by
  cases value with
  | dict data => exact (other ⟨data, rfl⟩).elim
  | _ => simp [mergeValue]

theorem isObject_mergeValue {value : Json} (object : IsObject value) (merged : Option Json) :
    IsObject (mergeValue merged value) := by
  obtain ⟨data, rfl⟩ := object
  unfold mergeValue
  split
  · exact ⟨_, rfl⟩
  · exact ⟨_, rfl⟩

theorem atPath_deepMerge (parent : JsonObject) {child : JsonObject} (wellFormed : Value.WellFormed (.dict child : Json))
    (path : List String) :
    atPath (.dict (deepMerge parent child)) path =
      match atPath (.dict child) path with
      | some value => some (mergeValue (atPath (.dict parent) path) value)
      | none => if blocksPath (.dict child) path then none else atPath (.dict parent) path := by
  have found := atPath_mergeValue (some (.dict parent)) wellFormed path
  rwa [mergeValue_dict] at found

/-- What a child does not decide is inherited. -/
theorem atPath_deepMerge_of_not_decides (parent : JsonObject) {child : JsonObject}
    (wellFormed : Value.WellFormed (.dict child : Json)) {path : List String} (silent : ¬Decides child path) :
    atPath (.dict (deepMerge parent child)) path = atPath (.dict parent) path := by
  rw [decides_iff, not_or, Option.not_isSome_iff_eq_none] at silent
  rw [atPath_deepMerge parent wellFormed, silent.1]
  exact if_neg silent.2

/-- What a child decides has from the child whatever is no object. -/
theorem atPath_deepMerge_of_decides (parent : JsonObject) {child : JsonObject}
    (wellFormed : Value.WellFormed (.dict child : Json)) {path : List String} (decides : Decides child path) {value : Json}
    (other : ¬IsObject value) :
    atPath (.dict (deepMerge parent child)) path = some value ↔ atPath (.dict child) path = some value := by
  rw [atPath_deepMerge parent wellFormed]
  cases found : atPath (.dict child) path with
  | none =>
    rw [decides_iff, found, Option.isSome_none] at decides
    simp only [decides.resolve_left Bool.false_ne_true, if_true]
  | some inner =>
    dsimp only
    by_cases object : IsObject inner
    · have merged := isObject_mergeValue object (atPath (.dict parent) path)
      refine ⟨fun same => (other ?_).elim, fun same => (other ?_).elim⟩
      · rwa [Option.some.inj same] at merged
      · rwa [Option.some.inj same] at object
    · rw [mergeValue_of_not_object object]

theorem mergeChain_concat (root : JsonObject) (derived : List JsonObject) (child : JsonObject) :
    mergeChain root (derived ++ [child]) = deepMerge (mergeChain root derived) child :=
  List.foldl_concat _ _ _ _

/-- A member of a list is the last one, or stands before it. -/
theorem last_or_earlier {configs before after : List JsonObject} {last config : JsonObject}
    (split : configs ++ [last] = before ++ config :: after) :
    config = last ∨ ∃ earlier, after = earlier ++ [last] ∧ configs = before ++ config :: earlier := by
  rcases List.eq_nil_or_concat after with rfl | ⟨earlier, other, rfl⟩
  · exact Or.inl (List.singleton_inj.mp (List.append_inj_right' split rfl)).symm
  · right
    rw [List.concat_eq_append, ← List.cons_append, ← List.append_assoc] at split
    obtain rfl := List.singleton_inj.mp (List.append_inj_right' split rfl)
    exact ⟨earlier, List.concat_eq_append, List.append_inj_left' split rfl⟩

/-- The last configuration with a say on a path decides it. -/
theorem atPath_mergeChain_iff (root : JsonObject) {derived : List JsonObject}
    (wellFormed : ∀ config ∈ derived, Value.WellFormed (.dict config : Json)) (path : List String) {value : Json}
    (other : ¬IsObject value) :
    atPath (.dict (mergeChain root derived)) path = some value ↔
      ∃ before config after, root :: derived = before ++ config :: after ∧ atPath (.dict config) path = some value ∧
        ∀ later ∈ after, ¬Decides later path := by
  induction derived using List.reverseRecOn with
  | nil =>
    refine ⟨fun found => ⟨[], root, [], rfl, found, by simp⟩, ?_⟩
    rintro ⟨before, config, after, split, found, _⟩
    cases before with
    | nil =>
      obtain ⟨rfl, _⟩ := List.cons.inj split
      exact found
    | cons first before => simp at split
  | append_singleton derived child ih =>
    have childFormed := wellFormed child (List.mem_append_right _ (List.mem_singleton_self _))
    have inherited := ih fun config member => wellFormed config (List.mem_append_left _ member)
    rw [mergeChain_concat]
    by_cases decides : Decides child path
    · rw [atPath_deepMerge_of_decides _ childFormed decides other]
      constructor
      · intro found
        exact ⟨root :: derived, child, [], rfl, found, by simp⟩
      · rintro ⟨before, config, after, split, found, silent⟩
        rw [← List.cons_append] at split
        rcases last_or_earlier split with rfl | ⟨earlier, rfl, _⟩
        · exact found
        · exact (silent child (List.mem_append_right _ (List.mem_singleton_self _)) decides).elim
    · rw [atPath_deepMerge_of_not_decides _ childFormed decides, inherited]
      constructor
      · rintro ⟨before, config, after, split, found, silent⟩
        refine ⟨before, config, after ++ [child], ?_, found, ?_⟩
        · rw [← List.cons_append, split, List.append_assoc, List.cons_append]
        · intro later member
          rcases List.mem_append.mp member with earlier | last
          · exact silent later earlier
          · rw [List.mem_singleton.mp last]
            exact decides
      · rintro ⟨before, config, after, split, found, silent⟩
        rw [← List.cons_append] at split
        rcases last_or_earlier split with rfl | ⟨earlier, rfl, same⟩
        · exact (decides (Or.inl ⟨value, found⟩)).elim
        · exact ⟨before, config, earlier, same, found, fun later member => silent later (List.mem_append_left _ member)⟩

/-- An object whose keys are new is appended. -/
theorem deepMerge_of_fresh (base : JsonObject) {override : JsonObject} (distinct : (override.map Prod.fst).Nodup)
    (fresh : ∀ key ∈ override.map Prod.fst, key ∉ base.map Prod.fst) : deepMerge base override = base ++ override := by
  induction override generalizing base with
  | nil => rw [deepMerge, List.append_nil]
  | cons entry rest ih =>
    obtain ⟨key, value⟩ := entry
    obtain ⟨apart, restDistinct⟩ := List.nodup_cons.mp distinct
    have absent := fresh key List.mem_cons_self
    have unset : Assoc.get? base key = none := (Assoc.get?_eq_none_iff base key).mpr absent
    rw [deepMerge, unset, mergeValue_none, Assoc.set_of_not_mem absent, ih _ restDistinct]
    · rw [List.append_assoc, List.singleton_append]
    · intro other later inside
      rw [List.map_append, List.mem_append, List.map_singleton, List.mem_singleton] at inside
      rcases inside with old | rfl
      · exact fresh other (List.mem_cons_of_mem _ later) old
      · exact apart later

theorem deepMerge_nil_left {config : JsonObject} (distinct : (config.map Prod.fst).Nodup) : deepMerge [] config = config :=
  deepMerge_of_fresh [] distinct fun _ _ => List.not_mem_nil

/-- Entries that are there already change nothing. -/
theorem deepMerge_of_present {base override : JsonObject}
    (present : ∀ entry ∈ override, Assoc.get? base entry.1 = some entry.2 ∧ mergeValue (some entry.2) entry.2 = entry.2) :
    deepMerge base override = base := by
  induction override with
  | nil => rw [deepMerge]
  | cons entry rest ih =>
    obtain ⟨key, value⟩ := entry
    obtain ⟨found, same⟩ := present (key, value) List.mem_cons_self
    rw [deepMerge, found, same, (Assoc.set_eq_self_iff base key value).mpr found]
    exact ih fun other later => present other (List.mem_cons_of_mem _ later)

theorem mergeValue_self {value : Json} (wellFormed : value.WellFormed) : mergeValue (some value) value = value := by
  induction wellFormed with
  | @dict entries distinct each ih =>
    rw [mergeValue_dict, deepMerge_of_present]
    exact fun entry member => ⟨Assoc.get?_of_mem distinct member, ih entry member⟩
  | _ => simp [mergeValue]

theorem deepMerge_self {config : JsonObject} (wellFormed : Value.WellFormed (.dict config : Json)) :
    deepMerge config config = config := by
  have same := mergeValue_self wellFormed
  rw [mergeValue_dict] at same
  exact Value.dict.inj same

/-- The files of a configuration: that of the root, which extends nothing, and
those of the configurations derived from it. -/
inductive ConfigEnvironment.Extends (env : ConfigEnvironment) : PurePath → JsonObject → List JsonObject → Prop
  | root {path payload} : env.readPayload path = .ok (payload, none) → Extends env path payload []
  | child {path payload extended root derived} :
      env.readPayload path = .ok (payload, some extended) →
      Extends env (env.resolveExtendedPath path extended) root derived → Extends env path root (derived ++ [payload])

/-- What is loaded is the merge of the files, from the root on. -/
theorem ConfigEnvironment.loadConfigData_mergeChain {env : ConfigEnvironment} {fuel : ℕ} {path : PurePath}
    {seen : List String} {data : JsonObject} (loaded : env.loadConfigData fuel path seen = some (.ok data)) :
    ∃ root derived, env.Extends path root derived ∧ data = mergeChain root derived := by
  induction fuel generalizing path seen data with
  | zero => cases loaded
  | succ fuel ih =>
    rw [loadConfigData] at loaded
    cases read : env.readPayload path with
    | error e => simp [read] at loaded
    | ok content =>
      obtain ⟨payload, extended⟩ := content
      cases extended with
      | none =>
        simp only [read, Option.some.injEq, Except.ok.injEq] at loaded
        exact ⟨payload, [], .root read, loaded.symm⟩
      | some extended =>
        simp only [read] at loaded
        split at loaded
        · cases loaded
        · cases parent : env.loadConfigData fuel (env.resolveExtendedPath path extended)
            ((env.resolveExtendedPath path extended).str :: seen) with
          | none => simp [parent] at loaded
          | some outcome =>
            cases outcome with
            | error e => simp [parent] at loaded
            | ok parentData =>
              simp only [parent, Option.some.injEq, Except.ok.injEq] at loaded
              obtain ⟨root, derived, files, merged⟩ := ih parent
              refine ⟨root, derived ++ [payload], .child read files, ?_⟩
              rw [← loaded, merged, mergeChain_concat]

end Centroid
