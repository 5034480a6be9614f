import Centroid.Config.ConfigLoader

namespace Centroid

/-- The value at a path of keys through nested objects. -/
def atPath : Json → List String → Option Json
  | json, [] => some json
  | .dict data, name :: rest => (JsonObject.get? data name).bind fun inner => atPath inner rest
  | _, _ :: _ => none

/-- Whether a value on the way of a path is there without being an object. -/
def blocksPath : Json → List String → Bool
  | _, [] => false
  | .dict data, name :: rest => ((JsonObject.get? data name).map fun inner => blocksPath inner rest).getD false
  | _, _ :: _ => true

@[simp]
theorem atPath_nil (json : Json) : atPath json [] = some json := by
  unfold atPath
  rfl

theorem atPath_dict (data : JsonObject) (name : String) (rest : List String) :
    atPath (.dict data) (name :: rest) = (data.get? name).bind fun inner => atPath inner rest := by
  rw [atPath]

theorem atPath_pair (data : JsonObject) (name : String) : atPath (.dict data) [name] = data.get? name := by
  rw [atPath_dict]
  cases data.get? name <;> simp

theorem mergeValue_dict (base override : JsonObject) :
    mergeValue (some (.dict base)) (.dict override) = .dict (deepMerge base override) := by
  rw [mergeValue]

/-- Where nothing is there, the value itself is stored. -/
theorem mergeValue_none (value : Json) : mergeValue none value = value := by
  cases value <;> simp [mergeValue]

/-- What a merged object holds under a key depends on what the two objects
hold under it. -/
theorem get?_deepMerge (base : JsonObject) {override : JsonObject} (distinct : (override.map Prod.fst).Nodup)
    (key : Key JsonNumber) :
    Assoc.get? (deepMerge base override) key =
      ((Assoc.get? override key).map fun value => mergeValue (Assoc.get? base key) value).or (Assoc.get? base key) := by
  induction override generalizing base with
  | nil => simp [deepMerge, Assoc.get?]
  | cons entry rest ih =>
    obtain ⟨k, value⟩ := entry
    obtain ⟨fresh, restDistinct⟩ := List.nodup_cons.mp distinct
    rw [deepMerge, ih _ restDistinct, Assoc.get?_set]
    by_cases here : k = key
    · subst here
      have absent : Assoc.get? rest k = none := (Assoc.get?_eq_none_iff rest k).mpr fresh
      simp [Assoc.get?, absent]
    · simp [Assoc.get?, here]

theorem atPath_cons (json : Json) (name : String) (rest : List String) :
    atPath json (name :: rest) = (atPath json [name]).bind fun inner => atPath inner rest := by
  cases json with
  | dict data => rw [atPath_pair, atPath_dict]
  | _ => simp [atPath]

/-- What a merged value holds under one name. -/
theorem atPath_mergeValue_name (base : Option Json) {overlay : JsonObject} (distinct : (overlay.map Prod.fst).Nodup)
    (name : String) :
    atPath (mergeValue base (.dict overlay)) [name] =
      ((overlay.get? name).map fun value => mergeValue (base.bind fun b => atPath b [name]) value).or
        (base.bind fun b => atPath b [name]) := by
  have alone : atPath (.dict overlay) [name] = ((overlay.get? name).map fun value => mergeValue none value).or none := by
    have same : (fun value => mergeValue none value) = id := funext mergeValue_none
    rw [atPath_pair, same, Option.map_id, id, Option.or_none]
  rcases base with _ | base
  · rw [mergeValue_none, alone, Option.bind_none]
  · cases base with
    | dict data =>
      rw [mergeValue_dict, Option.bind_some, atPath_pair, atPath_pair, JsonObject.get?, get?_deepMerge data distinct]
      rfl
    | _ => simpa [mergeValue, atPath] using alone

/-- The value of the override stays wherever it has one; elsewhere the base
shows through, unless the override has put something else in the way. -/
theorem atPath_mergeValue (base : Option Json) {override : Json} (wellFormed : override.WellFormed)
    (path : List String) :
    atPath (mergeValue base override) path =
      match atPath override path with
      | some value => some (mergeValue (base.bind fun b => atPath b path) value)
      | none => if blocksPath override path then none else base.bind fun b => atPath b path := by
  induction path generalizing base override with
  | nil => simp
  | cons name rest ih =>
    cases wellFormed with
    | @dict overlay distinct each =>
      have below : (base.bind fun b => atPath b (name :: rest)) =
          (base.bind fun b => atPath b [name]).bind fun inner => atPath inner rest := by
        rw [Option.bind_assoc]
        congr 1
        funext b
        exact atPath_cons b name rest
      rw [atPath_cons, atPath_mergeValue_name base distinct, below, atPath_dict, blocksPath]
      cases found : JsonObject.get? overlay name with
      | none => simp
      | some value =>
        have inside := each _ (Assoc.mem_of_get? found)
        simpa using ih _ inside
    | _ => simp [mergeValue, atPath, blocksPath]

end Centroid
