import Centroid.Simulation.TwinBuffer

namespace Centroid

/-- A hypothetical mutation of the twin. -/
structure Intervention where
  actionType : String
  targetField : String
  proposedValue : Value ℚ
  description : String

structure InterventionResult where
  forkId : String
  intervention : Intervention
  twinStateBefore : List (Key ℚ × Value ℚ)
  twinStateAfter : List (Key ℚ × Value ℚ)
  appliedAt : ℚ

/-- `s.split(".")`. -/
def splitDots (s : String) : List String := (s.toList.splitOn '.').map String.ofList

/-- The two complaints of the applicator, with what they quote. -/
inductive KeyPathError where
  | missing (targetField missingAt : String)
  | notADict (targetField part next : String)

def KeyPathError.message : KeyPathError → String
  | .missing targetField missingAt =>
    "Key path '" ++ targetField ++ "' not found in twin state. Missing at: '" ++ missingAt ++ "'"
  | .notADict targetField part next =>
    "Key path '" ++ targetField ++ "': '" ++ part ++ "' is not a dict, cannot descend into '" ++ next ++ "'"

/-- The walk of the applicator from a container: the keys already walked, the
key at hand and the keys after it. It assigns at the last key only. -/
def assignPath (targetField : String) (proposed : Value ℚ) :
    List (Key ℚ × Value ℚ) → List String → String → List String → Except KeyPathError (List (Key ℚ × Value ℚ))
  | container, walked, part, [] =>
    match Assoc.get? container (.str part) with
    | none => .error (.missing targetField (".".intercalate (walked ++ [part])))
    | some _ => .ok (Assoc.set container (.str part) proposed)
  | container, walked, part, next :: rest =>
    match Assoc.get? container (.str part) with
    | none => .error (.missing targetField (".".intercalate (walked ++ [part])))
    | some (.dict inner) =>
      match assignPath targetField proposed inner (walked ++ [part]) next rest with
      | .error e => .error e
      | .ok inner => .ok (Assoc.set container (.str part) (.dict inner))
    | some _ => .error (.notADict targetField part next)

/-- `InterventionApplicator.apply`: the twin afterwards and what the call
returns or raises. -/
def InterventionApplicator.apply (twin : TwinState) (intervention : Intervention) (now : ℚ) :
    TwinState × Except KeyPathError InterventionResult :=
  match splitDots intervention.targetField with
  | [] => (twin, .ok ⟨twin.forkId, intervention, twin.snapshot, twin.snapshot, now⟩)
  | part :: rest =>
    match assignPath intervention.targetField intervention.proposedValue twin.snapshot [] part rest with
    | .error e => (twin, .error e)
    | .ok after => ({ twin with snapshot := after }, .ok ⟨twin.forkId, intervention, twin.snapshot, after, now⟩)

/-- The value at a path of string keys through nested dictionaries. -/
def valueAt : List (Key ℚ × Value ℚ) → List String → Option (Value ℚ)
  | _, [] => none
  | container, [part] => Assoc.get? container (.str part)
  | container, part :: next :: rest =>
    match Assoc.get? container (.str part) with
    | some (.dict inner) => valueAt inner (next :: rest)
    | _ => none

theorem splitDots_ne_nil (s : String) : splitDots s ≠ [] := by
  simp [splitDots, List.splitOn_ne_nil]

section Assign

variable {container : List (Key ℚ × Value ℚ)} (targetField : String) (proposed : Value ℚ) (walked : List String)

theorem valueAt_cons {part next : String} {rest : List String} :
    valueAt container (part :: next :: rest) =
      ((Assoc.get? container (.str part)).bind Value.dict?).bind fun inner => valueAt inner (next :: rest) := by
  cases found : Assoc.get? container (.str part) with
  | none => simp [valueAt, found]
  | some v => cases v <;> simp [valueAt, found, Value.dict?]

/-- A path that exists is assigned, and nothing but its first key changes in
the container: to the proposed value, or to the changed inner dictionary. -/
theorem assignPath_of_valueAt {part : String} {rest : List String} {v : Value ℚ}
    (found : valueAt container (part :: rest) = some v) :
    ∃ new, assignPath targetField proposed container walked part rest =
        .ok (Assoc.set container (.str part) new) ∧
      (rest = [] ∧ new = proposed ∨
        rest ≠ [] ∧ (∃ inner, Assoc.get? container (.str part) = some (.dict inner)) ∧ ∃ inner, new = .dict inner) := by
  induction rest generalizing container walked part with
  | nil =>
    have here : Assoc.get? container (.str part) = some v := found
    exact ⟨proposed, by simp [assignPath, here], Or.inl ⟨rfl, rfl⟩⟩
  | cons next rest ih =>
    rw [valueAt_cons] at found
    obtain ⟨inner, here, below⟩ := Option.bind_eq_some_iff.mp found
    obtain ⟨value, atPart, isDict⟩ := Option.bind_eq_some_iff.mp here
    cases value <;> simp only [Value.dict?, reduceCtorEq, Option.some.injEq] at isDict
    subst isDict
    obtain ⟨new, assigned, _⟩ := ih (walked ++ [part]) below
    exact ⟨_, by simp only [assignPath, atPart, assigned]; rfl, Or.inr ⟨List.cons_ne_nil _ _, ⟨_, atPart⟩, _, rfl⟩⟩

theorem assignPath_of_valueAt_none {part : String} {rest : List String}
    (absent : valueAt container (part :: rest) = none) :
    ∃ e, assignPath targetField proposed container walked part rest = .error e := by
  induction rest generalizing container walked part with
  | nil =>
    have here : Assoc.get? container (.str part) = none := absent
    exact ⟨_, by simp only [assignPath, here]; rfl⟩
  | cons next rest ih =>
    cases here : Assoc.get? container (.str part) with
    | none => exact ⟨_, by simp only [assignPath, here]; rfl⟩
    | some value =>
      cases value with
      | dict inner =>
        rw [valueAt_cons, here] at absent
        obtain ⟨e, failed⟩ := ih (walked ++ [part]) absent
        exact ⟨e, by simp only [assignPath, here, failed]⟩
      | _ => exact ⟨_, by simp only [assignPath, here]; rfl⟩

end Assign

/-- The applicator mutates the twin exactly when the path exists. -/
theorem InterventionApplicator.apply_cases (twin : TwinState) (intervention : Intervention) (now : ℚ) :
    (∃ e, valueAt twin.snapshot (splitDots intervention.targetField) = none ∧
      InterventionApplicator.apply twin intervention now = (twin, .error e)) ∨
    ∃ v part rest new result, splitDots intervention.targetField = part :: rest ∧
      valueAt twin.snapshot (part :: rest) = some v ∧
      InterventionApplicator.apply twin intervention now =
        ({ twin with snapshot := Assoc.set twin.snapshot (.str part) new }, .ok result) ∧
      (rest = [] ∧ new = intervention.proposedValue ∨
        rest ≠ [] ∧ (∃ inner, Assoc.get? twin.snapshot (.str part) = some (.dict inner)) ∧
          ∃ inner, new = .dict inner) := by
  cases parts : splitDots intervention.targetField with
  | nil => exact absurd parts (splitDots_ne_nil _)
  | cons part rest =>
    cases found : valueAt twin.snapshot (part :: rest) with
    | none =>
      obtain ⟨e, failed⟩ := assignPath_of_valueAt_none intervention.targetField intervention.proposedValue
        [] found
      exact Or.inl ⟨e, rfl, by simp only [InterventionApplicator.apply, parts, failed]⟩
    | some v =>
      obtain ⟨new, assigned, change⟩ := assignPath_of_valueAt intervention.targetField
        intervention.proposedValue [] found
      exact Or.inr ⟨v, part, rest, new, _, rfl, found,
        by simp only [InterventionApplicator.apply, parts, assigned]; rfl, change⟩

end Centroid
