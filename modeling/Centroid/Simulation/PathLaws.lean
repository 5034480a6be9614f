import Centroid.Lib.ValuePath
import Centroid.Simulation.Intervention

namespace Centroid

/-- The keys that the target of an intervention names, one below the other. -/
def Intervention.path (i : Intervention) : List (Key ℚ) := (splitDots i.targetField).map .str

/-- The snapshot with the intervention in it, where its path leads to something. -/
def Intervention.assigned (i : Intervention) (snapshot : List (Key ℚ × Value ℚ)) : List (Key ℚ × Value ℚ) :=
  ((Value.assign i.proposedValue i.path (.dict snapshot)).bind Value.dict?).getD snapshot

/-- The walk of the applicator assigns a path as a whole. -/
theorem assignPath_eq_assign (targetField : String) (proposed : Value ℚ) (container : List (Key ℚ × Value ℚ))
    (walked : List String) (part : String) (rest : List String) :
    (assignPath targetField proposed container walked part rest).toOption.map Value.dict =
      Value.assign proposed ((part :: rest).map .str) (.dict container) := by
  induction rest generalizing container walked part with
  | nil =>
    rw [List.map_singleton, Value.assign_dict_cons]
    cases found : Assoc.get? container (.str part) with
    | none =>
      rw [assignPath, found]
      rfl
    | some old =>
      rw [assignPath, found]
      rfl
  | cons next rest ih =>
    rw [List.map_cons, Value.assign_dict_cons]
    cases found : Assoc.get? container (.str part) with
    | none =>
      rw [assignPath, found]
      rfl
    | some old =>
      rw [Option.bind_some]
      cases old with
      | dict inner =>
        rw [assignPath, found, ← ih inner (walked ++ [part]) next]
        dsimp only
        cases assignPath targetField proposed inner (walked ++ [part]) next rest with
        | error e => rfl
        | ok changed => rfl
      | _ =>
        rw [assignPath, found]
        rfl

namespace InterventionApplicator

/-- What a call does, by whether its path can be assigned. -/
theorem apply_spec (twin : TwinState) (i : Intervention) (now : ℚ) :
    (Value.assign i.proposedValue i.path (.dict twin.snapshot) = none ∧ ∃ e, apply twin i now = (twin, .error e)) ∨
      ∃ after, Value.assign i.proposedValue i.path (.dict twin.snapshot) = some (.dict after) ∧
        apply twin i now = ({ twin with snapshot := after }, .ok ⟨twin.forkId, i, twin.snapshot, after, now⟩) := by
  cases parts : splitDots i.targetField with
  | nil => exact absurd parts (splitDots_ne_nil _)
  | cons part rest =>
    have walk := assignPath_eq_assign i.targetField i.proposedValue twin.snapshot [] part rest
    rw [Intervention.path, parts, ← walk, apply, parts]
    dsimp only
    cases assignPath i.targetField i.proposedValue twin.snapshot [] part rest with
    | error e => exact .inl ⟨rfl, e, rfl⟩
    | ok after => exact .inr ⟨after, rfl, rfl⟩

theorem apply_state (twin : TwinState) (i : Intervention) (now : ℚ) :
    (apply twin i now).1 = { twin with snapshot := i.assigned twin.snapshot } := by
  rcases apply_spec twin i now with ⟨failed, e, same⟩ | ⟨after, assigned, same⟩
  · rw [same, Intervention.assigned, failed]
    rfl
  · rw [same, Intervention.assigned, assigned]
    rfl

/-- A call succeeds where something stands at its path. -/
theorem apply_ok_iff (twin : TwinState) (i : Intervention) (now : ℚ) :
    (∃ result, (apply twin i now).2 = .ok result) ↔ (Value.lookup i.path (.dict twin.snapshot)).isSome := by
  rw [← Value.isSome_assign i.proposedValue]
  rcases apply_spec twin i now with ⟨failed, e, same⟩ | ⟨after, assigned, same⟩
  · rw [same, failed]
    constructor
    · rintro ⟨_, returned⟩
      cases returned
    · intro found
      cases found
  · rw [same, assigned]
    exact ⟨fun _ => rfl, fun _ => ⟨_, rfl⟩⟩

end InterventionApplicator

namespace Intervention

theorem assigned_of_none {i : Intervention} {snapshot : List (Key ℚ × Value ℚ)}
    (failed : Value.assign i.proposedValue i.path (.dict snapshot) = none) : i.assigned snapshot = snapshot := by
  rw [assigned, failed]
  rfl

theorem assigned_of_some {i : Intervention} {snapshot after : List (Key ℚ × Value ℚ)}
    (assigned : Value.assign i.proposedValue i.path (.dict snapshot) = some (.dict after)) :
    i.assigned snapshot = after := by
  rw [Intervention.assigned, assigned]
  rfl

theorem assign_cases (i : Intervention) (snapshot : List (Key ℚ × Value ℚ)) :
    Value.assign i.proposedValue i.path (.dict snapshot) = none ∨
      Value.assign i.proposedValue i.path (.dict snapshot) = some (.dict (i.assigned snapshot)) := by
  rcases InterventionApplicator.apply_spec ⟨snapshot, 0, "", 0⟩ i 0 with ⟨failed, -⟩ | ⟨after, assigned, -⟩
  · exact .inl failed
  · exact .inr (assigned.trans (by rw [assigned_of_some assigned]))

/-- Of two interventions at one path the second counts. -/
theorem assigned_again {i again : Intervention} (samePath : again.path = i.path) (snapshot : List (Key ℚ × Value ℚ)) :
    again.assigned (i.assigned snapshot) = again.assigned snapshot := by
  rcases i.assign_cases snapshot with failed | first
  · rw [assigned_of_none failed]
  · have second : Value.assign again.proposedValue i.path (.dict (i.assigned snapshot)) =
        Value.assign again.proposedValue i.path (.dict snapshot) := Value.assign_assign first
    have present : (Value.assign again.proposedValue i.path (.dict snapshot)).isSome := by
      rw [Value.isSome_assign, ← Value.isSome_assign i.proposedValue, first]
      rfl
    rcases again.assign_cases snapshot with failed | changed
    · rw [samePath] at failed
      rw [failed] at present
      cases present
    · refine assigned_of_some ?_
      rw [samePath] at changed ⊢
      exact second.trans changed

/-- Neither of two paths leads to the other. -/
def Apart (i other : Intervention) : Prop := ¬ other.path <+: i.path ∧ ¬ i.path <+: other.path

theorem Apart.symm {i other : Intervention} (apart : i.Apart other) : other.Apart i := And.symm apart

/-- An intervention apart does not make a path, nor take it away. -/
theorem Apart.isSome_lookup {i other : Intervention} (apart : i.Apart other) (snapshot : List (Key ℚ × Value ℚ)) :
    (Value.lookup other.path (.dict (i.assigned snapshot))).isSome =
      (Value.lookup other.path (.dict snapshot)).isSome := by
  rcases i.assign_cases snapshot with failed | first
  · rw [assigned_of_none failed]
  · rw [Value.lookup_assign_of_apart first apart.1 apart.2]

theorem Apart.assign_eq_none {i other : Intervention} (apart : i.Apart other) {snapshot : List (Key ℚ × Value ℚ)}
    (failed : Value.assign other.proposedValue other.path (.dict snapshot) = none) :
    Value.assign other.proposedValue other.path (.dict (i.assigned snapshot)) = none := by
  have same := apart.isSome_lookup snapshot
  rw [← Value.isSome_assign other.proposedValue, ← Value.isSome_assign other.proposedValue, failed] at same
  exact Option.not_isSome_iff_eq_none.mp (by rw [same]; decide)

/-- Interventions at paths that do not lead to each other can be exchanged. -/
theorem Apart.assigned_comm {i other : Intervention} (apart : i.Apart other) (snapshot : List (Key ℚ × Value ℚ)) :
    other.assigned (i.assigned snapshot) = i.assigned (other.assigned snapshot) := by
  rcases i.assign_cases snapshot with failed | first
  · rw [assigned_of_none failed, assigned_of_none (apart.symm.assign_eq_none failed)]
  · rcases other.assign_cases snapshot with failed | second
    · rw [assigned_of_none failed, assigned_of_none (apart.assign_eq_none failed)]
    · have exchanged : Value.assign other.proposedValue other.path (.dict (i.assigned snapshot)) =
          Value.assign i.proposedValue i.path (.dict (other.assigned snapshot)) := by
        rw [Value.assign_comm first apart.1 apart.2, second, Option.bind_some]
      rcases i.assign_cases (other.assigned snapshot) with failed | last
      · have same := apart.symm.isSome_lookup snapshot
        rw [← Value.isSome_assign i.proposedValue, ← Value.isSome_assign i.proposedValue, failed, first] at same
        cases same
      · exact assigned_of_some (exchanged.trans last)

end Intervention

namespace InterventionApplicator

/-- An intervention is made exactly where dictionaries lead to its last key. It
changes what its path leads to and nothing apart from that, and a call that
raises changes nothing. Of two calls at one path the second counts, and calls
apart can be exchanged. -/
theorem apply_path_laws (twin : TwinState) (i : Intervention) (now : ℚ) :
    let after := (apply twin i now).1
    ((∃ result, (apply twin i now).2 = .ok result) ↔ ∀ before key, before ++ [key] <+: i.path →
        ∃ entries, Value.lookup before (.dict twin.snapshot) = some (.dict entries) ∧
          (before ++ [key] = i.path → key ∈ entries.map Prod.fst)) ∧
      (∀ result, (apply twin i now).2 = .ok result →
        after = { twin with snapshot := after.snapshot } ∧
          result = ⟨twin.forkId, i, twin.snapshot, after.snapshot, now⟩ ∧
          Value.lookup i.path (.dict after.snapshot) = some i.proposedValue ∧
          ∀ path, ¬ path <+: i.path → ¬ i.path <+: path →
            Value.lookup path (.dict after.snapshot) = Value.lookup path (.dict twin.snapshot)) ∧
      (∀ e, (apply twin i now).2 = .error e → after = twin) ∧
      (∀ again later, again.targetField = i.targetField → (apply after again later).1 = (apply twin again later).1) ∧
      ∀ other later, ¬ other.path <+: i.path → ¬ i.path <+: other.path →
        (apply after other later).1 = (apply (apply twin other later).1 i now).1 ∧
          ((∃ result, (apply after other later).2 = .ok result) ↔ ∃ result, (apply twin other later).2 = .ok result) := by
  refine ⟨(apply_ok_iff twin i now).trans (Value.isSome_lookup_iff _ _), ?_, ?_, ?_, ?_⟩
  · intro result returned
    rcases apply_spec twin i now with ⟨-, e, same⟩ | ⟨after, assigned, same⟩
    · rw [same] at returned
      cases returned
    · rw [same] at returned ⊢
      cases returned
      exact ⟨rfl, rfl, Value.lookup_assign_self assigned,
        fun path notBefore notBehind => Value.lookup_assign_of_apart assigned notBefore notBehind⟩
  · intro e raised
    rcases apply_spec twin i now with ⟨-, _, same⟩ | ⟨after, -, same⟩
    · rw [same]
    · rw [same] at raised
      cases raised
  · intro again later sameTarget
    have samePath : again.path = i.path := by rw [Intervention.path, sameTarget, Intervention.path]
    simp only [apply_state, Intervention.assigned_again samePath]
  · intro other later notBefore notBehind
    have apart : i.Apart other := ⟨notBefore, notBehind⟩
    simp only [apply_ok_iff, apply_state, apart.assigned_comm, apart.isSome_lookup, and_self]

end InterventionApplicator

end Centroid
