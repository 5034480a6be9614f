import Centroid.Lib.Value

namespace Value

variable {N : Type} [DecidableEq N]

/-- What stands at a path of keys. -/
def lookup : List (Key N) → Value N → Option (Value N)
  | [], v => some v
  | key :: path, v => v.dict?.bind fun entries => (Assoc.get? entries key).bind (lookup path)

/-- A value in the place of what stands at a path. -/
def assign (new : Value N) : List (Key N) → Value N → Option (Value N)
  | [], _ => some new
  | key :: path, v => v.dict?.bind fun entries => (Assoc.get? entries key).bind fun old =>
      (assign new path old).map fun inner => .dict (Assoc.set entries key inner)

omit [DecidableEq N] in
theorem dict?_eq_some_iff {v : Value N} {entries : List (Key N × Value N)} :
    v.dict? = some entries ↔ v = .dict entries := by
  cases v <;> simp [dict?]

theorem lookup_dict_cons (entries : List (Key N × Value N)) (key : Key N) (path : List (Key N)) :
    lookup (key :: path) (.dict entries) = (Assoc.get? entries key).bind (lookup path) := rfl

theorem assign_dict_cons (new : Value N) (entries : List (Key N × Value N)) (key : Key N) (path : List (Key N)) :
    assign new (key :: path) (.dict entries) = (Assoc.get? entries key).bind fun old =>
      (assign new path old).map fun inner => .dict (Assoc.set entries key inner) := rfl

/-- What an assignment below the first key of a path can do. -/
theorem assign_cons_eq_some_iff {new v w : Value N} {key : Key N} {path : List (Key N)} :
    assign new (key :: path) v = some w ↔
      ∃ entries old inner, v = .dict entries ∧ Assoc.get? entries key = some old ∧ assign new path old = some inner ∧
        w = .dict (Assoc.set entries key inner) := by
  rw [assign, Option.bind_eq_some_iff]
  constructor
  · rintro ⟨entries, isDict, below⟩
    obtain ⟨old, found, below⟩ := Option.bind_eq_some_iff.mp below
    obtain ⟨inner, assigned, rfl⟩ := Option.map_eq_some_iff.mp below
    exact ⟨entries, old, inner, dict?_eq_some_iff.mp isDict, found, assigned, rfl⟩
  · rintro ⟨entries, old, inner, rfl, found, assigned, rfl⟩
    exact ⟨entries, rfl, Option.bind_eq_some_iff.mpr ⟨old, found, Option.map_eq_some_iff.mpr ⟨inner, assigned, rfl⟩⟩⟩

/-- A path can be assigned where something stands at it. -/
theorem isSome_assign (new : Value N) (path : List (Key N)) (v : Value N) :
    (assign new path v).isSome = (lookup path v).isSome := by
  induction path generalizing v with
  | nil => rfl
  | cons key path ih =>
    rw [assign, lookup]
    cases v.dict? with
    | none => rfl
    | some entries =>
      rw [Option.bind_some, Option.bind_some]
      cases Assoc.get? entries key with
      | none => rfl
      | some old => rw [Option.bind_some, Option.bind_some, Option.isSome_map, ih]

theorem isSome_lookup_concat_iff (path : List (Key N)) (key : Key N) (v : Value N) :
    (lookup (path ++ [key]) v).isSome ↔
      ∃ entries, lookup path v = some (.dict entries) ∧ key ∈ entries.map Prod.fst := by
  induction path generalizing v with
  | nil =>
    rw [List.nil_append, lookup, lookup]
    constructor
    · intro found
      cases v with
      | dict entries =>
        cases stored : Assoc.get? entries key with
        | none => simp [dict?, stored] at found
        | some old => exact ⟨entries, rfl, (Assoc.mem_keys_iff _ _).mpr ⟨old, stored⟩⟩
      | _ => simp [dict?] at found
    · rintro ⟨entries, same, present⟩
      cases same
      obtain ⟨old, stored⟩ := (Assoc.mem_keys_iff _ _).mp present
      simp [dict?, stored, lookup]
  | cons first path ih =>
    rw [List.cons_append, lookup, lookup]
    cases v.dict? with
    | none => simp
    | some entries =>
      rw [Option.bind_some, Option.bind_some]
      cases Assoc.get? entries first with
      | none => simp
      | some old =>
        rw [Option.bind_some, Option.bind_some]
        exact ih old

/-- Something stands at a path exactly where dictionaries lead to its last key,
and the last of them has it. -/
theorem isSome_lookup_iff (path : List (Key N)) (v : Value N) :
    (lookup path v).isSome ↔ ∀ before key, before ++ [key] <+: path →
      ∃ entries, lookup before v = some (.dict entries) ∧ (before ++ [key] = path → key ∈ entries.map Prod.fst) := by
  induction path using List.reverseRecOn with
  | nil =>
    refine ⟨fun _ before key leads => ?_, fun _ => rfl⟩
    have none := List.prefix_nil.mp leads
    simp at none
  | append_singleton path last ih =>
    rw [isSome_lookup_concat_iff]
    constructor
    · rintro ⟨entries, leads, present⟩ before key prefixed
      rcases List.prefix_concat_iff.mp prefixed with same | shorter
      · obtain ⟨rfl, rfl⟩ := List.append_inj' same rfl |>.imp_right List.singleton_inj.mp
        exact ⟨entries, leads, fun _ => present⟩
      · obtain ⟨outer, found, -⟩ := ih.mp (by rw [leads]; rfl) before key shorter
        refine ⟨outer, found, fun same => ?_⟩
        rw [same] at shorter
        have longer := shorter.length_le
        simp at longer
    · intro each
      obtain ⟨entries, leads, present⟩ := each path last (List.prefix_refl _)
      exact ⟨entries, leads, present rfl⟩

theorem lookup_assign_self {new v w : Value N} {path : List (Key N)} (assigned : assign new path v = some w) :
    lookup path w = some new := by
  induction path generalizing v w with
  | nil => exact assigned.symm
  | cons key path ih =>
    obtain ⟨entries, old, inner, rfl, found, below, rfl⟩ := assign_cons_eq_some_iff.mp assigned
    rw [lookup_dict_cons, Assoc.get?_set, if_pos rfl]
    exact ih below

/-- An assignment is not seen at a path that neither leads to the assigned one nor
goes on from it. -/
theorem lookup_assign_of_apart {new v w : Value N} {path other : List (Key N)} (assigned : assign new path v = some w)
    (notBefore : ¬ other <+: path) (notBehind : ¬ path <+: other) : lookup other w = lookup other v := by
  induction path generalizing v w other with
  | nil => exact absurd (List.nil_prefix) notBehind
  | cons key path ih =>
    obtain ⟨entries, old, inner, rfl, found, below, rfl⟩ := assign_cons_eq_some_iff.mp assigned
    cases other with
    | nil => exact absurd (List.nil_prefix) notBefore
    | cons first other =>
      rw [lookup_dict_cons, lookup_dict_cons, Assoc.get?_set]
      by_cases same : key = first
      · subst same
        rw [List.cons_prefix_cons] at notBefore notBehind
        rw [if_pos rfl, found]
        exact ih below (fun leads => notBefore ⟨rfl, leads⟩) (fun leads => notBehind ⟨rfl, leads⟩)
      · rw [if_neg same]

/-- Of two assignments to one path the second counts. -/
theorem assign_assign {first new v w : Value N} {path : List (Key N)} (assigned : assign first path v = some w) :
    assign new path w = assign new path v := by
  induction path generalizing v w with
  | nil => rfl
  | cons key path ih =>
    obtain ⟨entries, old, inner, rfl, found, below, rfl⟩ := assign_cons_eq_some_iff.mp assigned
    simp only [assign_dict_cons, Assoc.get?_set, if_true, found, Option.bind_some, ih below, Assoc.set_set]

/-- Assignments to paths of which none leads to the other can be exchanged. -/
theorem assign_comm {first second v w : Value N} {path other : List (Key N)} (assigned : assign first path v = some w)
    (notBefore : ¬ other <+: path) (notBehind : ¬ path <+: other) :
    assign second other w = (assign second other v).bind (assign first path) := by
  induction path generalizing v w other with
  | nil => exact absurd (List.nil_prefix) notBehind
  | cons key path ih =>
    obtain ⟨entries, old, inner, rfl, found, below, rfl⟩ := assign_cons_eq_some_iff.mp assigned
    cases other with
    | nil => exact absurd (List.nil_prefix) notBefore
    | cons head other =>
      by_cases same : key = head
      · subst same
        rw [List.cons_prefix_cons] at notBefore notBehind
        have inside := ih below (fun leads => notBefore ⟨rfl, leads⟩) (fun leads => notBehind ⟨rfl, leads⟩)
        simp only [assign_dict_cons, Assoc.get?_set, if_true, found, Option.bind_some, inside, Assoc.set_set]
        cases assign second other old with
        | none => rfl
        | some changed =>
          rw [Option.bind_some, Option.map_some, Option.bind_some, assign_dict_cons, Assoc.get?_set, if_pos rfl,
            Option.bind_some]
          simp only [Assoc.set_set]
      · simp only [assign_dict_cons, Assoc.get?_set, if_neg same]
        cases there : Assoc.get? entries head with
        | none => rfl
        | some target =>
          rw [Option.bind_some, Option.bind_some]
          cases assign second other target with
          | none => rfl
          | some changed =>
            have present : key ∈ entries.map Prod.fst := (Assoc.mem_keys_iff _ _).mpr ⟨old, found⟩
            have otherPresent : head ∈ entries.map Prod.fst := (Assoc.mem_keys_iff _ _).mpr ⟨target, there⟩
            rw [Option.map_some, Option.map_some, Option.bind_some, assign_dict_cons, Assoc.get?_set,
              if_neg (Ne.symm same), found, Option.bind_some, below, Option.map_some,
              Assoc.set_comm same present otherPresent]

end Value
