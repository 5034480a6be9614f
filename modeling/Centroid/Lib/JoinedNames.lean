import Mathlib.Data.List.Basic

namespace JoinedNames

variable {α : Type} (sep : α)

/-- What is left of some names without the empty ones that they begin with. -/
def trimmed (names : List (List α)) : List (List α) := names.dropWhile List.isEmpty

/-- Some names with a separator between them, after the trimming. -/
def joined (names : List (List α)) : List α := [sep].intercalate (trimmed names)

theorem head_ne_nil_of_trimmed {names rest : List (List α)} {first : List α} (trim : trimmed names = first :: rest) :
    first ≠ [] := by
  induction names with
  | nil => cases trim
  | cons name names ih =>
    rw [trimmed, List.dropWhile_cons] at trim
    split at trim
    · exact ih trim
    · rename_i filled
      cases trim
      simpa using filled

theorem trimmed_concat (names : List (List α)) (name : List α) :
    trimmed (names ++ [name]) =
      if trimmed names = [] then (if name = [] then [] else [name]) else trimmed names ++ [name] := by
  induction names with
  | nil => cases name <;> rfl
  | cons first names ih =>
    rw [trimmed, List.cons_append, List.dropWhile_cons, trimmed, List.dropWhile_cons]
    split
    · exact ih
    · rw [if_neg (List.cons_ne_nil _ _), List.cons_append]

theorem intercalate_concat {names : List (List α)} (some : names ≠ []) (name : List α) :
    [sep].intercalate (names ++ [name]) = [sep].intercalate names ++ sep :: name := by
  induction names with
  | nil => exact absurd rfl some
  | cons first names ih =>
    cases names with
    | nil => simp [List.intercalate_cons_cons]
    | cons second names =>
      have later := ih (List.cons_ne_nil _ _)
      rw [List.cons_append, List.intercalate_cons_of_ne_nil (by simp), later,
        List.intercalate_cons_of_ne_nil (List.cons_ne_nil _ _)]
      simp

theorem joined_eq_nil_iff (names : List (List α)) : joined sep names = [] ↔ trimmed names = [] := by
  rw [joined]
  cases trim : trimmed names with
  | nil => simp
  | cons first rest =>
    have filled := head_ne_nil_of_trimmed trim
    cases rest with
    | nil => simpa using filled
    | cons second rest => simp [List.intercalate_cons_cons]

/-- One more name comes after a separator, unless nothing stands before it. -/
theorem joined_concat (names : List (List α)) (name : List α) :
    joined sep (names ++ [name]) = if joined sep names = [] then name else joined sep names ++ sep :: name := by
  by_cases none : trimmed names = []
  · rw [if_pos ((joined_eq_nil_iff sep names).mpr none), joined, trimmed_concat, if_pos none]
    cases name <;> simp
  · rw [if_neg ((joined_eq_nil_iff sep names).not.mpr none), joined, trimmed_concat, if_neg none,
      intercalate_concat sep none]
    rfl

variable [DecidableEq α]

/-- The pieces between the separators of all the names, after the trimming. -/
def parts (names : List (List α)) : List (List α) := (trimmed names).flatMap (List.splitOn sep)

theorem splitOn_intercalate {names : List (List α)} (some : names ≠ []) :
    ([sep].intercalate names).splitOn sep = names.flatMap (List.splitOn sep) := by
  induction names with
  | nil => exact absurd rfl some
  | cons first names ih =>
    cases names with
    | nil => simp
    | cons second names =>
      rw [List.intercalate_cons_of_ne_nil (List.cons_ne_nil _ _), List.append_assoc, List.singleton_append,
        List.splitOn_append_cons_self, ih (List.cons_ne_nil _ _)]
      rfl

theorem parts_eq (names : List (List α)) :
    parts sep names = if joined sep names = [] then [] else (joined sep names).splitOn sep := by
  by_cases none : trimmed names = []
  · rw [if_pos ((joined_eq_nil_iff sep names).mpr none), parts, none, List.flatMap_nil]
  · rw [if_neg ((joined_eq_nil_iff sep names).not.mpr none), parts, joined, splitOn_intercalate sep none]

/-- Joined names are the same just when the parts are. -/
theorem joined_eq_iff (names names' : List (List α)) :
    joined sep names = joined sep names' ↔ parts sep names = parts sep names' := by
  constructor
  · intro same
    rw [parts_eq, parts_eq, same]
  · intro same
    rw [parts_eq, parts_eq] at same
    split at same
    · rename_i none
      split at same
      · rename_i none'
        rw [none, none']
      · exact absurd same.symm (List.splitOn_ne_nil _ _)
    · split at same
      · exact absurd same (List.splitOn_ne_nil _ _)
      · have back : [sep].intercalate ((joined sep names).splitOn sep) = joined sep names := List.intercalate_splitOn sep
        rw [← back, same, List.intercalate_splitOn]

theorem flatMap_splitOn {names : List (List α)} (whole : ∀ name ∈ names, sep ∉ name) :
    names.flatMap (List.splitOn sep) = names := by
  induction names with
  | nil => rfl
  | cons first names ih =>
    rw [List.flatMap_cons, List.splitOn_eq_singleton (whole first List.mem_cons_self),
      ih fun name member => whole name (List.mem_cons_of_mem first member), List.singleton_append]

/-- Names that are not empty and have no separator are their own parts. -/
theorem parts_eq_self {names : List (List α)} (plain : ∀ name ∈ names, name ≠ [] ∧ sep ∉ name) :
    parts sep names = names := by
  have untrimmed : trimmed names = names := by
    cases names with
    | nil => rfl
    | cons first names =>
      have filled := (plain first List.mem_cons_self).1
      rw [trimmed, List.dropWhile_cons_of_neg (by simpa using filled)]
  rw [parts, untrimmed, flatMap_splitOn sep fun name member => (plain name member).2]

omit [DecidableEq α] in
/-- What stands on the two sides of the first separator. -/
theorem first_sep_inj {before before' after after' : List α} (plain : sep ∉ before) (plain' : sep ∉ before')
    (same : before ++ sep :: after = before' ++ sep :: after') : before = before' ∧ after = after' := by
  induction before generalizing before' with
  | nil =>
    cases before' with
    | nil => exact ⟨rfl, (List.cons.inj same).2⟩
    | cons c before' => exact absurd ((List.cons.inj same).1 ▸ List.mem_cons_self) plain'
  | cons c before ih =>
    cases before' with
    | nil => exact absurd ((List.cons.inj same).1 ▸ List.mem_cons_self) plain
    | cons c' before' =>
      obtain ⟨head, tail⟩ := List.cons.inj same
      obtain ⟨befores, afters⟩ := ih (fun member => plain (List.mem_cons_of_mem _ member))
        (fun member => plain' (List.mem_cons_of_mem _ member)) tail
      exact ⟨by rw [head, befores], afters⟩

omit [DecidableEq α] in
/-- What stands on the two sides of the last separator. -/
theorem last_sep_inj {before before' after after' : List α} (plain : sep ∉ after) (plain' : sep ∉ after')
    (same : before ++ sep :: after = before' ++ sep :: after') : before = before' ∧ after = after' := by
  have mirrored := congrArg List.reverse same
  rw [List.reverse_append, List.reverse_append, List.reverse_cons, List.reverse_cons, List.append_assoc,
    List.append_assoc, List.singleton_append, List.singleton_append] at mirrored
  obtain ⟨afters, befores⟩ := first_sep_inj sep (mt List.mem_reverse.mp plain) (mt List.mem_reverse.mp plain') mirrored
  exact ⟨List.reverse_injective befores, List.reverse_injective afters⟩

omit [DecidableEq α] in
/-- A separator of two elements is a separator of one, with the other in front of
every name but the first. -/
theorem intercalate_gap (gap : α) (first : List α) (rest : List (List α)) :
    [sep, gap].intercalate (first :: rest) = [sep].intercalate (first :: rest.map (List.cons gap)) := by
  induction rest generalizing first with
  | nil => simp
  | cons second rest ih =>
    rw [List.map_cons, List.intercalate_cons_cons, List.intercalate_cons_cons, ih, List.append_assoc, List.append_assoc]
    congr 1
    cases rest <;> simp [List.intercalate_cons_cons]

/-- Names without the separator are read back from what is joined. -/
theorem intercalate_gap_inj {gap : α} (apart : gap ≠ sep) {first first' : List α} {rest rest' : List (List α)}
    (plain : ∀ name ∈ first :: rest, sep ∉ name) (plain' : ∀ name ∈ first' :: rest', sep ∉ name)
    (same : [sep, gap].intercalate (first :: rest) = [sep, gap].intercalate (first' :: rest')) :
    first = first' ∧ rest = rest' := by
  have spaced {first : List α} {rest : List (List α)} (plain : ∀ name ∈ first :: rest, sep ∉ name) :
      ∀ name ∈ first :: rest.map (List.cons gap), sep ∉ name := by
    intro name member
    rcases List.mem_cons.mp member with rfl | later
    · exact plain _ List.mem_cons_self
    · obtain ⟨old, listed, rfl⟩ := List.mem_map.mp later
      rw [List.mem_cons, not_or]
      exact ⟨apart.symm, plain old (List.mem_cons_of_mem _ listed)⟩
  rw [intercalate_gap, intercalate_gap] at same
  have split := congrArg (List.splitOn sep) same
  rw [splitOn_intercalate sep (List.cons_ne_nil _ _), splitOn_intercalate sep (List.cons_ne_nil _ _),
    flatMap_splitOn sep (spaced plain), flatMap_splitOn sep (spaced plain')] at split
  obtain ⟨heads, tails⟩ := List.cons.inj split
  exact ⟨heads, List.map_injective_iff.mpr (List.cons_injective) tails⟩

end JoinedNames
