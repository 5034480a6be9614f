import Mathlib.Data.List.Induction
import Mathlib.Data.List.Nodup
import Mathlib.Data.List.Perm.Basic
import Mathlib.Logic.Function.Basic

universe u v w

namespace Assoc

variable {κ : Type u} {α : Type v} [DecidableEq κ]

/-- The value stored under a key. -/
def get? : List (κ × α) → κ → Option α
  | [], _ => none
  | (k, a) :: rest, key => if k = key then some a else get? rest key

/-- Assignment keeps the position of a key already present and puts a new
key at the end. -/
def set : List (κ × α) → κ → α → List (κ × α)
  | [], key, value => [(key, value)]
  | (k, a) :: rest, key, value => if k = key then (k, value) :: rest else (k, a) :: set rest key value

def erase (entries : List (κ × α)) (key : κ) : List (κ × α) :=
  entries.filter (fun entry => entry.1 ≠ key)

theorem get?_set (entries : List (κ × α)) (key other : κ) (value : α) :
    get? (set entries key value) other = if key = other then some value else get? entries other := by
  induction entries with
  | nil => simp [set, get?]
  | cons entry rest ih =>
    obtain ⟨k, a⟩ := entry
    by_cases here : k = key
    · subst here
      simp only [set, if_true, get?]
      split <;> rfl
    · simp only [set, here, if_false, get?, ih]
      by_cases there : k = other
      · subst there
        simp [Ne.symm here]
      · simp [there]

theorem keys_set (entries : List (κ × α)) (key : κ) (value : α) :
    (set entries key value).map Prod.fst =
      if key ∈ entries.map Prod.fst then entries.map Prod.fst else entries.map Prod.fst ++ [key] := by
  induction entries with
  | nil => simp [set]
  | cons entry rest ih =>
    obtain ⟨k, a⟩ := entry
    by_cases here : k = key
    · simp [set, here]
    · simp only [set, here, if_false, List.map_cons, ih, List.mem_cons, Ne.symm here, false_or]
      split <;> simp

theorem get?_erase (entries : List (κ × α)) (key other : κ) :
    get? (erase entries key) other = if key = other then none else get? entries other := by
  induction entries with
  | nil => simp [erase, get?]
  | cons entry rest ih =>
    obtain ⟨k, a⟩ := entry
    unfold erase at ih
    by_cases here : k = key
    · subst here
      simp only [erase, List.filter_cons, ne_eq, not_true_eq_false, decide_false, Bool.false_eq_true,
        if_false, ih, get?]
      split <;> rfl
    · simp only [erase, List.filter_cons, ne_eq, here, not_false_eq_true, decide_true, if_true, get?, ih]
      by_cases there : k = other
      · subst there
        simp [Ne.symm here]
      · simp [there]

theorem mem_keys_iff (entries : List (κ × α)) (key : κ) :
    key ∈ entries.map Prod.fst ↔ ∃ value, get? entries key = some value := by
  induction entries with
  | nil => simp [get?]
  | cons entry rest ih =>
    obtain ⟨k, a⟩ := entry
    by_cases here : k = key
    · simp [get?, here]
    · simp only [List.map_cons, List.mem_cons, Ne.symm here, false_or, ih, get?, here, if_false]

theorem get?_eq_none_iff (entries : List (κ × α)) (key : κ) :
    get? entries key = none ↔ key ∉ entries.map Prod.fst := by
  rw [mem_keys_iff, Option.eq_none_iff_forall_ne_some]
  simp

theorem mem_of_get? {entries : List (κ × α)} {key : κ} {value : α}
    (found : get? entries key = some value) : (key, value) ∈ entries := by
  induction entries with
  | nil => simp [get?] at found
  | cons entry rest ih =>
    obtain ⟨k, a⟩ := entry
    by_cases here : k = key
    · simp only [get?, here, if_true, Option.some.injEq] at found
      simp [here, found]
    · simp only [get?, here, if_false] at found
      exact List.mem_cons_of_mem _ (ih found)

theorem get?_of_mem {entries : List (κ × α)} (distinct : (entries.map Prod.fst).Nodup)
    {key : κ} {value : α} (member : (key, value) ∈ entries) : get? entries key = some value := by
  induction entries with
  | nil => simp at member
  | cons entry rest ih =>
    obtain ⟨k, a⟩ := entry
    obtain ⟨fresh, restDistinct⟩ := List.nodup_cons.mp distinct
    rcases List.mem_cons.mp member with same | later
    · cases same
      simp [get?]
    · have other : k ≠ key := by
        intro same
        exact fresh (List.mem_map.mpr ⟨(key, value), later, same.symm⟩)
      simp [get?, other, ih restDistinct later]

theorem set_set (entries : List (κ × α)) (key : κ) (first value : α) :
    set (set entries key first) key value = set entries key value := by
  induction entries with
  | nil => simp [set]
  | cons entry rest ih =>
    obtain ⟨k, a⟩ := entry
    by_cases here : k = key
    · simp [set, here]
    · simp [set, here, ih]

/-- Assignments to two keys that are present can be exchanged. -/
theorem set_comm {entries : List (κ × α)} {key other : κ} (ne : key ≠ other) (present : key ∈ entries.map Prod.fst)
    (otherPresent : other ∈ entries.map Prod.fst) (value otherValue : α) :
    set (set entries key value) other otherValue = set (set entries other otherValue) key value := by
  induction entries with
  | nil => simp at present
  | cons entry rest ih =>
    obtain ⟨k, a⟩ := entry
    by_cases here : k = key
    · subst here
      simp [set, ne]
    · by_cases there : k = other
      · subst there
        simp [set, here]
      · have later : key ∈ rest.map Prod.fst := (List.mem_cons.mp present).resolve_left (Ne.symm here)
        have otherLater : other ∈ rest.map Prod.fst := (List.mem_cons.mp otherPresent).resolve_left (Ne.symm there)
        simp [set, here, there, ih later otherLater]

/-- An assignment changes nothing where the value is there already. -/
theorem set_eq_self_iff (entries : List (κ × α)) (key : κ) (value : α) :
    set entries key value = entries ↔ get? entries key = some value := by
  constructor
  · intro same
    rw [← same, get?_set, if_pos rfl]
  · intro found
    induction entries with
    | nil => cases found
    | cons entry rest ih =>
      obtain ⟨k, a⟩ := entry
      by_cases here : k = key
      · simp only [get?, here, if_true, Option.some.injEq] at found
        simp [set, here, found]
      · simp only [get?, here, if_false] at found
        simp [set, here, ih found]

/-- A new key is stored at the end. -/
theorem set_of_not_mem {entries : List (κ × α)} {key : κ} (fresh : key ∉ entries.map Prod.fst) (value : α) :
    set entries key value = entries ++ [(key, value)] := by
  induction entries with
  | nil => rfl
  | cons entry rest ih =>
    obtain ⟨k, a⟩ := entry
    rw [List.map_cons, List.mem_cons, not_or] at fresh
    have other : k ≠ key := Ne.symm fresh.1
    simp [set, other, ih fresh.2]

end Assoc

/-- A dictionary that remembers insertion order: no key occurs twice. -/
@[ext]
structure Dict (κ : Type u) (α : Type v) where
  entries : List (κ × α)
  distinct : (entries.map Prod.fst).Nodup

namespace Dict

variable {κ : Type u} {α : Type v} {β : Type w}

def empty : Dict κ α := ⟨[], .nil⟩

instance : EmptyCollection (Dict κ α) := ⟨empty⟩

def keys (d : Dict κ α) : List κ := d.entries.map Prod.fst

def values (d : Dict κ α) : List α := d.entries.map Prod.snd

def size (d : Dict κ α) : Nat := d.entries.length

def mapValues (f : κ → α → β) (d : Dict κ α) : Dict κ β where
  entries := d.entries.map (fun entry => (entry.1, f entry.1 entry.2))
  distinct := by
    rw [List.map_map]
    exact d.distinct

/-- The dictionary that gives each key of a repetition-free list its value. -/
def ofKeys (keys : List κ) (distinct : keys.Nodup) (f : κ → α) : Dict κ α where
  entries := keys.map (fun key => (key, f key))
  distinct := by
    rw [List.map_map]
    exact (List.map_id' keys).symm ▸ distinct

@[simp]
theorem keys_ofKeys (keys : List κ) (distinct : keys.Nodup) (f : κ → α) :
    (ofKeys keys distinct f).keys = keys := by
  simp [Dict.keys, ofKeys, Function.comp_def]

@[simp]
theorem keys_mapValues (f : κ → α → β) (d : Dict κ α) : (d.mapValues f).keys = d.keys := by
  simp [Dict.keys, mapValues, Function.comp_def]

variable [DecidableEq κ]

def get? (d : Dict κ α) (key : κ) : Option α := Assoc.get? d.entries key

def set (d : Dict κ α) (key : κ) (value : α) : Dict κ α where
  entries := Assoc.set d.entries key value
  distinct := by
    rw [Assoc.keys_set]
    split
    · exact d.distinct
    · rename_i fresh
      exact List.nodup_append'.mpr ⟨d.distinct, List.nodup_singleton key, by simpa using fresh⟩

def erase (d : Dict κ α) (key : κ) : Dict κ α where
  entries := Assoc.erase d.entries key
  distinct := d.distinct.sublist (List.filter_sublist.map Prod.fst)

/-- Assign a list of pairs one after the other; the last one of a key stays. -/
def ofList (pairs : List (κ × α)) : Dict κ α :=
  pairs.foldl (fun d pair => d.set pair.1 pair.2) empty

@[simp]
theorem get?_empty (key : κ) : (∅ : Dict κ α).get? key = none := rfl

theorem get?_set (d : Dict κ α) (key other : κ) (value : α) :
    (d.set key value).get? other = if key = other then some value else d.get? other :=
  Assoc.get?_set _ _ _ _

@[simp]
theorem get?_set_self (d : Dict κ α) (key : κ) (value : α) : (d.set key value).get? key = some value := by
  simp [get?_set]

/-- The last value given for a key counts. -/
theorem get?_ofList (pairs : List (κ × α)) (key : κ) :
    (ofList pairs).get? key = ((pairs.filter fun pair => pair.1 = key).getLast?).map Prod.snd := by
  induction pairs using List.reverseRecOn with
  | nil => rfl
  | append_singleton pairs pair ih =>
    have last : ofList (pairs ++ [pair]) = (ofList pairs).set pair.1 pair.2 := by
      simp only [ofList, List.foldl_append, List.foldl_cons, List.foldl_nil]
    rw [last, get?_set, ih, List.filter_append, List.filter_singleton]
    by_cases same : pair.1 = key
    · simp [same]
    · simp [same]

theorem set_eq_self_iff (d : Dict κ α) (key : κ) (value : α) : d.set key value = d ↔ d.get? key = some value := by
  rw [Dict.ext_iff]
  exact Assoc.set_eq_self_iff _ _ _

theorem get?_set_of_ne (d : Dict κ α) {key other : κ} (value : α) (ne : key ≠ other) :
    (d.set key value).get? other = d.get? other := by
  simp [get?_set, ne]

/-- A dictionary that agrees with a function at a key agrees after the same
assignment to both. -/
theorem get?_set_update {d : Dict κ α} {f : κ → α} {other : κ} (agree : d.get? other = some (f other)) (key : κ)
    (value : α) : (d.set key value).get? other = some (Function.update f key value other) := by
  rw [get?_set]
  by_cases here : key = other
  · subst here
    simp
  · rw [if_neg here, agree, Function.update_of_ne (Ne.symm here)]

theorem get?_erase (d : Dict κ α) (key other : κ) :
    (d.erase key).get? other = if key = other then none else d.get? other :=
  Assoc.get?_erase _ _ _

@[simp]
theorem get?_erase_self (d : Dict κ α) (key : κ) : (d.erase key).get? key = none := by
  simp [get?_erase]

theorem get?_erase_of_ne (d : Dict κ α) {key other : κ} (ne : key ≠ other) :
    (d.erase key).get? other = d.get? other := by
  simp [get?_erase, ne]

theorem mem_keys_iff (d : Dict κ α) (key : κ) : key ∈ d.keys ↔ ∃ value, d.get? key = some value :=
  Assoc.mem_keys_iff _ _

theorem mem_keys_of_reads {d : Dict κ α} {keys : List κ} {f : κ → α}
    (reads : ∀ key, d.get? key = if key ∈ keys then some (f key) else none) (key : κ) : key ∈ d.keys ↔ key ∈ keys := by
  rw [mem_keys_iff, reads]
  simp

theorem get?_eq_none_iff (d : Dict κ α) (key : κ) : d.get? key = none ↔ key ∉ d.keys :=
  Assoc.get?_eq_none_iff _ _

theorem mem_entries_iff (d : Dict κ α) (key : κ) (value : α) :
    (key, value) ∈ d.entries ↔ d.get? key = some value :=
  ⟨Assoc.get?_of_mem d.distinct, Assoc.mem_of_get?⟩

theorem keys_set (d : Dict κ α) (key : κ) (value : α) :
    (d.set key value).keys = if key ∈ d.keys then d.keys else d.keys ++ [key] :=
  Assoc.keys_set _ _ _

theorem keys_set_of_mem (d : Dict κ α) {key : κ} (member : key ∈ d.keys) (value : α) :
    (d.set key value).keys = d.keys := by
  simp [keys_set, member]

omit [DecidableEq κ] in
theorem size_eq (d : Dict κ α) : d.size = d.keys.length := (List.length_map _).symm

theorem size_set_le (d : Dict κ α) (key : κ) (value : α) : (d.set key value).size ≤ d.size + 1 := by
  rw [size_eq, size_eq, keys_set]
  split <;> simp

theorem get?_ofKeys (keys : List κ) (distinct : keys.Nodup) (f : κ → α) (key : κ) :
    (ofKeys keys distinct f).get? key = if key ∈ keys then some (f key) else none := by
  by_cases member : key ∈ keys
  · rw [if_pos member, ← mem_entries_iff]
    exact List.mem_map.mpr ⟨key, member, rfl⟩
  · rw [if_neg member, get?_eq_none_iff, keys_ofKeys]
    exact member

theorem get?_foldl_set (keys : List κ) (f : κ → α) (d : Dict κ α) (key : κ) :
    (keys.foldl (fun d k => d.set k (f k)) d).get? key = if key ∈ keys then some (f key) else d.get? key := by
  induction keys generalizing d with
  | nil => simp
  | cons k keys ih =>
    rw [List.foldl_cons, ih, get?_set]
    by_cases later : key ∈ keys
    · simp [later]
    · by_cases here : k = key
      · subst here
        simp
      · simp [later, here, Ne.symm here]

theorem get?_foldl_erase (keys : List κ) (d : Dict κ α) (key : κ) :
    (keys.foldl erase d).get? key = if key ∈ keys then none else d.get? key := by
  induction keys generalizing d with
  | nil => simp
  | cons k keys ih =>
    rw [List.foldl_cons, ih, get?_erase]
    by_cases here : k = key
    · simp [here]
    · simp [here, Ne.symm here]

theorem entries_foldl_erase (keys : List κ) (d : Dict κ α) :
    (keys.foldl erase d).entries = d.entries.filter fun entry => entry.1 ∉ keys := by
  induction keys generalizing d with
  | nil => simp
  | cons k keys ih =>
    have once : (d.erase k).entries = d.entries.filter fun entry => entry.1 ≠ k := rfl
    rw [List.foldl_cons, ih, once, List.filter_filter]
    refine List.filter_congr fun entry _ => ?_
    simp only [List.mem_cons, not_or, ne_eq, Bool.decide_and]
    exact Bool.and_comm _ _

/-- The entries are decided by the keys in their order and the value at each. -/
theorem entries_eq_map (d : Dict κ α) {f : κ → α} (found : ∀ key ∈ d.keys, d.get? key = some (f key)) :
    d.entries = d.keys.map fun key => (key, f key) := by
  have each : ∀ entry ∈ d.entries, (entry.1, f entry.1) = id entry := by
    intro entry member
    have stored := (d.mem_entries_iff entry.1 entry.2).mp member
    have atKey := found entry.1 (List.mem_map_of_mem member)
    exact Prod.ext rfl (Option.some.inj (atKey.symm.trans stored))
  rw [Dict.keys, List.map_map]
  exact ((List.map_congr_left each).trans (List.map_id _)).symm

/-- A new key is stored at the end. -/
theorem entries_set_of_not_mem (d : Dict κ α) {key : κ} (fresh : key ∉ d.keys) (value : α) :
    (d.set key value).entries = d.entries ++ [(key, value)] :=
  Assoc.set_of_not_mem fresh value

theorem mapValues_set (f : α → β) (d : Dict κ α) (key : κ) (value : α) :
    (d.set key value).mapValues (fun _ v => f v) = (d.mapValues fun _ v => f v).set key (f value) := by
  have general : ∀ entries : List (κ × α), (Assoc.set entries key value).map (fun entry => (entry.1, f entry.2)) =
      Assoc.set (entries.map fun entry => (entry.1, f entry.2)) key (f value) := by
    intro entries
    induction entries with
    | nil => rfl
    | cons entry rest ih =>
      by_cases here : entry.1 = key
      · simp [Assoc.set, here]
      · simp [Assoc.set, here, ih]
  simp only [mapValues, set, general]

theorem get?_mapValues (f : κ → α → β) (d : Dict κ α) (key : κ) :
    (d.mapValues f).get? key = (d.get? key).map (f key) := by
  cases found : d.get? key with
  | none =>
    rw [Option.map_none, get?_eq_none_iff]
    rw [get?_eq_none_iff] at found
    simpa [Dict.keys, mapValues, Function.comp_def] using found
  | some value =>
    rw [Option.map_some, ← mem_entries_iff]
    exact List.mem_map.mpr ⟨(key, value), (mem_entries_iff _ _ _).mpr found, rfl⟩

theorem mapValues_eq_self {d : Dict κ α} {f : κ → α → α}
    (fixed : ∀ key value, d.get? key = some value → f key value = value) :
    d.mapValues f = d := by
  refine Dict.ext ?_
  refine (List.map_congr_left fun entry member => ?_).trans (List.map_id _)
  rw [fixed entry.1 entry.2 ((mem_entries_iff d entry.1 entry.2).mp member)]
  rfl

/-- The values of a dictionary are those at some of its keys and the others. -/
theorem values_perm (d : Dict κ α) {keys : List κ} (distinct : keys.Nodup) {f : κ → α}
    (found : ∀ key ∈ keys, d.get? key = some (f key)) :
    d.values.Perm (keys.map f ++ (d.entries.filter fun entry => entry.1 ∉ keys).map Prod.snd) := by
  have inside : (d.entries.filter fun entry => entry.1 ∈ keys).Perm (keys.map fun key => (key, f key)) := by
    refine (List.perm_ext_iff_of_nodup (d.distinct.of_map.filter _) ?_).mpr ?_
    · exact distinct.map fun a b same => congrArg Prod.fst same
    · intro entry
      obtain ⟨key, value⟩ := entry
      simp only [List.mem_filter, decide_eq_true_eq, List.mem_map, Prod.mk.injEq]
      constructor
      · rintro ⟨member, listed⟩
        have stored := (d.mem_entries_iff key value).mp member
        exact ⟨key, listed, rfl, Option.some.inj ((found key listed).symm.trans stored)⟩
      · rintro ⟨_, listed, rfl, rfl⟩
        exact ⟨(d.mem_entries_iff _ _).mpr (found _ listed), listed⟩
  have split : (d.entries.filter (fun entry => decide (entry.1 ∈ keys)) ++
      d.entries.filter (fun entry => !decide (entry.1 ∈ keys))).Perm d.entries := List.filter_append_perm _ _
  have values := (split.symm.trans (inside.append_right _)).map Prod.snd
  simpa only [Dict.values, List.map_append, List.map_map, Function.comp_def, decide_not] using values

end Dict
