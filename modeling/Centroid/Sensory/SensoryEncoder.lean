import Centroid.Fusion.ConceptGraph
import Centroid.Lib.JoinedNames
import Centroid.Memory.Event
import Centroid.Providers.RawValues

namespace Centroid

namespace SensoryEncoder

def maxContentChars : ℕ := 512

def truncatedMark : String := "...[truncated]"

def newKey (parentKey k : String) : String := if parentKey ≠ "" then parentKey ++ "." ++ k else k

/-- `items.update(other)`. -/
def update (items other : Dict String String) : Dict String String :=
  other.entries.foldl (fun items entry => items.set entry.1 entry.2) items

section Render

variable (render : Json → String)

def keyText (k : Key JsonNumber) : String := k.value.pyStr render

/-- The text of a leaf that is kept. -/
def scalarText : Json → Option String
  | .bool b => some (Value.pyStr render (.bool b))
  | .num n => some (Value.pyStr render (.num n))
  | .str s => some s
  | _ => none

mutual

/-- What the loop of `_flatten` does with a value. -/
def flattenValue (key : String) (items : Dict String String) : Json → Dict String String
  | .dict entries => update items (flattenEntries key ∅ entries)
  | v =>
    match scalarText render v with
    | some text => items.set key text
    | none => items

def flattenEntries (parentKey : String) (items : Dict String String) : JsonObject → Dict String String
  | [] => items
  | (k, v) :: rest =>
    flattenEntries parentKey (flattenValue (newKey parentKey (keyText render k)) items v) rest

end

/-- `_flatten`. -/
def flatten (observation : JsonObject) (parentKey : String := "") : Dict String String :=
  flattenEntries render parentKey ∅ observation

/-- The content before it is truncated. -/
def fullContent (observation : JsonObject) : String :=
  let flat := flatten render observation
  ", ".intercalate ((sortKeys flat.entries).map fun entry => entry.1 ++ "=" ++ entry.2)

def truncate (content : String) : String :=
  if maxContentChars < content.length then
    String.ofList (content.toList.take (maxContentChars - truncatedMark.length)) ++ truncatedMark
  else content

def encode (observation : JsonObject) (now : ℚ) (sourceId : String := "observation") : SensedText :=
  ⟨⟨truncate (fullContent render observation), sourceId⟩, .sensory, now⟩

theorem length_encode_le (observation : JsonObject) (now : ℚ) (sourceId : String) :
    (encode render observation now sourceId).content.length ≤ maxContentChars := by
  show (truncate (fullContent render observation)).length ≤ maxContentChars
  rw [truncate]
  split
  · have cut := List.length_take_le (maxContentChars - truncatedMark.length) (fullContent render observation).toList
    have room : maxContentChars - truncatedMark.length + truncatedMark.length = maxContentChars := by decide
    rw [String.length_append, String.length_ofList]
    omega
  · omega

mutual

/-- The leaves that are kept, with the keys on the way to them. -/
def leaves (path : List String) : Json → List (List String × String)
  | .dict entries => entryLeaves path entries
  | v => (scalarText render v).toList.map fun text => (path, text)

def entryLeaves (path : List String) : JsonObject → List (List String × String)
  | [] => []
  | (k, v) :: rest => leaves (path ++ [keyText render k]) v ++ entryLeaves path rest

end

end Render

/-- The dotted key of a path. -/
def dotted (path : List String) : String := path.foldl newKey ""

theorem dotted_concat (path : List String) (k : String) : dotted (path ++ [k]) = newKey (dotted path) k := by
  rw [dotted, List.foldl_append]
  rfl

theorem toList_dotted (path : List String) : (dotted path).toList = JoinedNames.joined '.' (path.map String.toList) := by
  induction path using List.reverseRecOn with
  | nil => rfl
  | append_singleton path k ih =>
    rw [dotted_concat, newKey, List.map_append, List.map_singleton, JoinedNames.joined_concat, ← ih]
    by_cases root : dotted path = ""
    · rw [if_neg (not_not_intro root), if_pos (by rw [root]; rfl)]
    · rw [if_pos root, if_neg (by simpa using root), String.toList_append, String.toList_append, List.append_assoc]
      rfl

/-- The names that a path spells: its keys cut at their dots, without the empty
keys that it begins with. -/
def spelled (path : List String) : List (List Char) := JoinedNames.parts '.' (path.map String.toList)

theorem dotted_eq_iff (path path' : List String) : dotted path = dotted path' ↔ spelled path = spelled path' := by
  rw [spelled, spelled, ← JoinedNames.joined_eq_iff, ← toList_dotted, ← toList_dotted, String.toList_inj]

/-- The dotted keys of some leaves with their texts. -/
def keyed (found : List (List String × String)) : List (String × String) :=
  found.map fun leaf => (dotted leaf.1, leaf.2)

theorem keyed_append (found more : List (List String × String)) : keyed (found ++ more) = keyed found ++ keyed more :=
  List.map_append

theorem get?_foldl_set (pairs : List (String × String)) (items : Dict String String) (key : String) :
    (pairs.foldl (fun items entry => items.set entry.1 entry.2) items).get? key =
      ((Dict.ofList pairs).get? key).or (items.get? key) := by
  induction pairs using List.reverseRecOn with
  | nil => rfl
  | append_singleton pairs pair ih =>
    rw [Dict.ofList, List.foldl_append, List.foldl_append]
    simp only [List.foldl_cons, List.foldl_nil]
    rw [Dict.get?_set, Dict.get?_set, ih]
    split <;> rfl

theorem get?_ofList_append (pairs more : List (String × String)) (key : String) :
    (Dict.ofList (pairs ++ more)).get? key = ((Dict.ofList more).get? key).or ((Dict.ofList pairs).get? key) := by
  rw [Dict.ofList, List.foldl_append, get?_foldl_set]
  rfl

theorem ofList_entries (d : Dict String String) (key : String) : (Dict.ofList d.entries).get? key = d.get? key := by
  have single : ∀ pairs : List (String × String), (pairs.map Prod.fst).Nodup →
      (Dict.ofList pairs).get? key = Assoc.get? pairs key := by
    intro pairs distinct
    induction pairs with
    | nil => rfl
    | cons pair pairs ih =>
      rw [List.map_cons, List.nodup_cons] at distinct
      rw [← List.singleton_append, get?_ofList_append, ih distinct.2, List.singleton_append, Assoc.get?]
      by_cases here : pair.1 = key
      · subst here
        rw [(Assoc.get?_eq_none_iff _ _).mpr distinct.1, if_pos rfl]
        exact Dict.get?_set_self _ _ _
      · rw [if_neg here]
        have absent : (Dict.ofList [pair]).get? key = none := Dict.get?_set_of_ne _ _ here
        rw [absent, Option.or_none]
  exact single d.entries d.distinct

theorem get?_update (items other : Dict String String) (key : String) :
    (update items other).get? key = (other.get? key).or (items.get? key) := by
  rw [update, get?_foldl_set, ofList_entries]

section Spec

variable (render : Json → String)

mutual

/-- A value at a path puts its leaves under their dotted keys. -/
theorem get?_flattenValue (path : List String) (items : Dict String String) (key : String) :
    ∀ v : Json, (flattenValue render (dotted path) items v).get? key =
      ((Dict.ofList (keyed (leaves render path v))).get? key).or (items.get? key)
  | .dict entries => by
    rw [flattenValue, leaves, get?_update, get?_flattenEntries path ∅ key entries, Dict.get?_empty, Option.or_none]
  | .null => rfl
  | .bool b => get?_foldl_set [(dotted path, Value.pyStr render (.bool b))] items key
  | .num n => get?_foldl_set [(dotted path, Value.pyStr render (.num n))] items key
  | .str s => get?_foldl_set [(dotted path, s)] items key
  | .stamp kind text => rfl
  | .list listed => rfl
  | .bytes text => rfl
  | .set members => rfl

theorem get?_flattenEntries (path : List String) (items : Dict String String) (key : String) :
    ∀ entries : JsonObject, (flattenEntries render (dotted path) items entries).get? key =
      ((Dict.ofList (keyed (entryLeaves render path entries))).get? key).or (items.get? key)
  | [] => rfl
  | (k, v) :: rest => by
    rw [flattenEntries, entryLeaves, get?_flattenEntries path _ key rest, ← dotted_concat, get?_flattenValue _ _ key v,
      keyed_append, get?_ofList_append, Option.or_assoc]

end

/-- What `_flatten` returns, by the leaves. -/
theorem get?_flatten (observation : JsonObject) (key : String) :
    (flatten render observation).get? key = (Dict.ofList (keyed (entryLeaves render [] observation))).get? key := by
  have spec := get?_flattenEntries render [] ∅ key observation
  rw [Dict.get?_empty, Option.or_none] at spec
  exact spec

theorem entryLeaves_eq (path : List String) (entries : JsonObject) :
    entryLeaves render path entries =
      entries.flatMap fun entry => leaves render (path ++ [keyText render entry.1]) entry.2 := by
  induction entries with
  | nil => rfl
  | cons entry rest ih => rw [entryLeaves, ih, List.flatMap_cons]

end Spec

/-- The keys of every dictionary of an observation are distinct texts. -/
inductive Named : Json → Prop
  | leaf {v : Json} (isLeaf : v.dict? = none) : Named v
  | dict {entries : JsonObject} (texts : ∀ entry ∈ entries, ∃ name, entry.1 = .str name)
      (distinct : (entries.map Prod.fst).Nodup) (each : ∀ entry ∈ entries, Named entry.2) : Named (.dict entries)

/-- The entries of a dictionary come in another order, at any level. -/
inductive Reordered : Json → Json → Prop
  | refl (v : Json) : Reordered v v
  | trans {u v w : Json} (first : Reordered u v) (second : Reordered v w) : Reordered u w
  | perm {entries entries' : JsonObject} (order : entries.Perm entries') : Reordered (.dict entries) (.dict entries')
  | inside (before after : JsonObject) (k : Key JsonNumber) {v v' : Json} (below : Reordered v v') :
      Reordered (.dict (before ++ (k, v) :: after)) (.dict (before ++ (k, v') :: after))

section Paths

variable (render : Json → String)

theorem leaves_leaf {v : Json} (isLeaf : v.dict? = none) (path : List String) :
    leaves render path v = (scalarText render v).toList.map fun text => (path, text) := by
  cases v with
  | dict entries => cases isLeaf
  | _ => rfl

theorem Named.prefix_of_mem {v : Json} (named : Named v) {path : List String} {leaf : List String × String}
    (found : leaf ∈ leaves render path v) : path <+: leaf.1 := by
  induction named generalizing path with
  | leaf isLeaf =>
    rw [leaves_leaf render isLeaf] at found
    obtain ⟨text, _, rfl⟩ := List.mem_map.mp found
    exact List.prefix_refl path
  | dict _ _ _ ih =>
    rw [leaves, entryLeaves_eq, List.mem_flatMap] at found
    obtain ⟨entry, member, below⟩ := found
    exact (List.prefix_append path _).trans (ih entry member below)

theorem keyText_injective {entries : JsonObject} (texts : ∀ entry ∈ entries, ∃ name, entry.1 = .str name)
    {a b : Key JsonNumber × Json} (memberA : a ∈ entries) (memberB : b ∈ entries)
    (same : keyText render a.1 = keyText render b.1) : a.1 = b.1 := by
  obtain ⟨name, atA⟩ := texts a memberA
  obtain ⟨other, atB⟩ := texts b memberB
  rw [atA, atB] at same ⊢
  exact congrArg Key.str same

/-- No two leaves of an observation have the same path. -/
theorem Named.nodup_paths {v : Json} (named : Named v) (path : List String) :
    ((leaves render path v).map Prod.fst).Nodup := by
  induction named generalizing path with
  | @leaf v isLeaf =>
    rw [leaves_leaf render isLeaf]
    cases scalarText render v <;> simp
  | @dict entries texts distinct each ih =>
    rw [leaves, entryLeaves_eq, List.map_flatMap, List.nodup_flatMap]
    refine ⟨fun entry member => ih entry member _, ?_⟩
    have apart : entries.Pairwise fun a b => a.1 ≠ b.1 := List.pairwise_map.mp distinct
    refine apart.imp_of_mem fun {a b} memberA memberB other => ?_
    -- a path of both entries would go on with the key of each
    intro shared inA inB
    obtain ⟨leafA, foundA, rfl⟩ := List.mem_map.mp inA
    obtain ⟨leafB, foundB, same⟩ := List.mem_map.mp inB
    have belowA := (each a memberA).prefix_of_mem render foundA
    have belowB := (each b memberB).prefix_of_mem render foundB
    rw [same] at belowB
    have paths := List.prefix_of_prefix_length_le belowA belowB (by simp)
    have keys := paths.eq_of_length (by simp)
    exact other (keyText_injective render texts memberA memberB (by simpa using keys))

theorem Reordered.leaves_perm {v v' : Json} (reordered : Reordered v v') (path : List String) :
    (leaves render path v).Perm (leaves render path v') := by
  induction reordered generalizing path with
  | refl v => exact List.Perm.refl _
  | trans _ _ ih ih' => exact (ih path).trans (ih' path)
  | perm order =>
    rw [leaves, leaves, entryLeaves_eq, entryLeaves_eq]
    exact order.flatMap_right _
  | inside before after k _ ih =>
    rw [leaves, leaves, entryLeaves_eq, entryLeaves_eq, List.flatMap_append, List.flatMap_append, List.flatMap_cons,
      List.flatMap_cons]
    exact ((ih _).append_right _).append_left _

end Paths

end SensoryEncoder

/-- A nested observation as the encoder gets it. -/
structure Observation where
  entries : JsonObject
  named : SensoryEncoder.Named (.dict entries)

namespace SensoryEncoder

variable (render : Json → String)

/-- What the flattening of an observation promises. -/
structure Lossless (observation : Observation) : Prop where
  distinct : ∀ leaf ∈ entryLeaves render [] observation.entries, ∀ other ∈ entryLeaves render [] observation.entries,
    leaf.1 ≠ other.1 → dotted leaf.1 ≠ dotted other.1
  kept : ∀ leaf ∈ entryLeaves render [] observation.entries,
    (flatten render observation.entries).get? (dotted leaf.1) = some leaf.2
  size : (flatten render observation.entries).size = (entryLeaves render [] observation.entries).length
  reordered : ∀ entries', Reordered (.dict observation.entries) (.dict entries') →
    fullContent render entries' = fullContent render observation.entries

/-- No two leaves have paths that spell the same names. -/
def Separate (observation : Observation) : Prop :=
  ∀ leaf ∈ entryLeaves render [] observation.entries, ∀ other ∈ entryLeaves render [] observation.entries,
    spelled leaf.1 = spelled other.1 → leaf.1 = other.1

variable {render}

theorem ofList_eq_some_iff {pairs : List (String × String)} (distinct : (pairs.map Prod.fst).Nodup) {key text : String} :
    (Dict.ofList pairs).get? key = some text ↔ (key, text) ∈ pairs := by
  have stored := ofList_entries ⟨pairs, distinct⟩ key
  rw [stored]
  exact (Dict.mem_entries_iff ⟨pairs, distinct⟩ key text).symm

theorem nodup_keyed {found : List (List String × String)} (distinct : (found.map Prod.fst).Nodup)
    (separate : ∀ leaf ∈ found, ∀ other ∈ found, spelled leaf.1 = spelled other.1 → leaf.1 = other.1) :
    ((keyed found).map Prod.fst).Nodup := by
  have paths : (keyed found).map Prod.fst = (found.map Prod.fst).map dotted := by
    rw [keyed, List.map_map, List.map_map]
    rfl
  rw [paths]
  refine List.Nodup.map_on ?_ distinct
  intro path listed path' listed' same
  obtain ⟨leaf, member, rfl⟩ := List.mem_map.mp listed
  obtain ⟨other, member', rfl⟩ := List.mem_map.mp listed'
  exact separate leaf member other member' ((dotted_eq_iff _ _).mp same)

/-- Leaves under distinct dotted keys are what the flattening holds. -/
theorem flatten_entries_perm {entries : JsonObject}
    (distinct : ((keyed (entryLeaves render [] entries)).map Prod.fst).Nodup) :
    (flatten render entries).entries.Perm (keyed (entryLeaves render [] entries)) := by
  refine (List.perm_ext_iff_of_nodup (flatten render entries).distinct.of_map distinct.of_map).mpr ?_
  rintro ⟨key, text⟩
  rw [Dict.mem_entries_iff, get?_flatten, ofList_eq_some_iff distinct]

theorem fullContent_eq {entries entries' : JsonObject}
    (distinct : ((keyed (entryLeaves render [] entries)).map Prod.fst).Nodup)
    (perm : (entryLeaves render [] entries).Perm (entryLeaves render [] entries')) :
    fullContent render entries' = fullContent render entries := by
  have keys := perm.map fun leaf => (dotted leaf.1, leaf.2)
  have distinct' : ((keyed (entryLeaves render [] entries')).map Prod.fst).Nodup :=
    (keys.map Prod.fst).nodup_iff.mp distinct
  have stored := (flatten_entries_perm distinct').trans (keys.symm.trans (flatten_entries_perm distinct).symm)
  rw [fullContent, fullContent, sortKeys_eq_of_perm stored (flatten render entries').distinct]

/-- The flattening loses nothing just when the leaves are told apart by the names
that their paths spell. -/
theorem lossless_iff (render : Json → String) (observation : Observation) :
    Lossless render observation ↔ Separate render observation := by
  constructor
  · intro lossless leaf member other member' same
    by_contra apart
    exact lossless.distinct leaf member other member' apart ((dotted_eq_iff _ _).mpr same)
  · intro separate
    have paths : ((entryLeaves render [] observation.entries).map Prod.fst).Nodup := observation.named.nodup_paths render []
    have distinct := nodup_keyed paths separate
    have stored := flatten_entries_perm distinct
    exact {
      distinct := fun leaf member other member' apart same =>
        apart (separate leaf member other member' ((dotted_eq_iff _ _).mp same))
      kept := by
        intro leaf member
        rw [get?_flatten, ofList_eq_some_iff distinct]
        exact List.mem_map_of_mem member
      size := by
        rw [Dict.size, stored.length_eq, keyed, List.length_map]
      reordered := fun entries' reordered => fullContent_eq distinct (reordered.leaves_perm render []) }

/-- A dotted key and a nested one, which are one key after the flattening. -/
def dottedTwice : Observation where
  entries := [(.str "a.b", .num (.int 1)), (.str "a", .dict [(.str "b", .num (.int 2))])]
  named := by
    refine .dict ?_ (by decide) ?_
    · simp
    · intro entry member
      rcases List.mem_pair.mp member with rfl | rfl
      · exact .leaf rfl
      · refine .dict (by simp) (by decide) fun inner only => ?_
        rw [List.mem_singleton.mp only]
        exact .leaf rfl

theorem dotted_key_lost :
    (flatten (fun _ => "") dottedTwice.entries).entries = [("a.b", "2")] ∧ ¬Lossless (fun _ => "") dottedTwice := by
  refine ⟨by decide +kernel, fun lossless => ?_⟩
  have both := lossless.size
  exact absurd both (by decide +kernel)

/-- Keys without dots that are not empty are told apart. -/
theorem lossless_of_plain (render : Json → String) (observation : Observation)
    (plain : ∀ leaf ∈ entryLeaves render [] observation.entries, ∀ k ∈ leaf.1, k ≠ "" ∧ '.' ∉ k.toList) :
    Lossless render observation := by
  have own : ∀ leaf ∈ entryLeaves render [] observation.entries, spelled leaf.1 = leaf.1.map String.toList := by
    intro leaf member
    refine JoinedNames.parts_eq_self '.' fun name listed => ?_
    obtain ⟨k, inPath, rfl⟩ := List.mem_map.mp listed
    have isPlain := plain leaf member k inPath
    exact ⟨by simpa using isPlain.1, isPlain.2⟩
  refine (lossless_iff render observation).mpr fun leaf member other member' same => ?_
  rw [own leaf member, own other member'] at same
  exact List.map_injective_iff.mpr (fun a b => String.toList_inj.mp) same

end SensoryEncoder

end Centroid
