import Centroid.Config.ConfigChains
import Mathlib.Data.Set.Insert

namespace Centroid

/-- A value in memory: an object is known by its address, and all else by what it
is, since a merge does not look into it. -/
inductive Ref where
  | plain (value : Json)
  | object (address : ℕ)

abbrev Cells := List (Key JsonNumber × Ref)

/-- The objects in memory, one at each address. -/
abbrev ObjectHeap := List Cells

/-- The assignment `merged[key] = value` for one entry of the override. -/
def mergeStep (recurse : ObjectHeap → ℕ → ℕ → Option (ObjectHeap × ℕ)) (merged : ℕ) (heap : ObjectHeap)
    (entry : Key JsonNumber × Ref) : Option ObjectHeap :=
  match heap[merged]? with
  | none => none
  | some cells =>
    match entry.2, Assoc.get? cells entry.1 with
    | .object override, some (.object base) =>
      match recurse heap base override with
      | none => none
      | some (heap, inner) => some (heap.modify merged fun cells => Assoc.set cells entry.1 (.object inner))
    | value, _ => some (heap.modify merged fun cells => Assoc.set cells entry.1 value)

/-- `_deep_merge` on objects in memory, at most `fuel` calls deep: `dict(base)` is
a new object, and the loop assigns to nothing else. -/
def deepMergeAt : ℕ → ObjectHeap → ℕ → ℕ → Option (ObjectHeap × ℕ)
  | 0, _, _, _ => none
  | fuel + 1, heap, base, override =>
    match heap[base]?, heap[override]? with
    | some inherited, some given =>
      (given.foldlM (mergeStep (deepMergeAt fuel) heap.length) (heap ++ [inherited])).map fun after => (after, heap.length)
    | _, _ => none

mutual

/-- A reference stands for a value, through no address in `hidden`. -/
def StandsFor (heap : ObjectHeap) (hidden : Set ℕ) : Ref → Json → Prop
  | ref, .dict data =>
    ∃ address cells, ref = .object address ∧ address ∉ hidden ∧ heap[address]? = some cells ∧
      StandsForEntries heap hidden cells data
  | ref, value => ref = .plain value

def StandsForEntries (heap : ObjectHeap) (hidden : Set ℕ) : Cells → JsonObject → Prop
  | [], [] => True
  | cell :: cells, (key, value) :: data =>
    cell.1 = key ∧ StandsFor heap hidden cell.2 value ∧ StandsForEntries heap hidden cells data
  | _, _ => False

end

theorem standsFor_dict {heap : ObjectHeap} {hidden : Set ℕ} {ref : Ref} {data : JsonObject} :
    StandsFor heap hidden ref (.dict data) ↔
      ∃ address cells, ref = .object address ∧ address ∉ hidden ∧ heap[address]? = some cells ∧
        StandsForEntries heap hidden cells data := by
  rw [StandsFor]

theorem standsFor_of_not_object {heap : ObjectHeap} {hidden : Set ℕ} {ref : Ref} {value : Json} (other : ¬IsObject value) :
    StandsFor heap hidden ref value ↔ ref = .plain value := by
  cases value with
  | dict data => exact (other ⟨data, rfl⟩).elim
  | _ => rw [StandsFor]; simp

theorem standsForEntries_cons {heap : ObjectHeap} {hidden : Set ℕ} {cells : Cells} {key : Key JsonNumber} {value : Json}
    {data : JsonObject} (holds : StandsForEntries heap hidden cells ((key, value) :: data)) :
    ∃ ref rest, cells = (key, ref) :: rest ∧ StandsFor heap hidden ref value ∧ StandsForEntries heap hidden rest data := by
  cases cells with
  | nil => simp [StandsForEntries] at holds
  | cons cell rest =>
    rw [StandsForEntries] at holds
    exact ⟨cell.2, rest, congrArg (· :: rest) (Prod.ext holds.1 rfl), holds.2.1, holds.2.2⟩

theorem standsForEntries_nil {heap : ObjectHeap} {hidden : Set ℕ} {cells : Cells}
    (holds : StandsForEntries heap hidden cells []) : cells = [] := by
  cases cells with
  | nil => rfl
  | cons cell rest => simp [StandsForEntries] at holds

/-- What is visible in one memory is there and visible in another. -/
def Carries (heap : ObjectHeap) (hidden : Set ℕ) (heap' : ObjectHeap) (hidden' : Set ℕ) : Prop :=
  ∀ address cells, address ∉ hidden → heap[address]? = some cells → address ∉ hidden' ∧ heap'[address]? = some cells

mutual

theorem StandsFor.carry {heap heap' : ObjectHeap} {hidden hidden' : Set ℕ} (carries : Carries heap hidden heap' hidden') :
    ∀ (value : Json) (ref : Ref), StandsFor heap hidden ref value → StandsFor heap' hidden' ref value
  | .dict data, ref, holds => by
    obtain ⟨address, cells, isObject, visible, stored, entries⟩ := standsFor_dict.mp holds
    obtain ⟨visible', stored'⟩ := carries address cells visible stored
    exact standsFor_dict.mpr ⟨address, cells, isObject, visible', stored', entries.carry carries data cells⟩
  | .null, ref, holds => by simpa [StandsFor] using holds
  | .bool _, ref, holds => by simpa [StandsFor] using holds
  | .num _, ref, holds => by simpa [StandsFor] using holds
  | .str _, ref, holds => by simpa [StandsFor] using holds
  | .stamp _ _, ref, holds => by simpa [StandsFor] using holds
  | .list _, ref, holds => by simpa [StandsFor] using holds
  | .bytes _, ref, holds => by simpa [StandsFor] using holds
  | .set _, ref, holds => by simpa [StandsFor] using holds

theorem StandsForEntries.carry {heap heap' : ObjectHeap} {hidden hidden' : Set ℕ}
    (carries : Carries heap hidden heap' hidden') :
    ∀ (data : JsonObject) (cells : Cells), StandsForEntries heap hidden cells data →
      StandsForEntries heap' hidden' cells data
  | [], cells, holds => by
    rw [standsForEntries_nil holds, StandsForEntries]
    trivial
  | (key, value) :: data, cells, holds => by
    obtain ⟨ref, rest, rfl, first, later⟩ := standsForEntries_cons holds
    rw [StandsForEntries]
    exact ⟨rfl, first.carry carries value ref, later.carry carries data rest⟩

end

/-- A key stands for the same on both sides, or is on neither. -/
theorem standsFor_get? {heap : ObjectHeap} {hidden : Set ℕ} {data : JsonObject} {cells : Cells}
    (holds : StandsForEntries heap hidden cells data) (key : Key JsonNumber) :
    Assoc.get? cells key = none ∧ Assoc.get? data key = none ∨
      ∃ ref value, Assoc.get? cells key = some ref ∧ Assoc.get? data key = some value ∧
        StandsFor heap hidden ref value := by
  induction data generalizing cells with
  | nil =>
    rw [standsForEntries_nil holds]
    exact Or.inl ⟨rfl, rfl⟩
  | cons entry data ih =>
    obtain ⟨k, value⟩ := entry
    obtain ⟨ref, rest, rfl, first, later⟩ := standsForEntries_cons holds
    by_cases here : k = key
    · exact Or.inr ⟨ref, value, by rw [Assoc.get?, if_pos here], by rw [Assoc.get?, if_pos here], first⟩
    · rw [Assoc.get?, if_neg here, Assoc.get?, if_neg here]
      exact ih later

theorem standsFor_set {heap : ObjectHeap} {hidden : Set ℕ} {data : JsonObject} {cells : Cells}
    (holds : StandsForEntries heap hidden cells data) (key : Key JsonNumber) {ref : Ref} {value : Json}
    (stands : StandsFor heap hidden ref value) :
    StandsForEntries heap hidden (Assoc.set cells key ref) (Assoc.set data key value) := by
  induction data generalizing cells with
  | nil =>
    rw [standsForEntries_nil holds, Assoc.set, Assoc.set, StandsForEntries, StandsForEntries]
    exact ⟨rfl, stands, trivial⟩
  | cons entry data ih =>
    obtain ⟨k, old⟩ := entry
    obtain ⟨oldRef, rest, rfl, first, later⟩ := standsForEntries_cons holds
    by_cases here : k = key
    · rw [Assoc.set, if_pos here, Assoc.set, if_pos here, StandsForEntries]
      exact ⟨rfl, stands, later⟩
    · rw [Assoc.set, if_neg here, Assoc.set, if_neg here, StandsForEntries]
      exact ⟨rfl, first, ih later⟩

/-- The second memory has all objects of the first, but for one. -/
structure KeepsBut (changed : Option ℕ) (heap heap' : ObjectHeap) : Prop where
  length : heap.length ≤ heap'.length
  cells : ∀ address < heap.length, changed ≠ some address → heap'[address]? = heap[address]?

theorem KeepsBut.carries {heap heap' : ObjectHeap} {hidden : Set ℕ} {changed : Option ℕ}
    (keeps : KeepsBut changed heap heap') (covered : ∀ address, changed = some address → address ∈ hidden) :
    Carries heap hidden heap' hidden := by
  intro address cells visible stored
  refine ⟨visible, ?_⟩
  rw [keeps.cells address (List.getElem?_eq_some_iff.mp stored).1 fun same => visible (covered address same), stored]

/-- A change to a hidden object goes unseen. -/
theorem KeepsBut.carries_of_mem {heap heap' : ObjectHeap} {hidden : Set ℕ} {merged : ℕ}
    (keeps : KeepsBut (some merged) heap heap') (isHidden : merged ∈ hidden) : Carries heap hidden heap' hidden := by
  refine keeps.carries fun address same => ?_
  rwa [← Option.some.inj same]

/-- What a merge of two objects in memory comes to, given the second as a value. -/
def MergesRight (value : Json) : Prop :=
  ∀ override, value = .dict override → ∀ (heap : ObjectHeap) (hidden : Set ℕ) (baseAt overrideAt : ℕ) (base : JsonObject),
    (∀ address ∈ hidden, address < heap.length) →
    StandsFor heap hidden (.object baseAt) (.dict base) → StandsFor heap hidden (.object overrideAt) (.dict override) →
    ∃ enough heap', (∀ fuel ≥ enough, deepMergeAt fuel heap baseAt overrideAt = some (heap', heap.length)) ∧
      KeepsBut none heap heap' ∧ StandsFor heap' hidden (.object heap.length) (.dict (deepMerge base override))

theorem KeepsBut.none_refl (heap : ObjectHeap) : KeepsBut none heap heap := ⟨le_rfl, fun _ _ _ => rfl⟩

theorem KeepsBut.weaken {heap heap' : ObjectHeap} (keeps : KeepsBut none heap heap') (changed : Option ℕ) :
    KeepsBut changed heap heap' :=
  ⟨keeps.length, fun address bound _ => keeps.cells address bound (Option.some_ne_none address).symm⟩

theorem KeepsBut.trans {heap heap' heap'' : ObjectHeap} {changed : Option ℕ} (first : KeepsBut changed heap heap')
    (second : KeepsBut changed heap' heap'') : KeepsBut changed heap heap'' :=
  ⟨first.length.trans second.length, fun address bound other =>
    (second.cells address (bound.trans_le first.length) other).trans (first.cells address bound other)⟩

/-- An assignment to a hidden object leaves what the visible ones stand for. -/
theorem assign_spec {heap : ObjectHeap} {hidden : Set ℕ} {merged : ℕ} {cells : Cells} {acc : JsonObject} {ref : Ref}
    {value : Json} (isHidden : merged ∈ hidden) (stored : heap[merged]? = some cells)
    (holds : StandsForEntries heap hidden cells acc) (key : Key JsonNumber) (stands : StandsFor heap hidden ref value) :
    KeepsBut (some merged) heap (heap.modify merged fun cells => Assoc.set cells key ref) ∧
      (heap.modify merged fun cells => Assoc.set cells key ref)[merged]? = some (Assoc.set cells key ref) ∧
      StandsForEntries (heap.modify merged fun cells => Assoc.set cells key ref) hidden (Assoc.set cells key ref)
        (Assoc.set acc key value) := by
  have keeps : KeepsBut (some merged) heap (heap.modify merged fun cells => Assoc.set cells key ref) := by
    refine ⟨(List.length_modify _ _ _).ge, fun address _ other => ?_⟩
    have apart : merged ≠ address := fun same => other (congrArg some same)
    simp only [List.getElem?_modify, apart, if_false, id_map']
  refine ⟨keeps, ?_, ?_⟩
  · simp only [List.getElem?_modify, if_true, stored]
    rfl
  · exact (standsFor_set holds key stands).carry (keeps.carries_of_mem isHidden) _ _

theorem mergeStep_plain {recurse : ObjectHeap → ℕ → ℕ → Option (ObjectHeap × ℕ)} {heap : ObjectHeap} {merged : ℕ}
    {cells : Cells} (stored : heap[merged]? = some cells) {key : Key JsonNumber} {ref : Ref}
    (plain : ∀ override base, ¬(ref = .object override ∧ Assoc.get? cells key = some (.object base))) :
    mergeStep recurse merged heap (key, ref) = some (heap.modify merged fun cells => Assoc.set cells key ref) := by
  rw [mergeStep, stored]
  dsimp only
  split
  · rename_i override base isBase
    exact (plain override base ⟨rfl, isBase⟩).elim
  · rfl

/-- One turn of the loop assigns what the merge of values puts under the key. -/
theorem mergeStep_spec {value : Json} (right : MergesRight value) {heap : ObjectHeap} {hidden : Set ℕ} {merged : ℕ}
    {cells : Cells} {acc : JsonObject} {ref : Ref} (isHidden : merged ∈ hidden)
    (bounded : ∀ address ∈ hidden, address < heap.length) (stored : heap[merged]? = some cells)
    (holds : StandsForEntries heap hidden cells acc) (key : Key JsonNumber) (stands : StandsFor heap hidden ref value) :
    ∃ enough heap' cells', (∀ fuel ≥ enough, mergeStep (deepMergeAt fuel) merged heap (key, ref) = some heap') ∧
      KeepsBut (some merged) heap heap' ∧ heap'[merged]? = some cells' ∧
      StandsForEntries heap' hidden cells' (Assoc.set acc key (mergeValue (Assoc.get? acc key) value)) := by
  -- the value is stored as it is, unless it meets another object under the key
  have store (asIs : mergeValue (Assoc.get? acc key) value = value)
      (plain : ∀ override base, ¬(ref = .object override ∧ Assoc.get? cells key = some (.object base))) :
      ∃ enough heap' cells', (∀ fuel ≥ enough, mergeStep (deepMergeAt fuel) merged heap (key, ref) = some heap') ∧
        KeepsBut (some merged) heap heap' ∧ heap'[merged]? = some cells' ∧
        StandsForEntries heap' hidden cells' (Assoc.set acc key (mergeValue (Assoc.get? acc key) value)) := by
    obtain ⟨keeps, after, entries⟩ := assign_spec isHidden stored holds key stands
    rw [asIs]
    exact ⟨0, _, _, fun fuel _ => mergeStep_plain stored plain, keeps, after, entries⟩
  by_cases object : IsObject value
  · obtain ⟨override, rfl⟩ := object
    obtain ⟨overrideAt, overrideCells, rfl, visible, overrideStored, overrideEntries⟩ := standsFor_dict.mp stands
    rcases standsFor_get? holds key with ⟨noCell, noValue⟩ | ⟨baseRef, baseValue, atCell, atValue, standsBase⟩
    · refine store (by rw [noValue, mergeValue_none]) ?_
      rintro _ base ⟨_, found⟩
      cases noCell.symm.trans found
    · by_cases baseObject : IsObject baseValue
      · obtain ⟨base, rfl⟩ := baseObject
        obtain ⟨baseAt, _, rfl, _⟩ := standsFor_dict.mp standsBase
        obtain ⟨enough, heap', runs, keeps, result⟩ :=
          right override rfl heap hidden baseAt overrideAt base bounded standsBase stands
        have stored' : heap'[merged]? = some cells := by
          rw [keeps.cells merged (bounded merged isHidden) (Option.some_ne_none merged).symm, stored]
        have carries : Carries heap hidden heap' hidden := keeps.carries fun _ impossible => by cases impossible
        have holds' := holds.carry carries acc cells
        obtain ⟨keeps', after, entries⟩ := assign_spec isHidden stored' holds' key result
        refine ⟨enough, _, _, fun fuel large => ?_, (keeps.weaken (some merged)).trans keeps', after, ?_⟩
        · rw [mergeStep, stored]
          simp only [atCell, runs fuel large]
        · rw [atValue, mergeValue_dict]
          exact entries
      · have isPlain := (standsFor_of_not_object baseObject).mp standsBase
        refine store ?_ ?_
        · rw [atValue]
          cases baseValue with
          | dict data => exact (baseObject ⟨data, rfl⟩).elim
          | _ => simp [mergeValue]
        · rintro _ base ⟨_, found⟩
          rw [atCell, isPlain] at found
          cases found
  · refine store (mergeValue_of_not_object object _) ?_
    rintro override _ ⟨isObject, _⟩
    rw [(standsFor_of_not_object object).mp stands] at isObject
    cases isObject

/-- The loop over the entries of the override. -/
theorem foldlM_mergeStep_spec {override : JsonObject} (right : ∀ entry ∈ override, MergesRight entry.2)
    {heap : ObjectHeap} {hidden : Set ℕ} {merged : ℕ} {given cells : Cells} {acc : JsonObject} (isHidden : merged ∈ hidden)
    (bounded : ∀ address ∈ hidden, address < heap.length) (stored : heap[merged]? = some cells)
    (holds : StandsForEntries heap hidden cells acc) (reads : StandsForEntries heap hidden given override) :
    ∃ enough heap' cells', (∀ fuel ≥ enough, given.foldlM (mergeStep (deepMergeAt fuel) merged) heap = some heap') ∧
      KeepsBut (some merged) heap heap' ∧ heap'[merged]? = some cells' ∧
      StandsForEntries heap' hidden cells' (deepMerge acc override) := by
  induction override generalizing heap given cells acc with
  | nil =>
    rw [standsForEntries_nil reads, deepMerge]
    exact ⟨0, heap, cells, fun fuel _ => rfl, (KeepsBut.none_refl heap).weaken _, stored, holds⟩
  | cons entry override ih =>
    obtain ⟨key, value⟩ := entry
    obtain ⟨ref, rest, rfl, stands, later⟩ := standsForEntries_cons reads
    obtain ⟨enough, heap', cells', steps, keeps, stored', holds'⟩ :=
      mergeStep_spec (right (key, value) List.mem_cons_self) isHidden bounded stored holds key stands
    have carries : Carries heap hidden heap' hidden := keeps.carries_of_mem isHidden
    obtain ⟨enough', heap'', cells'', runs, keeps', stored'', holds''⟩ :=
      ih (fun entry member => right entry (List.mem_cons_of_mem _ member))
        (fun address member => (bounded address member).trans_le keeps.length) stored' holds'
        (later.carry carries override rest)
    refine ⟨max enough enough', heap'', cells'', fun fuel large => ?_, keeps.trans keeps', stored'', ?_⟩
    · rw [List.foldlM_cons, steps fuel (le_of_max_le_left large)]
      exact runs fuel (le_of_max_le_right large)
    · rw [deepMerge]
      exact holds''

/-- The copy made at the start is hidden from what it is filled with. -/
theorem mergesRight (value : Json) : MergesRight value := by
  induction size : sizeOf value using Nat.strong_induction_on generalizing value with
  | _ n smaller =>
    intro override isDict heap hidden baseAt overrideAt base bounded standsBase standsOverride
    have each : ∀ entry ∈ override, MergesRight entry.2 := by
      intro entry member
      obtain ⟨key, inner⟩ := entry
      have inside := List.sizeOf_lt_of_mem member
      have below : sizeOf inner < n := by
        rw [← size, isDict]
        simp only [Prod.mk.sizeOf_spec, Value.dict.sizeOf_spec] at inside ⊢
        omega
      exact smaller _ below inner rfl
    obtain ⟨_, inherited, sameBase, _, baseStored, baseEntries⟩ := standsFor_dict.mp standsBase
    obtain ⟨_, given, sameOverride, _, overrideStored, overrideEntries⟩ := standsFor_dict.mp standsOverride
    cases sameBase
    cases sameOverride
    have copied : KeepsBut none heap (heap ++ [inherited]) := by
      refine ⟨by simp, fun address bound _ => ?_⟩
      rw [List.getElem?_append_left bound]
    have carries : Carries heap hidden (heap ++ [inherited]) (insert heap.length hidden) := by
      intro address cells visible stored
      have bound := (List.getElem?_eq_some_iff.mp stored).1
      refine ⟨?_, by rw [List.getElem?_append_left bound, stored]⟩
      rintro (here | inside)
      · exact absurd here bound.ne
      · exact visible inside
    have fresh : (heap ++ [inherited])[heap.length]? = some inherited := by simp
    have bounded' : ∀ address ∈ insert heap.length hidden, address < (heap ++ [inherited]).length := by
      rintro address (rfl | inside)
      · simp
      · have bound := bounded address inside
        rw [List.length_append]
        omega
    obtain ⟨enough, heap', cells', runs, keeps, stored', holds'⟩ :=
      foldlM_mergeStep_spec each (Set.mem_insert _ _) bounded' fresh (baseEntries.carry carries base inherited)
        (overrideEntries.carry carries override given)
    refine ⟨enough + 1, heap', fun fuel large => ?_, ?_, ?_⟩
    · obtain ⟨fuel, rfl⟩ := Nat.exists_eq_add_of_le' (Nat.le_of_add_left_le large)
      simp only [deepMergeAt, baseStored, overrideStored, runs fuel (by omega)]
      rfl
    · refine ⟨copied.length.trans keeps.length, fun address bound other => ?_⟩
      rw [keeps.cells address (bound.trans_le copied.length) (fun same => bound.ne (Option.some.inj same).symm),
        copied.cells address bound other]
    · have visible : heap.length ∉ hidden := fun inside => lt_irrefl _ (bounded _ inside)
      refine standsFor_dict.mpr ⟨heap.length, cells', rfl, visible, stored', ?_⟩
      refine holds'.carry (fun address cells shown stored => ⟨?_, stored⟩) _ _
      exact fun inside => shown (Set.mem_insert_of_mem _ inside)

/-- A path is decided by the most derived configuration with a say on it. The
merge neither adds nor loses anything with an empty object or with itself, and in
memory it leaves all objects as they are. -/
theorem mergeChain_decided :
    (∀ (root : JsonObject) (derived : List JsonObject),
      (∀ config ∈ root :: derived, Value.WellFormed (.dict config : Json)) → ∀ (path : List String) (value : Json),
      ¬IsObject value → (atPath (.dict (mergeChain root derived)) path = some value ↔
        ∃ before config after, root :: derived = before ++ config :: after ∧ atPath (.dict config) path = some value ∧
          ∀ later ∈ after, ¬Decides later path)) ∧
    (∀ parent child : JsonObject, Value.WellFormed (.dict child : Json) → ∀ path, ¬Decides child path →
      atPath (.dict (deepMerge parent child)) path = atPath (.dict parent) path) ∧
    (∀ config : JsonObject, Value.WellFormed (.dict config : Json) →
      deepMerge config [] = config ∧ deepMerge [] config = config ∧ deepMerge config config = config) ∧
    (∀ (heap : ObjectHeap) (parentAt childAt : ℕ) (parent child : JsonObject),
      StandsFor heap ∅ (.object parentAt) (.dict parent) → StandsFor heap ∅ (.object childAt) (.dict child) →
      ∃ enough heap', (∀ fuel ≥ enough, deepMergeAt fuel heap parentAt childAt = some (heap', heap.length)) ∧
        StandsFor heap' ∅ (.object heap.length) (.dict (deepMerge parent child)) ∧
        (∀ address < heap.length, heap'[address]? = heap[address]?) ∧
        StandsFor heap' ∅ (.object parentAt) (.dict parent)) ∧
    ∀ (env : ConfigEnvironment) (fuel : ℕ) (path : PurePath) (seen : List String) (data : JsonObject),
      env.loadConfigData fuel path seen = some (.ok data) →
        ∃ root derived, env.Extends path root derived ∧ data = mergeChain root derived := by
  refine ⟨?_, ?_, ?_, ?_, ?_⟩
  · intro root derived wellFormed path value other
    exact atPath_mergeChain_iff root (fun config member => wellFormed config (List.mem_cons_of_mem _ member)) path other
  · intro parent child wellFormed path silent
    exact atPath_deepMerge_of_not_decides parent wellFormed silent
  · intro config wellFormed
    have distinct : (config.map Prod.fst).Nodup := by
      cases wellFormed with
      | dict distinct _ => exact distinct
    exact ⟨by rw [deepMerge], deepMerge_nil_left distinct, deepMerge_self wellFormed⟩
  · intro heap parentAt childAt parent child standsParent standsChild
    obtain ⟨enough, heap', runs, keeps, result⟩ := mergesRight (.dict child) child rfl heap ∅ parentAt childAt parent
      (fun _ impossible => impossible.elim) standsParent standsChild
    have carries : Carries heap ∅ heap' ∅ := keeps.carries fun _ impossible => by cases impossible
    refine ⟨enough, heap', runs, result, fun address bound => ?_, standsParent.carry carries _ _⟩
    exact keeps.cells address bound (Option.some_ne_none address).symm
  · intro env fuel path seen data loaded
    exact env.loadConfigData_mergeChain loaded

/-- A child that replaces an object by a text, and a grandchild that says nothing. -/
theorem mergeChain_decided_replaced :
    atPath (.dict (mergeChain [(.str "memory", .dict [(.str "mode", .str "audit_only")])]
      [[(.str "memory", .str "none")], []])) ["memory"] = some (.str "none") := by
  refine (mergeChain_decided.1 _ _ ?_ _ _ ?_).mpr ⟨[_], [(.str "memory", .str "none")], [[]], rfl,
    by simp [atPath_pair, JsonObject.get?, Assoc.get?], ?_⟩
  · intro config member
    simp only [List.mem_cons, List.not_mem_nil, or_false] at member
    rcases member with rfl | rfl | rfl
    · refine .dict (by decide) fun entry inside => ?_
      rw [List.mem_singleton.mp inside]
      refine .dict (by decide) fun entry inside => ?_
      rw [List.mem_singleton.mp inside]
      exact .str _
    · refine .dict (by decide) fun entry inside => ?_
      rw [List.mem_singleton.mp inside]
      exact .str _
    · exact .dict .nil fun entry inside => by cases inside
  · rintro ⟨data, impossible⟩
    cases impossible
  · intro later member
    rw [List.mem_singleton.mp member, decides_iff]
    simp [atPath_dict, blocksPath, JsonObject.get?, Assoc.get?]

end Centroid
