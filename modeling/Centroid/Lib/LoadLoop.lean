import Centroid.Lib.Dict

universe u v w

namespace LoadLoop

variable {α ε : Type u} {κ β : Type v} [DecidableEq κ]

/-- A loop that reads items one after the other into a dictionary, and stops at
the first that cannot be read. What was read before it stays. -/
def run (read : α → Except ε (κ × β)) : List α → Dict κ β → Dict κ β × Option ε
  | [], loaded => (loaded, none)
  | item :: rest, loaded =>
    match read item with
    | .error e => (loaded, some e)
    | .ok (key, value) => run read rest (loaded.set key value)

/-- Each item is read as the pair at its place. -/
def Reads (read : α → Except ε (κ × β)) (items : List α) (pairs : List (κ × β)) : Prop :=
  List.Forall₂ (fun item pair => read item = .ok pair) items pairs

/-- Assign pairs one after the other. -/
def assign (loaded : Dict κ β) (pairs : List (κ × β)) : Dict κ β :=
  pairs.foldl (fun d pair => d.set pair.1 pair.2) loaded

variable {read : α → Except ε (κ × β)}

omit [DecidableEq κ] in
/-- Either every item can be read, or there is a first one that cannot. -/
theorem reads_or_fails (read : α → Except ε (κ × β)) (items : List α) :
    (∃ pairs, Reads read items pairs) ∨
      ∃ good bad rest pairs e, items = good ++ bad :: rest ∧ Reads read good pairs ∧ read bad = .error e := by
  induction items with
  | nil => exact Or.inl ⟨[], .nil⟩
  | cons item items ih =>
    cases first : read item with
    | error e => exact Or.inr ⟨[], item, items, [], e, rfl, .nil, first⟩
    | ok pair =>
      rcases ih with ⟨pairs, reads⟩ | ⟨good, bad, rest, pairs, e, split, reads, fails⟩
      · exact Or.inl ⟨pair :: pairs, .cons first reads⟩
      · exact Or.inr ⟨item :: good, bad, rest, pair :: pairs, e, by rw [split, List.cons_append], .cons first reads, fails⟩

theorem run_append {good : List α} {pairs : List (κ × β)} (reads : Reads read good pairs) (rest : List α)
    (loaded : Dict κ β) : run read (good ++ rest) loaded = run read rest (assign loaded pairs) := by
  induction reads generalizing loaded with
  | nil => rfl
  | @cons item pair items pairs first _ ih =>
    rw [List.cons_append, run, first]
    exact ih (loaded.set pair.1 pair.2)

theorem run_of_reads {items : List α} {pairs : List (κ × β)} (reads : Reads read items pairs) (loaded : Dict κ β) :
    run read items loaded = (assign loaded pairs, none) := by
  have whole := run_append reads [] loaded
  rwa [List.append_nil] at whole

theorem run_of_fails {good rest : List α} {bad : α} {pairs : List (κ × β)} {e : ε} (reads : Reads read good pairs)
    (fails : read bad = .error e) (loaded : Dict κ β) :
    run read (good ++ bad :: rest) loaded = (assign loaded pairs, some e) := by
  rw [run_append reads, run, fails]

omit [DecidableEq κ] in
theorem reads_unique {items : List α} {pairs other : List (κ × β)} (reads : Reads read items pairs)
    (also : Reads read items other) : pairs = other := by
  induction reads generalizing other with
  | nil =>
    cases also
    rfl
  | cons first _ ih =>
    cases also with
    | cons first' rest' =>
      rw [first, Except.ok.injEq] at first'
      rw [first', ih rest']

theorem assign_cons (loaded : Dict κ β) (pair : κ × β) (pairs : List (κ × β)) :
    assign loaded (pair :: pairs) = assign (loaded.set pair.1 pair.2) pairs := rfl

/-- Pairs under new and distinct keys are stored in their order. -/
theorem entries_assign {pairs : List (κ × β)} {loaded : Dict κ β}
    (distinct : (loaded.keys ++ pairs.map Prod.fst).Nodup) :
    (assign loaded pairs).entries = loaded.entries ++ pairs := by
  induction pairs generalizing loaded with
  | nil => exact (List.append_nil _).symm
  | cons pair pairs ih =>
    obtain ⟨key, value⟩ := pair
    have fresh : key ∉ loaded.keys := by
      intro stored
      exact (List.nodup_append'.mp distinct).2.2 stored (by simp)
    have stored := loaded.entries_set_of_not_mem fresh value
    have keys : (loaded.set key value).keys = loaded.keys ++ [key] := by
      rw [Dict.keys, stored, List.map_append]
      rfl
    have distinctLater : ((loaded.set key value).keys ++ pairs.map Prod.fst).Nodup := by
      rw [keys, List.append_assoc, List.singleton_append]
      exact distinct
    rw [assign_cons, ih distinctLater, stored, List.append_assoc, List.singleton_append]

/-- What is assigned under a key hides what was there. -/
theorem get?_assign {pairs : List (κ × β)} (distinct : (pairs.map Prod.fst).Nodup) (loaded : Dict κ β) (key : κ) :
    (assign loaded pairs).get? key = (Assoc.get? pairs key).or (loaded.get? key) := by
  induction pairs generalizing loaded with
  | nil => rfl
  | cons pair pairs ih =>
    obtain ⟨first, value⟩ := pair
    obtain ⟨fresh, restDistinct⟩ := List.nodup_cons.mp distinct
    rw [assign_cons, ih restDistinct, Dict.get?_set, Assoc.get?]
    by_cases here : first = key
    · subst here
      have absent : Assoc.get? pairs first = none := (Assoc.get?_eq_none_iff pairs first).mpr fresh
      rw [if_pos rfl, if_pos rfl, absent]
      rfl
    · rw [if_neg here, if_neg here]

theorem mem_assign {pairs : List (κ × β)} {loaded : Dict κ β} {entry : κ × β}
    (stored : entry ∈ (assign loaded pairs).entries) : entry ∈ loaded.entries ∨ entry ∈ pairs := by
  induction pairs generalizing loaded with
  | nil => exact Or.inl stored
  | cons pair pairs ih =>
    obtain ⟨key, value⟩ := pair
    obtain ⟨own, held⟩ := entry
    rcases ih stored with before | later
    · rw [Dict.mem_entries_iff, Dict.get?_set] at before
      split at before
      · rename_i same
        rw [← same, ← Option.some.inj before]
        exact Or.inr List.mem_cons_self
      · exact Or.inl ((Dict.mem_entries_iff _ _ _).mpr before)
    · exact Or.inr (List.mem_cons_of_mem _ later)

/-- A dictionary is what its own entries load. -/
theorem assign_entries (d : Dict κ β) : assign ∅ d.entries = d := by
  refine Dict.ext ?_
  rw [entries_assign]
  · rfl
  · exact d.distinct

theorem size_set_of_mem (loaded : Dict κ β) {key : κ} (stored : key ∈ loaded.keys) (value : β) :
    (loaded.set key value).size = loaded.size := by
  rw [Dict.size_eq, Dict.size_eq, loaded.keys_set_of_mem stored]

theorem size_assign_le (pairs : List (κ × β)) (loaded : Dict κ β) :
    (assign loaded pairs).size ≤ loaded.size + pairs.length := by
  induction pairs generalizing loaded with
  | nil => exact Nat.le_refl _
  | cons pair pairs ih =>
    have bound := ih (loaded.set pair.1 pair.2)
    have step := loaded.size_set_le pair.1 pair.2
    rw [assign_cons, List.length_cons]
    omega

theorem size_le_assign (pairs : List (κ × β)) (loaded : Dict κ β) : loaded.size ≤ (assign loaded pairs).size := by
  induction pairs generalizing loaded with
  | nil => exact Nat.le_refl _
  | cons pair pairs ih =>
    refine Nat.le_trans ?_ (ih (loaded.set pair.1 pair.2))
    rw [Dict.size_eq, Dict.size_eq, Dict.keys_set]
    split
    · exact Nat.le_refl _
    · rw [List.length_append]
      omega

/-- A key that is loaded twice costs an entry. -/
theorem size_assign_lt {pairs : List (κ × β)} (loaded : Dict κ β)
    (repeated : ¬ (loaded.keys ++ pairs.map Prod.fst).Nodup) :
    (assign loaded pairs).size < loaded.size + pairs.length := by
  induction pairs generalizing loaded with
  | nil =>
    rw [List.map_nil, List.append_nil] at repeated
    exact absurd loaded.distinct repeated
  | cons pair pairs ih =>
    obtain ⟨key, value⟩ := pair
    rw [assign_cons, List.length_cons]
    by_cases stored : key ∈ loaded.keys
    · have bound := size_assign_le pairs (loaded.set key value)
      rw [size_set_of_mem loaded stored] at bound
      dsimp only
      omega
    · have grown : (loaded.set key value).keys = loaded.keys ++ [key] := by
        rw [Dict.keys_set, if_neg stored]
      have later := ih (loaded.set key value) (by
        rw [grown, List.append_assoc, List.singleton_append]
        exact repeated)
      have step := loaded.size_set_le key value
      dsimp only
      omega

/-- A loaded dictionary has as values those of the pairs exactly where no key
is repeated. -/
theorem values_assign_iff (pairs : List (κ × β)) :
    (assign ∅ pairs).values = pairs.map Prod.snd ↔ (pairs.map Prod.fst).Nodup := by
  constructor
  · intro same
    by_contra repeated
    have less := size_assign_lt (∅ : Dict κ β) repeated
    have length := congrArg List.length same
    rw [Dict.values, List.length_map, List.length_map] at length
    have empty : (∅ : Dict κ β).size = 0 := rfl
    rw [Dict.size, length, empty] at less
    omega
  · intro distinct
    rw [Dict.values, entries_assign]
    · rfl
    · exact distinct

theorem assign_ne_empty {pairs : List (κ × β)} (some : pairs ≠ []) : (assign ∅ pairs) ≠ (∅ : Dict κ β) := by
  intro nothing
  cases pairs with
  | nil => exact some rfl
  | cons pair pairs =>
    have bound := size_le_assign pairs ((∅ : Dict κ β).set pair.1 pair.2)
    rw [← assign_cons, nothing] at bound
    exact absurd bound (Nat.not_succ_le_zero 0)

omit [DecidableEq κ] in
theorem not_reads_of_fails (good : List α) {rest : List α} {bad : α} {e : ε} (fails : read bad = .error e)
    (pairs : List (κ × β)) : ¬ Reads read (good ++ bad :: rest) pairs := by
  intro reads
  induction good generalizing pairs with
  | nil =>
    cases reads with
    | cons first _ =>
      rw [fails] at first
      cases first
  | cons item good ih =>
    cases reads with
    | cons _ later => exact ih _ later

/-- Every item is there, in its place. -/
def Whole (read : α → Except ε (κ × β)) (items : List α) (loaded : Dict κ β) : Prop :=
  ∃ pairs, Reads read items pairs ∧ loaded.values = pairs.map Prod.snd

/-- All items can be read, under distinct keys, or the first of them fails with
an error that is caught, where `clean` holds. -/
def Safe (read : α → Except ε (κ × β)) (caught : ε → Bool) (clean : Prop) (items : List α) : Prop :=
  (∃ pairs, Reads read items pairs ∧ (pairs.map Prod.fst).Nodup) ∨
    ∃ item rest e, items = item :: rest ∧ read item = .error e ∧ caught e = true ∧ clean

/-- A guarded load from nothing loads everything or, where `clean` holds,
nothing, exactly on the safe items. -/
theorem run_whole_or_empty_iff (read : α → Except ε (κ × β)) (caught : ε → Bool) (clean : Prop) (items : List α) :
    ((∀ e, (run read items ∅).2 = some e → caught e = true) ∧
      (Whole read items (run read items ∅).1 ∨ (run read items ∅).1 = ∅ ∧ clean)) ↔ Safe read caught clean items := by
  rcases reads_or_fails read items with ⟨pairs, reads⟩ | ⟨good, bad, rest, pairs, e, split, reads, fails⟩
  · rw [run_of_reads reads]
    constructor
    · rintro ⟨-, ⟨same, sameReads, values⟩ | ⟨empty, -⟩⟩
      · cases reads_unique reads sameReads
        exact Or.inl ⟨pairs, reads, (values_assign_iff pairs).mp values⟩
      · have none : pairs = [] := by
          by_contra some
          exact assign_ne_empty some empty
        exact Or.inl ⟨pairs, reads, none ▸ List.nodup_nil⟩
    · rintro (⟨same, sameReads, distinct⟩ | ⟨item, rest, e, rfl, fails, -, -⟩)
      · cases reads_unique reads sameReads
        refine ⟨?_, Or.inl ⟨pairs, reads, (values_assign_iff pairs).mpr distinct⟩⟩
        intro e raised
        cases raised
      · exact absurd reads (not_reads_of_fails [] fails pairs)
  · subst split
    rw [run_of_fails reads fails]
    constructor
    · rintro ⟨only, ⟨all, allReads, -⟩ | ⟨empty, clean⟩⟩
      · exact absurd allReads (not_reads_of_fails good fails all)
      · have none : pairs = [] := by
          by_contra some
          exact assign_ne_empty some empty
        subst none
        cases reads
        exact Or.inr ⟨bad, rest, e, rfl, fails, only e rfl, clean⟩
    · rintro (⟨all, allReads, -⟩ | ⟨item, later, other, first, failsFirst, isCaught, clean⟩)
      · exact absurd allReads (not_reads_of_fails good fails all)
      · cases reads with
        | nil =>
          rw [List.nil_append, List.cons.injEq] at first
          rw [← first.1, fails, Except.error.injEq] at failsFirst
          subst failsFirst
          refine ⟨?_, Or.inr ⟨rfl, clean⟩⟩
          intro raised same
          cases same
          exact isCaught
        | cons firstReads _ =>
          rw [List.cons_append, List.cons.injEq] at first
          rw [first.1, failsFirst] at firstReads
          cases firstReads

end LoadLoop
