import Centroid.Lib.Dict
import Mathlib.Data.List.Induction
import Mathlib.Data.Rat.Defs

namespace Centroid

/-- An embedding function, none where it raises. -/
abbrev EmbeddingProvider (Vec : Type) : Type := String → Option Vec

/-- The variables of the module. -/
structure EmbeddingCache (Vec : Type) where
  provider : Option (EmbeddingProvider Vec)
  cache : Dict String Vec
  hits : ℕ
  misses : ℕ

structure EmbedAnswer (Vec : Type) where
  vector : Option Vec
  latencyMs : ℚ
  wasCacheHit : Bool

structure CacheStats where
  hits : ℕ
  misses : ℕ
  cacheSize : ℕ

/-- A call of the module, with the seconds that a provider takes in it. -/
inductive EmbedCall (Vec : Type) where
  | setEmbeddingProvider (provider : EmbeddingProvider Vec)
  | cachedEmbed (text : String) (elapsed : ℚ)
  | clearCache

namespace EmbeddingCache

variable {Vec : Type}

def initial : EmbeddingCache Vec := ⟨none, ∅, 0, 0⟩

section

variable (cacheKey : String → String)

def cachedEmbed (self : EmbeddingCache Vec) (text : String) (elapsed : ℚ) : EmbeddingCache Vec × EmbedAnswer Vec :=
  match self.provider with
  | none => (self, ⟨none, 0, false⟩)
  | some provider =>
    match self.cache.get? (cacheKey text) with
    | some vector => ({ self with hits := self.hits + 1 }, ⟨some vector, 0, true⟩)
    | none =>
      match provider text with
      | none => (self, ⟨none, elapsed * 1000, false⟩)
      | some vector =>
        ({ self with cache := self.cache.set (cacheKey text) vector, misses := self.misses + 1 },
          ⟨some vector, elapsed * 1000, false⟩)

def setEmbeddingProvider (self : EmbeddingCache Vec) (provider : EmbeddingProvider Vec) : EmbeddingCache Vec :=
  { self with provider := some provider }

def clearCache (self : EmbeddingCache Vec) : EmbeddingCache Vec := { self with cache := ∅, hits := 0, misses := 0 }

def cacheStats (self : EmbeddingCache Vec) : CacheStats := ⟨self.hits, self.misses, self.cache.size⟩

/-- One call, and its answer if it is one for a text. -/
def step (self : EmbeddingCache Vec) : EmbedCall Vec → EmbeddingCache Vec × Option (EmbedAnswer Vec)
  | .setEmbeddingProvider provider => (self.setEmbeddingProvider provider, none)
  | .cachedEmbed text elapsed =>
    let (next, answer) := self.cachedEmbed cacheKey text elapsed
    (next, some answer)
  | .clearCache => (self.clearCache, none)

/-- The state after some calls. -/
def run (self : EmbeddingCache Vec) (calls : List (EmbedCall Vec)) : EmbeddingCache Vec :=
  calls.foldl (fun self call => (self.step cacheKey call).1) self

/-- The answers to some calls, one after the other. -/
def answers (self : EmbeddingCache Vec) : List (EmbedCall Vec) → List (Option (EmbedAnswer Vec))
  | [] => []
  | call :: rest => (self.step cacheKey call).2 :: answers (self.step cacheKey call).1 rest

end

/-- The provider that is registered after some calls. -/
def registered (calls : List (EmbedCall Vec)) : Option (EmbeddingProvider Vec) :=
  (calls.filterMap fun
    | .setEmbeddingProvider provider => some provider
    | _ => none).getLast?

def IsClear : EmbedCall Vec → Prop
  | .clearCache => True
  | _ => False

/-- The answers that bring a vector. -/
def successes (answers : List (Option (EmbedAnswer Vec))) : ℕ :=
  (answers.filterMap fun answer => answer.bind EmbedAnswer.vector).length

/-- Calls that begin where the cache is empty and do not clear it. -/
def SinceClear (earlier recent : List (EmbedCall Vec)) : Prop :=
  (earlier = [] ∨ ∃ prior, earlier = prior ++ [.clearCache]) ∧ ∀ call ∈ recent, ¬ IsClear call

/-- What is expected of a sequence of calls: a text gets the vector of the
provider that is registered then, where that has one, and the counters tell the
answers with a vector since the last clear. -/
structure Coherent (cacheKey : String → String) (calls : List (EmbedCall Vec)) : Prop where
  current : ∀ before text elapsed rest provider vector, calls = before ++ .cachedEmbed text elapsed :: rest →
    registered before = some provider → provider text = some vector →
      ((initial.run cacheKey before).cachedEmbed cacheKey text elapsed).2.vector = some vector
  counted : ∀ earlier recent rest, calls = earlier ++ recent ++ rest → SinceClear earlier recent →
    ((initial : EmbeddingCache Vec).run cacheKey (earlier ++ recent)).cacheStats.hits +
      (initial.run cacheKey (earlier ++ recent)).cacheStats.misses =
        successes ((initial.run cacheKey earlier).answers cacheKey recent)

/-- Providers that are asked for one text, with no clear between, and have a
vector for it, have the same. -/
def ProvidersAgree (calls : List (EmbedCall Vec)) : Prop :=
  ∀ before text first between second rest earlier later vector other,
    calls = before ++ .cachedEmbed text first :: between ++ .cachedEmbed text second :: rest →
      (∀ call ∈ between, ¬ IsClear call) → registered before = some earlier →
        registered (before ++ .cachedEmbed text first :: between) = some later → earlier text = some vector →
          later text = some other → vector = other

section

variable {cacheKey : String → String} {self : EmbeddingCache Vec} {calls : List (EmbedCall Vec)} {text : String}
  {elapsed : ℚ}

theorem run_append (first second : List (EmbedCall Vec)) :
    self.run cacheKey (first ++ second) = (self.run cacheKey first).run cacheKey second :=
  List.foldl_append

theorem run_concat (first : List (EmbedCall Vec)) (call : EmbedCall Vec) :
    self.run cacheKey (first ++ [call]) = ((self.run cacheKey first).step cacheKey call).1 := by
  rw [run_append]
  rfl

/-- The three ways in which a call for a text changes the state. -/
theorem cachedEmbed_cases (cacheKey : String → String) (self : EmbeddingCache Vec) (text : String) (elapsed : ℚ) :
    ((self.cachedEmbed cacheKey text elapsed).1 = self ∧ (self.cachedEmbed cacheKey text elapsed).2.vector = none ∧
      ∀ provider, self.provider = some provider →
        self.cache.get? (cacheKey text) = none ∧ provider text = none) ∨
    (∃ provider vector, self.provider = some provider ∧ self.cache.get? (cacheKey text) = some vector ∧
      (self.cachedEmbed cacheKey text elapsed).1 = { self with hits := self.hits + 1 } ∧
        (self.cachedEmbed cacheKey text elapsed).2.vector = some vector) ∨
    (∃ provider vector, self.provider = some provider ∧ self.cache.get? (cacheKey text) = none ∧
      provider text = some vector ∧
      (self.cachedEmbed cacheKey text elapsed).1 =
        { self with cache := self.cache.set (cacheKey text) vector, misses := self.misses + 1 } ∧
        (self.cachedEmbed cacheKey text elapsed).2.vector = some vector) := by
  rcases Option.eq_none_or_eq_some self.provider with hasProvider | ⟨provider, hasProvider⟩
  · have idle : self.cachedEmbed cacheKey text elapsed = (self, ⟨none, 0, false⟩) := by
      simp only [cachedEmbed, hasProvider]
    rw [idle]
    refine Or.inl ⟨rfl, rfl, ?_⟩
    intro provider same
    rw [hasProvider] at same
    cases same
  · rcases Option.eq_none_or_eq_some (self.cache.get? (cacheKey text)) with stored | ⟨vector, stored⟩
    · rcases Option.eq_none_or_eq_some (provider text) with embedded | ⟨vector, embedded⟩
      · have raised : self.cachedEmbed cacheKey text elapsed = (self, ⟨none, elapsed * 1000, false⟩) := by
          simp only [cachedEmbed, hasProvider, stored, embedded]
        rw [raised]
        refine Or.inl ⟨rfl, rfl, ?_⟩
        intro other same
        rw [hasProvider] at same
        cases same
        exact ⟨stored, embedded⟩
      · have miss : self.cachedEmbed cacheKey text elapsed =
            ({ self with cache := self.cache.set (cacheKey text) vector, misses := self.misses + 1 },
              ⟨some vector, elapsed * 1000, false⟩) := by
          simp only [cachedEmbed, hasProvider, stored, embedded]
        rw [miss]
        exact Or.inr (Or.inr ⟨provider, vector, hasProvider, stored, embedded, rfl, rfl⟩)
    · have hit : self.cachedEmbed cacheKey text elapsed = ({ self with hits := self.hits + 1 }, ⟨some vector, 0, true⟩) := by
        simp only [cachedEmbed, hasProvider, stored]
      rw [hit]
      exact Or.inr (Or.inl ⟨provider, vector, hasProvider, stored, rfl, rfl⟩)

theorem cachedEmbed_provider : (self.cachedEmbed cacheKey text elapsed).1.provider = self.provider := by
  rcases cachedEmbed_cases cacheKey self text elapsed with ⟨same, _⟩ | ⟨_, _, _, _, same, _⟩ | ⟨_, _, _, _, _, same, _⟩ <;>
    rw [same]

theorem run_provider (calls : List (EmbedCall Vec)) : (initial.run cacheKey calls).provider = registered calls := by
  induction calls using List.reverseRecOn with
  | nil => rfl
  | append_singleton calls call ih =>
    rw [run_concat, registered, List.filterMap_append]
    cases call with
    | setEmbeddingProvider provider => simp [step, setEmbeddingProvider]
    | cachedEmbed text elapsed =>
      simp only [step, cachedEmbed_provider, ih, registered, List.filterMap_cons, List.filterMap_nil, List.append_nil]
    | clearCache =>
      simp only [step, clearCache, ih, registered, List.filterMap_cons, List.filterMap_nil, List.append_nil]

variable (cacheKey self) in
/-- An answer with a vector counts once, any other not at all. -/
theorem step_counts {call : EmbedCall Vec} (keeps : ¬ IsClear call) :
    (self.step cacheKey call).1.hits + (self.step cacheKey call).1.misses =
      self.hits + self.misses + successes [(self.step cacheKey call).2] := by
  cases call with
  | setEmbeddingProvider provider => rfl
  | clearCache => exact absurd trivial keeps
  | cachedEmbed text elapsed =>
    simp only [step, successes, List.filterMap_cons, List.filterMap_nil, Option.bind_some]
    rcases cachedEmbed_cases cacheKey self text elapsed with
      ⟨same, none, _⟩ | ⟨_, _, _, _, hit, found⟩ | ⟨_, _, _, _, _, miss, found⟩
    · rw [same, none]
      rfl
    · rw [hit, found]
      show self.hits + 1 + self.misses = self.hits + self.misses + 1
      omega
    · rw [miss, found]
      rfl

variable (cacheKey self) in
theorem run_counts {calls : List (EmbedCall Vec)} (keep : ∀ call ∈ calls, ¬ IsClear call) :
    (self.run cacheKey calls).hits + (self.run cacheKey calls).misses =
      self.hits + self.misses + successes (self.answers cacheKey calls) := by
  induction calls generalizing self with
  | nil => rfl
  | cons call rest ih =>
    obtain ⟨first, later⟩ := List.forall_mem_cons.mp keep
    have counted := step_counts cacheKey self first
    have counts := ih (self.step cacheKey call).1 later
    have parts : successes (self.answers cacheKey (call :: rest)) =
        successes [(self.step cacheKey call).2] + successes ((self.step cacheKey call).1.answers cacheKey rest) := by
      rw [successes, answers, ← List.singleton_append, List.filterMap_append, List.length_append]
      rfl
    rw [parts]
    show (((self.step cacheKey call).1).run cacheKey _).hits + (((self.step cacheKey call).1).run cacheKey _).misses = _
    omega

variable (cacheKey) in
theorem counters_of_sinceClear {earlier recent : List (EmbedCall Vec)} (since : SinceClear earlier recent) :
    (initial.run cacheKey earlier).hits = 0 ∧ (initial.run cacheKey earlier).misses = 0 := by
  rcases since.1 with rfl | ⟨prior, rfl⟩
  · exact ⟨rfl, rfl⟩
  · rw [run_concat]
    exact ⟨rfl, rfl⟩

/-- What is in the cache stays until it is cleared. -/
theorem step_keeps {call : EmbedCall Vec} (keeps : ¬ IsClear call) {key : String} {vector : Vec}
    (stored : self.cache.get? key = some vector) : (self.step cacheKey call).1.cache.get? key = some vector := by
  cases call with
  | setEmbeddingProvider provider => exact stored
  | clearCache => exact absurd trivial keeps
  | cachedEmbed text elapsed =>
    show (self.cachedEmbed cacheKey text elapsed).1.cache.get? key = some vector
    rcases cachedEmbed_cases cacheKey self text elapsed with
      ⟨same, _⟩ | ⟨_, _, _, _, hit, _⟩ | ⟨_, other, _, absent, _, miss, _⟩
    · rw [same]
      exact stored
    · rw [hit]
      exact stored
    · rw [miss, Dict.get?_set_of_ne _ other fun same => by rw [same, stored] at absent; cases absent]
      exact stored

variable (cacheKey) in
theorem run_keeps {calls : List (EmbedCall Vec)} (keep : ∀ call ∈ calls, ¬ IsClear call) {key : String} {vector : Vec}
    (stored : self.cache.get? key = some vector) : (self.run cacheKey calls).cache.get? key = some vector := by
  induction calls generalizing self with
  | nil => exact stored
  | cons call rest ih =>
    obtain ⟨first, later⟩ := List.forall_mem_cons.mp keep
    exact ih later (step_keeps first stored)

/-- A vector that was returned is in the cache. -/
theorem stored_of_returned {vector : Vec} (returned : (self.cachedEmbed cacheKey text elapsed).2.vector = some vector) :
    (self.cachedEmbed cacheKey text elapsed).1.cache.get? (cacheKey text) = some vector := by
  rcases cachedEmbed_cases cacheKey self text elapsed with
    ⟨_, none, _⟩ | ⟨_, found, _, stored, hit, same⟩ | ⟨_, found, _, _, _, miss, same⟩
  · rw [none] at returned
    cases returned
  · rw [hit, stored, ← same, returned]
  · rw [miss, Dict.get?_set_self, ← same, returned]

/-- A vector in the cache is what the provider of an earlier call had for the
text, with no clear since. -/
theorem origin_of_stored (injective : Function.Injective cacheKey) (calls : List (EmbedCall Vec)) {vector : Vec}
    (stored : (initial.run cacheKey calls).cache.get? (cacheKey text) = some vector) :
    ∃ before elapsed between provider, calls = before ++ .cachedEmbed text elapsed :: between ∧
      (∀ call ∈ between, ¬ IsClear call) ∧ registered before = some provider ∧ provider text = some vector := by
  induction calls using List.reverseRecOn with
  | nil => cases stored
  | append_singleton calls call ih =>
    have extend : (initial.run cacheKey calls).cache.get? (cacheKey text) = some vector → ¬ IsClear call →
        ∃ before elapsed between provider, calls ++ [call] = before ++ .cachedEmbed text elapsed :: between ∧
          (∀ call ∈ between, ¬ IsClear call) ∧ registered before = some provider ∧ provider text = some vector := by
      intro there keeps
      obtain ⟨before, elapsed, between, provider, rfl, keep, isRegistered, embeds⟩ := ih there
      refine ⟨before, elapsed, between ++ [call], provider, by simp, ?_, isRegistered, embeds⟩
      exact List.forall_mem_append.mpr ⟨keep, List.forall_mem_singleton.mpr keeps⟩
    rw [run_concat] at stored
    cases call with
    | setEmbeddingProvider provider => exact extend stored id
    | clearCache => cases stored
    | cachedEmbed other elapsed =>
      have stored : ((initial.run cacheKey calls).cachedEmbed cacheKey other elapsed).1.cache.get? (cacheKey text) =
          some vector := stored
      rcases cachedEmbed_cases cacheKey (initial.run cacheKey calls) other elapsed with
        ⟨same, _⟩ | ⟨_, _, _, _, hit, _⟩ | ⟨provider, fresh, isProvider, _, embeds, miss, _⟩
      · rw [same] at stored
        exact extend stored id
      · rw [hit] at stored
        exact extend stored id
      · rw [miss, Dict.get?_set] at stored
        by_cases here : other = text
        · subst here
          rw [if_pos rfl] at stored
          rw [run_provider] at isProvider
          exact ⟨calls, elapsed, [], provider, rfl, by simp, isProvider, embeds.trans stored⟩
        · rw [if_neg fun same => here (injective same)] at stored
          exact extend stored id

/-- The cache is coherent over exactly the sequences whose providers agree where
they are asked for one text between two clears. -/
theorem coherent_iff (injective : Function.Injective cacheKey) (calls : List (EmbedCall Vec)) :
    Coherent cacheKey calls ↔ ProvidersAgree calls := by
  constructor
  · intro coherent before text first between second rest earlier later vector other split keep
      isEarlier isLater embedsFirst embedsSecond
    have returned := coherent.current before text first (between ++ .cachedEmbed text second :: rest) earlier vector
      (by simpa using split) isEarlier embedsFirst
    have again := coherent.current (before ++ .cachedEmbed text first :: between) text second rest later other
      split isLater embedsSecond
    have stored := run_keeps cacheKey keep (stored_of_returned returned)
    have state : initial.run cacheKey (before ++ .cachedEmbed text first :: between) =
        ((initial.run cacheKey before).cachedEmbed cacheKey text first).1.run cacheKey between := run_append _ _
    rw [← state] at stored
    rcases cachedEmbed_cases cacheKey (initial.run cacheKey (before ++ .cachedEmbed text first :: between)) text second with
      ⟨_, none, _⟩ | ⟨_, found, _, there, _, same⟩ | ⟨_, _, _, absent, _⟩
    · rw [none] at again
      cases again
    · rw [stored] at there
      rw [same] at again
      exact Option.some.inj (there.trans again)
    · rw [stored] at absent
      cases absent
  · intro agree
    refine ⟨?_, ?_⟩
    · intro before text elapsed rest provider vector split isRegistered embeds
      have hasProvider : (initial.run cacheKey before).provider = some provider := (run_provider before).trans isRegistered
      rcases cachedEmbed_cases cacheKey (initial.run cacheKey before) text elapsed with
        ⟨_, _, raises⟩ | ⟨_, found, _, stored, _, same⟩ | ⟨other, found, isOther, _, embedded, _, same⟩
      · have := (raises provider hasProvider).2
        rw [embeds] at this
        cases this
      · obtain ⟨start, first, between, earlier, rfl, keep, isEarlier, embedded⟩ :=
          origin_of_stored injective before stored
        rw [same, agree start text first between elapsed rest earlier provider found vector split keep isEarlier
          isRegistered embedded embeds]
      · rw [hasProvider] at isOther
        cases isOther
        rw [same, ← embedded, embeds]
    · intro earlier recent rest _ since
      obtain ⟨noHits, noMisses⟩ := counters_of_sinceClear cacheKey since
      have counts := run_counts cacheKey (initial.run cacheKey earlier) since.2
      rw [noHits, noMisses] at counts
      rw [run_append]
      simpa [cacheStats] using counts

end

/-- The digest of the empty text, and texts apart from it for all others. -/
def exampleKey (text : String) : String :=
  if text = "" then "e3b0c44298fc1c149afbf4c8996fb92427ae41e4649b934ca495991b7852b855" else "#" ++ text

theorem exampleKey_injective : Function.Injective exampleKey := by
  have apart : ∀ text : String,
      "e3b0c44298fc1c149afbf4c8996fb92427ae41e4649b934ca495991b7852b855" ≠ "#" ++ text := by
    intro text same
    have heads := congrArg (fun key : String => key.toList.head?) same
    simp at heads
  intro first second same
  by_cases emptyFirst : first = ""
  · by_cases emptySecond : second = ""
    · rw [emptyFirst, emptySecond]
    · rw [exampleKey, exampleKey, if_pos emptyFirst, if_neg emptySecond] at same
      exact absurd same (apart second)
  · by_cases emptySecond : second = ""
    · rw [exampleKey, exampleKey, if_neg emptyFirst, if_pos emptySecond] at same
      exact absurd same.symm (apart first)
    · rw [exampleKey, exampleKey, if_neg emptyFirst, if_neg emptySecond] at same
      have lists := congrArg String.toList same
      rw [String.toList_append, String.toList_append] at lists
      exact String.toList_inj.mp (List.append_cancel_left lists)

theorem coherent_single :
    Coherent exampleKey [.setEmbeddingProvider fun _ => some 1, .cachedEmbed "" (1 / 100)] := by
  refine (coherent_iff exampleKey_injective _).mpr ?_
  intro before text first between second rest earlier later vector other split
  have lengths := congrArg List.length split
  simp only [List.length_append, List.length_cons, List.length_nil] at lengths
  rw [List.length_eq_zero_iff.mp (show before.length = 0 by omega)] at split
  cases split

def replacedCalls : List (EmbedCall ℕ) :=
  [.setEmbeddingProvider fun _ => some 1, .cachedEmbed "" (1 / 100), .setEmbeddingProvider fun _ => some 2,
    .cachedEmbed "" (1 / 100)]

/-- The second provider is answered for by the first. -/
theorem not_coherent_replacedCalls : ¬ Coherent exampleKey replacedCalls := by
  intro coherent
  have fresh := coherent.current [.setEmbeddingProvider fun _ => some 1, .cachedEmbed "" (1 / 100),
    .setEmbeddingProvider fun _ => some 2] "" (1 / 100) [] (fun _ => some 2) 2 rfl rfl rfl
  have stale : ((initial.run exampleKey [.setEmbeddingProvider fun _ => some 1, .cachedEmbed "" (1 / 100),
      .setEmbeddingProvider fun _ => some 2]).cachedEmbed exampleKey "" (1 / 100)).2.vector = some 1 := by
    decide +kernel
  rw [fresh] at stale
  cases stale

end EmbeddingCache

end Centroid
