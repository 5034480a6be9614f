import Centroid.Fusion.ConceptGraph
import Centroid.Memory.RankedItems
import Centroid.Memory.WeightedTerms

namespace Centroid

open Rounding

/-- Cross-modal perceptual similarity engine. -/
structure LatentProjector (K : Type) where
  index : TfidfIndex K
  docIds : Finset String

structure KeyError where
  message : String

inductive ProjectorCall where
  | add (perceived : SensedText)
  | addBatch (perceivedList : List SensedText)

/-- The texts that a call indexes. -/
def ProjectorCall.texts : ProjectorCall → List SensedText
  | .add perceived => [perceived]
  | .addBatch perceivedList => perceivedList

/-- The texts that some calls index, in their order. -/
def indexedTexts (calls : List ProjectorCall) : List SensedText := calls.flatMap ProjectorCall.texts

namespace LatentProjector

variable {K : Type}

def init (index : Option (TfidfIndex K) := none) : LatentProjector K := ⟨index.getD .empty, ∅⟩

variable [Field K] (tools : TextTools) (math : MathTools K)

/-- One text goes into the index, which keeps its table. -/
def insertText (self : LatentProjector K) (perceived : SensedText) : LatentProjector K :=
  ⟨self.index.add tools math perceived.sourceId perceived.content perceived.sourceKind.name ∅,
    insert perceived.sourceId self.docIds⟩

def recompute (self : LatentProjector K) : LatentProjector K := { self with index := self.index.recomputeIdf math }

def add (self : LatentProjector K) (perceived : SensedText) : LatentProjector K :=
  (self.insertText tools math perceived).recompute math

def addBatch (self : LatentProjector K) (perceivedList : List SensedText) : LatentProjector K :=
  (perceivedList.foldl (insertText tools math) self).recompute math

def call (self : LatentProjector K) : ProjectorCall → LatentProjector K
  | .add perceived => self.add tools math perceived
  | .addBatch perceivedList => self.addBatch tools math perceivedList

/-- What some calls make of a projector of its own index. -/
def run (calls : List ProjectorCall) : LatentProjector K := calls.foldl (call tools math) init

def notIndexed (sourceId : String) : KeyError := ⟨"source_id '" ++ sourceId ++ "' not in index — call add() first"⟩

variable [LinearOrder K] [FloorRing K]

/-- The table is made anew from the tokens of the entries. -/
def similarity (self : LatentProjector K) (a b : SensedText) : Except KeyError K :=
  if a.sourceId ∉ self.docIds then .error (notIndexed a.sourceId)
  else if b.sourceId ∉ self.docIds then .error (notIndexed b.sourceId)
  else
    let idf := computeIdf math (self.index.entries.map IndexEntry.tokens)
    let aVec := TfidfIndex.weigh idf (computeTf math (tokenize tools a.content))
    let bVec := TfidfIndex.weigh idf (computeTf math (tokenize tools b.content))
    .ok (roundTo 6 (sparseCosine math aVec bVec))

def search (self : LatentProjector K) (queryText : String) (topK : ℤ) : List (String × K) :=
  (self.index.search tools math queryText topK none).map fun found => (found.1.docId, found.2)

def crossModalSearch (self : LatentProjector K) (perceived : SensedText) (topK : ℤ) : List (String × K) :=
  self.search tools math perceived.content topK

end LatentProjector

/-- The documents that the table of some texts is made of. -/
def documentsOf (tools : TextTools) (texts : List SensedText) : List (List String) :=
  texts.map fun perceived => tokenize tools perceived.content

/-- The similarity of two texts among some, before it is rounded. -/
def textCosine {K : Type} [Field K] [DecidableEq K] (tools : TextTools) (math : MathTools K) (texts : List SensedText)
    (a b : SensedText) : K :=
  cosineIn math (documentsOf tools texts) (tokenize tools a.content) (tokenize tools b.content)

namespace LatentProjector

section Indexed

variable {K : Type} [Field K] (tools : TextTools) (math : MathTools K)

/-- The entry of a text. -/
def entryOf (perceived : SensedText) : IndexEntry K :=
  TfidfIndex.entryOf tools math perceived.sourceId perceived.content perceived.sourceKind.name ∅

/-- The entries and the ids of a projector are those of some texts. -/
structure Holds (projector : LatentProjector K) (texts : List SensedText) : Prop where
  entries : projector.index.entries = texts.map (entryOf tools math)
  docIds : ∀ id, id ∈ projector.docIds ↔ ∃ q ∈ texts, q.sourceId = id

/-- The table is that of the entries, too. -/
structure Indexed (projector : LatentProjector K) (texts : List SensedText) : Prop extends
    Holds tools math projector texts where
  idf : projector.index.idf = computeIdf math (documentsOf tools texts)

variable {tools math} {self : LatentProjector K} {texts : List SensedText}

theorem Holds.insertText (held : Holds tools math self texts) (perceived : SensedText) :
    Holds tools math (self.insertText tools math perceived) (texts ++ [perceived]) where
  entries := by
    rw [List.map_append, ← held.entries]
    rfl
  docIds := by
    intro id
    rw [LatentProjector.insertText, Finset.mem_insert, held.docIds]
    simp only [List.mem_append, List.mem_singleton, or_and_right, exists_or, exists_eq_left, eq_comm (a := id)]
    exact or_comm

theorem Holds.foldl_insertText (held : Holds tools math self texts) (more : List SensedText) :
    Holds tools math (more.foldl (LatentProjector.insertText tools math) self) (texts ++ more) := by
  induction more generalizing self texts with
  | nil => rwa [List.append_nil]
  | cons perceived more ih =>
    have step := ih (held.insertText perceived)
    rwa [List.append_assoc] at step

theorem Holds.documents (held : Holds tools math self texts) :
    self.index.entries.map IndexEntry.tokens = documentsOf tools texts := by
  rw [held.entries, List.map_map]
  rfl

theorem Holds.recompute (held : Holds tools math self texts) : Indexed tools math (self.recompute math) texts where
  entries := held.entries
  docIds := held.docIds
  idf := congrArg (computeIdf math) held.documents

/-- A single text is a batch of one. -/
theorem Indexed.call (indexed : Indexed tools math self texts) (c : ProjectorCall) :
    Indexed tools math (self.call tools math c) (texts ++ c.texts) := by
  cases c with
  | add perceived => exact (indexed.toHolds.insertText perceived).recompute
  | addBatch perceivedList => exact (indexed.toHolds.foldl_insertText perceivedList).recompute

theorem indexed_init : Indexed tools math (init : LatentProjector K) [] where
  entries := rfl
  docIds := by simp [init]
  idf := rfl

variable (tools math)

/-- After any calls the projector holds the texts of the calls. -/
theorem indexed_run (calls : List ProjectorCall) : Indexed tools math (run tools math calls) (indexedTexts calls) := by
  induction calls using List.reverseRecOn with
  | nil => exact indexed_init
  | append_singleton calls c ih =>
    have step := ih.call c
    rw [run, List.foldl_append]
    rwa [indexedTexts, List.flatMap_append, List.flatMap_singleton]

end Indexed

section Agree

variable {K : Type} [Field K] [LinearOrder K] [FloorRing K] {tools : TextTools} {math : MathTools K}
  {self : LatentProjector K} {texts : List SensedText}

/-- The pairwise path, on indexed texts. -/
theorem Indexed.similarity (indexed : Indexed tools math self texts) {p q : SensedText} (memberP : p ∈ texts)
    (memberQ : q ∈ texts) : self.similarity tools math p q = .ok (roundTo 6 (textCosine tools math texts p q)) := by
  have knownP : p.sourceId ∈ self.docIds := (indexed.docIds _).mpr ⟨p, memberP, rfl⟩
  have knownQ : q.sourceId ∈ self.docIds := (indexed.docIds _).mpr ⟨q, memberQ, rfl⟩
  rw [LatentProjector.similarity, if_neg (not_not_intro knownP), if_neg (not_not_intro knownQ), indexed.documents]
  rfl

/-- The search path: the indexed texts ranked by their cosines. -/
theorem Indexed.crossModalSearch (indexed : Indexed tools math self texts) (p : SensedText) (topK : ℤ) :
    self.crossModalSearch tools math p topK =
      (TfidfIndex.ranked (textCosine tools math texts p) topK texts).map fun found => (found.1.sourceId, found.2) := by
  have scores : (fun entry => TfidfIndex.baseScore math self.index.idf
      (computeTf math (tokenize tools p.content)) entry) ∘ entryOf tools math = textCosine tools math texts p := by
    funext q
    rw [indexed.idf]
    rfl
  rw [LatentProjector.crossModalSearch, search, TfidfIndex.search, indexed.entries]
  dsimp only
  rw [TfidfIndex.ranked_map, scores, List.map_map]
  rfl

end Agree

/-- The search for an indexed text and the similarities of the pairs agree, on the
real numbers. -/
theorem crossModalSearch_agrees (tools : TextTools) (calls : List ProjectorCall) (p : SensedText)
    (member : p ∈ indexedTexts calls) (topK : ℤ) :
    let projector := run tools .real calls
    let results := projector.crossModalSearch tools .real p topK
    (results.Pairwise fun r s => s.2 ≤ r.2) ∧
      (∀ r ∈ results, ∃ q ∈ indexedTexts calls, q.sourceId = r.1 ∧ projector.similarity tools .real p q = .ok r.2) ∧
      ((projector.index.size : ℤ) ≤ topK → ∃ scores : SensedText → ℝ,
        (∀ q ∈ indexedTexts calls, projector.similarity tools .real p q = .ok (scores q)) ∧
          results.Perm (((indexedTexts calls).filter fun q => 0 < textCosine tools .real (indexedTexts calls) p q).map
            fun q => (q.sourceId, scores q))) := by
  intro projector results
  have indexed : Indexed tools .real projector (indexedTexts calls) := indexed_run tools .real calls
  have found : results = _ := indexed.crossModalSearch p topK
  refine ⟨?_, ?_, ?_⟩
  · rw [found, List.pairwise_map]
    exact TfidfIndex.ranked_descending _ _ topK
  · intro r listed
    rw [found] at listed
    obtain ⟨⟨q, s⟩, ranked, rfl⟩ := List.mem_map.mp listed
    obtain ⟨inTexts, rounded⟩ := TfidfIndex.mem_ranked _ _ ranked
    refine ⟨q, inTexts, rfl, ?_⟩
    rw [indexed.similarity member inTexts]
    exact congrArg Except.ok rounded.symm
  · intro room
    refine ⟨fun q => roundTo 6 (textCosine tools .real (indexedTexts calls) p q),
      fun q inTexts => indexed.similarity member inTexts, ?_⟩
    have size : projector.index.size = (indexedTexts calls).length := by
      rw [TfidfIndex.size, indexed.entries, List.length_map]
    rw [size] at room
    rw [found]
    refine ((TfidfIndex.ranked_perm _ _ room).map _).trans ?_
    rw [List.map_map]
    exact List.Perm.refl _

def cacheText : SensedText := ⟨⟨"cache latency", "cache.py"⟩, .code, 0⟩

def driftText : SensedText := ⟨⟨"sensor drift", "drift.md"⟩, .code, 0⟩

/-- Another text of the source of the first. -/
def movedText : SensedText := ⟨⟨"latency cache", "cache.py"⟩, .code, 1⟩

/-- A batch of two texts, and a third that repeats an id. -/
def repeatedCalls : List ProjectorCall := [.addBatch [cacheText, driftText], .add movedText]

theorem textCosine_repeated :
    textCosine MemoryStore.epochTools .real (indexedTexts repeatedCalls) cacheText cacheText = 1 ∧
      textCosine MemoryStore.epochTools .real (indexedTexts repeatedCalls) cacheText driftText = 0 ∧
      textCosine MemoryStore.epochTools .real (indexedTexts repeatedCalls) cacheText movedText = 1 := by
  have words : tokenize MemoryStore.epochTools cacheText.content ≠ [] := by decide +kernel
  have moved : (tokenize MemoryStore.epochTools cacheText.content).Perm
      (tokenize MemoryStore.epochTools movedText.content) := by decide +kernel
  have apart : Disjoint (tokenize MemoryStore.epochTools cacheText.content).toFinset
      (tokenize MemoryStore.epochTools driftText.content).toFinset := by decide +kernel
  exact ⟨cosineIn_of_perm _ (List.Perm.refl _) words, (cosineIn_eq_zero_iff _ _ _).mpr apart,
    cosineIn_of_perm _ moved words⟩

/-- The search finds both texts of the id, and not the one without a common word. -/
theorem crossModalSearch_agrees_repeated :
    (run MemoryStore.epochTools .real repeatedCalls).crossModalSearch MemoryStore.epochTools .real cacheText 5 =
        [("cache.py", 1), ("cache.py", 1)] ∧
      (run MemoryStore.epochTools .real repeatedCalls).similarity MemoryStore.epochTools .real cacheText driftText =
        .ok 0 := by
  have first : cacheText ∈ indexedTexts repeatedCalls := List.mem_cons_self
  have second : driftText ∈ indexedTexts repeatedCalls := List.mem_cons_of_mem _ List.mem_cons_self
  have third : movedText ∈ indexedTexts repeatedCalls := List.mem_of_getLast? rfl
  have indexed := indexed_run MemoryStore.epochTools .real repeatedCalls
  obtain ⟨same, unlike, reordered⟩ := textCosine_repeated
  have agrees := crossModalSearch_agrees MemoryStore.epochTools repeatedCalls cacheText first 5
  obtain ⟨scores, similar, found⟩ := agrees.2.2 (by rw [TfidfIndex.size, indexed.entries]; decide)
  have scored : ∀ q ∈ indexedTexts repeatedCalls, scores q =
      roundTo 6 (textCosine MemoryStore.epochTools .real (indexedTexts repeatedCalls) cacheText q) := by
    intro q member
    exact Except.ok.inj ((similar q member).symm.trans (indexed.similarity first member))
  constructor
  · have kept : (indexedTexts repeatedCalls).filter (fun q =>
        0 < textCosine MemoryStore.epochTools .real (indexedTexts repeatedCalls) cacheText q) = [cacheText, movedText] := by
      change [cacheText, driftText, movedText].filter _ = _
      rw [List.filter_cons_of_pos (by rw [same]; exact decide_eq_true one_pos),
        List.filter_cons_of_neg (by rw [unlike]; simp),
        List.filter_cons_of_pos (by rw [reordered]; exact decide_eq_true one_pos), List.filter_nil]
    rw [kept, List.map_cons, List.map_singleton, scored _ first, scored _ third, same, reordered, roundTo_one] at found
    exact (List.perm_replicate (n := 2)).mp found
  · rw [indexed.similarity first second, unlike, roundTo]
    simp [halfEven]

end LatentProjector

end Centroid
