import Centroid.Memory.RankedItems
import Centroid.Memory.Store

namespace Centroid

open Rounding

/-- The entries of two lists that are related, place by place, as one list. -/
theorem exists_related_pairs {α : Type} {related : α → α → Prop} {xs ys : List α} (same : List.Forall₂ related xs ys) :
    ∃ pairs : List { pair : α × α // related pair.1 pair.2 },
      pairs.map (fun pair => pair.1.1) = xs ∧ pairs.map (fun pair => pair.1.2) = ys := by
  induction same with
  | nil => exact ⟨[], rfl, rfl⟩
  | @cons x y xs ys first _ ih =>
    obtain ⟨pairs, left, right⟩ := ih
    exact ⟨⟨(x, y), first⟩ :: pairs, by rw [List.map_cons, left], by rw [List.map_cons, right]⟩

theorem related_through {α β γ : Type} {first : α → β → Prop} {second : β → γ → Prop} {both : α → γ → Prop}
    {xs : List α} {ys : List β} {zs : List γ} (left : List.Forall₂ first xs ys) (right : List.Forall₂ second ys zs)
    (compose : ∀ x y z, first x y → second y z → both x z) : List.Forall₂ both xs zs := by
  induction left generalizing zs with
  | nil =>
    rw [List.forall₂_nil_left_iff.mp right]
    exact .nil
  | cons here _ ih =>
    obtain ⟨z, zs, there, rest, rfl⟩ := List.forall₂_cons_left_iff.mp right
    exact .cons (compose _ _ _ here there) (ih rest)

section Compact

variable {α β : Type} (f : β → α)

theorem tierBucket_map (decided : List (β × TierDecision)) (tier : Tier) :
    tierBucket (decided.map fun pair => (f pair.1, pair.2)) tier =
      (tierBucket decided tier).map fun pair => (f pair.1, pair.2) := by
  rw [tierBucket, tierBucket, List.filter_map]
  exact (List.map_mergeSort (f := fun pair : β × TierDecision => (f pair.1, pair.2)) fun _ _ _ _ => rfl).symm

theorem countIn_map (docId : α → String) (retained : List β) (decisions : List TierDecision) (tier : Tier) :
    countIn docId (retained.map f) decisions tier = countIn (docId ∘ f) retained decisions tier := by
  rw [countIn, countIn, List.countP_map]
  rfl

/-- The compaction of images is the image of a compaction. -/
theorem compactDecided_map (docId : α → String) (capacity : TierCapacity) (decided : List (β × TierDecision)) :
    compactDecided docId capacity (decided.map fun pair => (f pair.1, pair.2)) =
      ((compactDecided (docId ∘ f) capacity decided).1.map f, (compactDecided (docId ∘ f) capacity decided).2.map f) := by
  have firsts : ∀ pairs : List (β × TierDecision),
      (pairs.map fun pair => (f pair.1, pair.2)).map Prod.fst = (pairs.map Prod.fst).map f := by
    intro pairs
    rw [List.map_map, List.map_map]
    rfl
  have decisions : (decided.map fun pair => (f pair.1, pair.2)).map Prod.snd = decided.map Prod.snd := by
    rw [List.map_map]
    rfl
  simp only [compactDecided, tierBucket_map, sliceTo_map, sliceFrom_map, firsts, decisions, countIn_map]
  split
  · simp only [← List.map_append, countIn_map]
    split
    · simp only [← List.map_append]
    · simp only [← List.map_append]
  · simp only [← List.map_append, countIn_map]
    split
    · simp only [← List.map_append]
    · simp only [← List.map_append]

end Compact

theorem MemoryPyramid.compact_map {β : Type} (tools : TextTools) (now : ℚ) (self : MemoryPyramid) (f : β → IndexEntry)
    (items : List β) :
    let kept := compactDecided (IndexEntry.docId ∘ f) self.capacity
      (items.map fun item => (item, classifyOne tools self.weights now (f item)))
    self.compact tools now (items.map f) = (kept.1.map f, kept.2.map f) := by
  have decided : (items.map f).zip (self.classifyAll tools now (items.map f)) =
      (items.map fun item => (item, classifyOne tools self.weights now (f item))).map fun pair => (f pair.1, pair.2) := by
    rw [classifyAll, ← List.map_prod_left_eq_zip, List.map_map, List.map_map]
    rfl
  rw [compact, decided]
  exact compactDecided_map f IndexEntry.docId self.capacity _

section Alike

variable (tools : TextTools)

/-- Entries that differ at most in metadata that nothing reads, and in how they
write the instant of their timestamp. -/
structure IndexEntry.Alike (a b : IndexEntry) : Prop where
  docId : a.docId = b.docId
  text : a.text = b.text
  source : a.source = b.source
  tokens : a.tokens = b.tokens
  tf : a.tf = b.tf
  eventType : a.eventType = b.eventType
  instant : instantOf tools a.timestamp = instantOf tools b.timestamp

variable {tools}

theorem IndexEntry.Alike.refl (a : IndexEntry) : a.Alike tools a := ⟨rfl, rfl, rfl, rfl, rfl, rfl, rfl⟩

theorem IndexEntry.Alike.symm {a b : IndexEntry} (alike : a.Alike tools b) : b.Alike tools a :=
  ⟨alike.docId.symm, alike.text.symm, alike.source.symm, alike.tokens.symm, alike.tf.symm, alike.eventType.symm,
    alike.instant.symm⟩

theorem IndexEntry.Alike.trans {a b c : IndexEntry} (left : a.Alike tools b) (right : b.Alike tools c) : a.Alike tools c :=
  ⟨left.docId.trans right.docId, left.text.trans right.text, left.source.trans right.source,
    left.tokens.trans right.tokens, left.tf.trans right.tf, left.eventType.trans right.eventType,
    left.instant.trans right.instant⟩

theorem IndexEntry.tokens_of_alike {xs ys : List IndexEntry} (alike : List.Forall₂ (Alike tools) xs ys) :
    xs.map tokens = ys.map tokens := by
  induction alike with
  | nil => rfl
  | cons first _ ih => rw [List.map_cons, List.map_cons, first.tokens, ih]

theorem IndexEntry.Alike.salience {a b : IndexEntry} (alike : a.Alike tools b) (weights : SalienceWeights) :
    computeSalience tools weights a = computeSalience tools weights b := by
  rw [computeSalience, computeSalience, alike.text, alike.source, alike.eventType]

theorem IndexEntry.Alike.decision {a b : IndexEntry} (alike : a.Alike tools b) (weights : SalienceWeights) (now : ℚ) :
    classifyOne tools weights now a = classifyOne tools weights now b := by
  have age : estimateAgeHours tools now a = estimateAgeHours tools now b := by
    rw [estimateAgeHours, estimateAgeHours, alike.instant]
  rw [classifyOne, classifyOne, alike.salience, age, alike.docId]

theorem IndexEntry.Alike.score {a b : IndexEntry} (alike : a.Alike tools b) (weights : SalienceWeights)
    (idf queryTf : Dict String ℚ) :
    retrievalScorer tools weights a queryTf (TfidfIndex.baseScore tools.math idf queryTf a) =
      retrievalScorer tools weights b queryTf (TfidfIndex.baseScore tools.math idf queryTf b) := by
  rw [retrievalScorer, retrievalScorer, alike.salience, TfidfIndex.baseScore, TfidfIndex.baseScore, alike.tf]

end Alike

/-- What a search says of a document beside its provenance. -/
structure Finding where
  docId : String
  score : ℚ
  content : String
  source : String
  eventType : String
  salience : ℚ

def SearchResult.finding (result : SearchResult) : Finding :=
  ⟨result.docId, result.score, result.content, result.source, result.eventType, result.salience⟩

namespace MemoryStore

variable (tools : TextTools)

/-- Stores that hold the same as far as anything is read of it, the provenance
apart. -/
structure Alike (a b : MemoryStore) : Prop where
  entries : List.Forall₂ (IndexEntry.Alike tools) a.index.entries b.index.entries
  idf : a.index.idf = b.index.idf
  pyramid : a.pyramid = b.pyramid

/-- What is found does not depend on the provenance. -/
theorem findings_collect (now : ℚ) (raw : List (IndexEntry × ℚ)) (provenance : Dict String ProvenanceRecord) :
    (collect tools now raw provenance).2.map SearchResult.finding = raw.map fun pair =>
      ⟨pair.1.docId, pair.2, pair.1.text, pair.1.source, pair.1.eventType, computeSalience tools defaultWeights pair.1⟩ := by
  induction raw generalizing provenance with
  | nil => rfl
  | cons pair raw ih =>
    rw [collect, List.map_cons, List.map_cons, ih]
    rfl

variable {tools}

/-- The score of an entry in a search of the store. -/
def queryScore (tools : TextTools) (idf : Dict String ℚ) (query : String) (entry : IndexEntry) : ℚ :=
  let queryTf := computeTf tools.math (tokenize tools query)
  retrievalScorer tools defaultWeights entry queryTf (TfidfIndex.baseScore tools.math idf queryTf entry)

/-- Alike stores find the same pairs of alike entries with the same scores. -/
theorem Alike.raw {a b : MemoryStore} (alike : Alike tools a b) (query : String) (topK : ℤ) :
    ∃ found : List ({ pair : IndexEntry × IndexEntry // pair.1.Alike tools pair.2 } × ℚ),
      a.index.search tools tools.math query topK (some (retrievalScorer tools defaultWeights)) =
          found.map (fun pair => (pair.1.1.1, pair.2)) ∧
        b.index.search tools tools.math query topK (some (retrievalScorer tools defaultWeights)) =
          found.map fun pair => (pair.1.1.2, pair.2) := by
  obtain ⟨pairs, left, right⟩ := exists_related_pairs alike.entries
  have same : queryScore tools a.index.idf query ∘
        (fun pair : { pair : IndexEntry × IndexEntry // pair.1.Alike tools pair.2 } => pair.1.1) =
      queryScore tools b.index.idf query ∘ fun pair => pair.1.2 := by
    funext pair
    rw [alike.idf]
    exact pair.2.score defaultWeights _ _
  have ranked := TfidfIndex.ranked_map (queryScore tools a.index.idf query)
    (fun pair : { pair : IndexEntry × IndexEntry // pair.1.Alike tools pair.2 } => pair.1.1) pairs topK
  have ranked' := TfidfIndex.ranked_map (queryScore tools b.index.idf query)
    (fun pair : { pair : IndexEntry × IndexEntry // pair.1.Alike tools pair.2 } => pair.1.2) pairs topK
  rw [left] at ranked
  rw [right, ← same] at ranked'
  exact ⟨_, ranked, ranked'⟩

/-- Alike stores find the same, whatever has been retrieved from them before. -/
theorem Alike.findings {a b : MemoryStore} (alike : Alike tools a b) (now : ℚ) (query : String) (topK : ℤ) :
    (a.search tools now query topK).2.map SearchResult.finding =
      (b.search tools now query topK).2.map SearchResult.finding := by
  obtain ⟨found, left, right⟩ := alike.raw query topK
  rw [search, search, left, right]
  simp only [findings_collect, List.map_map]
  refine List.map_congr_left fun pair _ => ?_
  have same := pair.1.2
  simp only [Function.comp_apply, same.docId, same.text, same.source, same.eventType, same.salience]

/-- With the same provenance they return the same results, and keep the same
provenance. -/
theorem Alike.search {a b : MemoryStore} (alike : Alike tools a b) (provenance : a.provenance = b.provenance) (now : ℚ)
    (query : String) (topK : ℤ) :
    (a.search tools now query topK).2 = (b.search tools now query topK).2 ∧
      (a.search tools now query topK).1.provenance = (b.search tools now query topK).1.provenance := by
  obtain ⟨found, left, right⟩ := alike.raw query topK
  have both : ∀ provenance, collect tools now (found.map fun pair => (pair.1.1.1, pair.2)) provenance =
      collect tools now (found.map fun pair => (pair.1.1.2, pair.2)) provenance := by
    clear left right
    induction found with
    | nil => exact fun _ => rfl
    | cons pair found ih =>
      obtain ⟨⟨⟨x, y⟩, same⟩, score⟩ := pair
      intro provenance
      have record : retrieve tools now provenance x = retrieve tools now provenance y := by
        rw [retrieve, retrieve, same.docId, same.source]
      rw [List.map_cons, List.map_cons, collect, collect]
      dsimp only at same ⊢
      rw [record, ih, same.docId, same.text, same.source, same.eventType, same.salience]
  rw [MemoryStore.search, MemoryStore.search, left, right, provenance]
  dsimp only
  rw [both]
  exact ⟨rfl, rfl⟩

/-- Alike stores retain and evict the same documents. -/
theorem Alike.compact {a b : MemoryStore} (alike : Alike tools a b) (now : ℚ) :
    a.compact tools now = b.compact tools now := by
  obtain ⟨pairs, left, right⟩ := exists_related_pairs alike.entries
  have ids : IndexEntry.docId ∘ (fun pair : { pair : IndexEntry × IndexEntry // pair.1.Alike tools pair.2 } => pair.1.1) =
      IndexEntry.docId ∘ fun pair => pair.1.2 := funext fun pair => pair.2.docId
  have decisions : (fun pair : { pair : IndexEntry × IndexEntry // pair.1.Alike tools pair.2 } =>
      (pair, classifyOne tools b.pyramid.weights now pair.1.1)) =
      fun pair => (pair, classifyOne tools b.pyramid.weights now pair.1.2) :=
    funext fun pair => by rw [pair.2.decision]
  rw [MemoryStore.compact, MemoryStore.compact, alike.pyramid, ← left, ← right, MemoryPyramid.compact_map,
    MemoryPyramid.compact_map]
  dsimp only
  rw [List.map_map, List.map_map, List.map_map, List.map_map, ids, decisions]

theorem Alike.tierCounts {a b : MemoryStore} (alike : Alike tools a b) (now : ℚ) :
    a.tierCounts tools now = b.tierCounts tools now := by
  obtain ⟨pairs, left, right⟩ := exists_related_pairs alike.entries
  have decisions : a.pyramid.classifyAll tools now a.index.entries = b.pyramid.classifyAll tools now b.index.entries := by
    rw [MemoryPyramid.classifyAll, MemoryPyramid.classifyAll, alike.pyramid, ← left, ← right, List.map_map, List.map_map]
    exact List.map_congr_left fun pair _ => pair.2.decision _ now
  rw [MemoryStore.tierCounts, MemoryStore.tierCounts, decisions]

end MemoryStore

end Centroid
