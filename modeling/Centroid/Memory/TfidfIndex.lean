import Centroid.Lib.Dict
import Centroid.Lib.Rounding
import Mathlib.Data.List.Dedup

/-- `items[:stop]`. -/
def sliceTo {α : Type} (stop : ℤ) (items : List α) : List α :=
  items.take (if 0 ≤ stop then stop else items.length + stop).toNat

/-- `items[start:]`. -/
def sliceFrom {α : Type} (start : ℤ) (items : List α) : List α :=
  items.drop (if 0 ≤ start then start else items.length + start).toNat

theorem sliceTo_map {α β : Type} (f : α → β) (stop : ℤ) (items : List α) :
    sliceTo stop (items.map f) = (sliceTo stop items).map f := by
  rw [sliceTo, sliceTo, List.length_map, List.map_take]

theorem sliceFrom_map {α β : Type} (f : α → β) (start : ℤ) (items : List α) :
    sliceFrom start (items.map f) = (sliceFrom start items).map f := by
  rw [sliceFrom, sliceFrom, List.length_map, List.map_drop]

theorem sliceFrom_neg {α : Type} (limit : ℕ) (items : List α) :
    sliceFrom (-(limit : ℤ)) items = if limit = 0 then items else items.drop (items.length - limit) := by
  rw [sliceFrom]
  split
  · have none : limit = 0 := by omega
    rw [if_pos none, none]
    exact List.drop_zero
  · have some : limit ≠ 0 := by omega
    rw [if_neg some]
    congr 1
    omega

namespace Centroid

open Rounding

/-- A time as it is read from a text, in seconds, in UTC where the text names
no zone. -/
structure IsoTime where
  instant : ℚ
  aware : Bool

/-- The functions of `math` that the similarities are computed with, on the
numbers of a field. -/
structure MathTools (K : Type) where
  log : K → K
  sqrt : K → K

/-- What the memory takes from the standard library and is left open here. -/
structure TextTools extends math : MathTools ℚ where
  lower : String → String
  lower_empty : lower "" = ""
  isWord : Char → Bool
  isoformat : ℚ → String
  fromisoformat : String → Option IsoTime

def stopWords : List String :=
  ["the", "a", "an", "and", "or", "but", "in", "on", "at", "to", "for", "of", "with", "is", "are", "was", "were", "be",
    "been", "being", "have", "has", "had", "do", "does", "did", "will", "would", "shall", "should", "may", "might",
    "must", "can", "could", "it", "its", "they", "them", "their", "we", "us", "our", "you", "your", "he", "she", "his",
    "her", "this", "that", "these", "those", "from", "by", "as", "if", "not", "no", "so", "all", "any", "each", "every",
    "both", "few", "many", "much", "some", "such"]

/-- `tokenize`. The pattern finds the runs of word characters that are two or
more small Latin letters and nothing else. -/
def tokenize (tools : TextTools) (text : String) : List String :=
  let runs := (tools.lower text).toList.splitOnP fun c => !tools.isWord c
  let tokens := runs.filter fun run => 2 ≤ run.length ∧ run.all fun c => 'a' ≤ c ∧ c ≤ 'z'
  (tokens.map String.ofList).filter fun token => token ∉ stopWords

/-- `Counter.update`. -/
def countAll (counts : Dict String ℕ) (terms : List String) : Dict String ℕ :=
  terms.foldl (fun counts term => counts.set term ((counts.get? term).getD 0 + 1)) counts

section Weights

variable {K : Type} [Field K] (math : MathTools K)

/-- `compute_tf`. -/
def computeTf (tokens : List String) : Dict String K :=
  let total : ℕ := if tokens.length = 0 then 1 else tokens.length
  (countAll ∅ tokens).mapValues fun _ (freq : ℕ) => math.log (1 + (freq : K) / total)

/-- `compute_idf`. -/
def computeIdf (documents : List (List String)) : Dict String K :=
  let df := documents.foldl (fun df doc => countAll df doc.dedup) ∅
  df.mapValues fun _ (freq : ℕ) => math.log ((documents.length + 1 : K) / (freq + 1)) + 1

def sparseMagnitude (vector : Dict String K) : K := math.sqrt (vector.values.map fun v => v * v).sum

/-- `sparse_cosine`. -/
def sparseCosine [DecidableEq K] (a b : Dict String K) : K :=
  let common := a.keys.filter (· ∈ b.keys)
  let dot := (common.map fun term => (a.get? term).getD 0 * (b.get? term).getD 0).sum
  let magA := sparseMagnitude math a
  let magB := sparseMagnitude math b
  if magA = 0 ∨ magB = 0 then 0 else dot / (magA * magB)

end Weights

/-- A single indexed document. -/
structure IndexEntry (K : Type := ℚ) where
  docId : String
  text : String
  source : String
  tokens : List String
  tf : Dict String K
  metadata : Dict String String

structure TfidfIndex (K : Type := ℚ) where
  entries : List (IndexEntry K)
  idf : Dict String K

namespace TfidfIndex

def empty {K : Type} : TfidfIndex K := ⟨[], ∅⟩

variable {K : Type} [Field K] (tools : TextTools) (math : MathTools K)

/-- The entry that `add` makes. -/
def entryOf (docId text source : String) (metadata : Dict String String) : IndexEntry K :=
  let tokens := tokenize tools text
  ⟨docId, text, source, tokens, computeTf math tokens, metadata⟩

def add (self : TfidfIndex K) (docId text source : String) (metadata : Dict String String) : TfidfIndex K :=
  let entry := entryOf tools math docId text source metadata
  { entries := self.entries ++ [entry]
    idf := entry.tokens.dedup.foldl (fun idf token => idf.set token ((idf.get? token).getD 0 + 1)) self.idf }

def recomputeIdf (self : TfidfIndex K) : TfidfIndex K :=
  { self with idf := computeIdf math (self.entries.map IndexEntry.tokens) }

def size (self : TfidfIndex K) : ℕ := self.entries.length

/-- The weights of terms in a document or a query. -/
def weigh (idf tf : Dict String K) : Dict String K := tf.mapValues fun term value => value * (idf.get? term).getD 1

variable [LinearOrder K]

/-- The similarity of an entry to a query. -/
def baseScore (idf queryTf : Dict String K) (entry : IndexEntry K) : K :=
  sparseCosine math (weigh idf queryTf) (weigh idf entry.tf)

variable [FloorRing K]

/-- The items with a positive score, the greatest first and up to a number of
them. Items with one score keep their order. -/
def ranked {α : Type} (score : α → K) (topK : ℤ) (items : List α) : List (α × K) :=
  let scored := items.filterMap fun item => if 0 < score item then some (item, roundTo 6 (score item)) else none
  sliceTo topK (scored.mergeSort fun a b => decide (b.2 ≤ a.2))

/-- `search`, with the scorer that adjusts a similarity, if any. -/
def search (self : TfidfIndex K) (query : String) (topK : ℤ)
    (scorer : Option (IndexEntry K → Dict String K → K → K)) : List (IndexEntry K × K) :=
  let queryTf := computeTf math (tokenize tools query)
  let score := fun entry =>
    let base := baseScore math self.idf queryTf entry
    match scorer with
    | some adjust => adjust entry queryTf base
    | none => base
  ranked score topK self.entries

end TfidfIndex

end Centroid
