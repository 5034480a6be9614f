import Centroid.Memory.Retrieval

namespace Centroid

open Rounding

/-- Capacity limits of the tiers, without limit for the archive. -/
structure TierCapacity where
  active : ℤ := 50
  working : ℤ := 200
  longTerm : ℤ := 500

inductive Tier where
  | active
  | working
  | longTerm
  | archive
  deriving DecidableEq

/-- The tier of an entry, and why. -/
structure TierDecision where
  docId : String
  tier : Tier
  salience : ℚ
  ageHours : ℚ
  reason : String

/-- The instant that a timestamp stands for, if any. One without a zone is
taken to be in UTC. -/
def instantOf (tools : TextTools) (timestamp : String) : Option ℚ :=
  if timestamp = "" then none else (tools.fromisoformat timestamp).map IsoTime.instant

/-- The timestamp that an entry reports. -/
def IndexEntry.timestamp (entry : IndexEntry) : String := (entry.metadata.get? "timestamp").getD ""

/-- `_estimate_age_hours`. -/
def estimateAgeHours (tools : TextTools) (now : ℚ) (entry : IndexEntry) : ℚ :=
  match instantOf tools entry.timestamp with
  | some instant => (now - instant) / 3600
  | none => 999

def classifyOne (tools : TextTools) (weights : SalienceWeights) (now : ℚ) (entry : IndexEntry) : TierDecision :=
  let salience := computeSalience tools weights entry
  let ageHours := estimateAgeHours tools now entry
  let (tier, reason) :=
    if 1 / 2 ≤ salience ∧ ageHours < 1 then (Tier.active, "high salience, recent")
    else if 3 / 10 ≤ salience ∧ ageHours < 24 then (.working, "medium salience, within 24h")
    else if 2 / 10 ≤ salience then (.longTerm, "moderate salience")
    else (.archive, "low salience")
  ⟨entry.docId, tier, salience, roundTo 1 ageHours, reason⟩

section Compact

variable {α : Type} (docId : α → String)

/-- The entries of a tier with their decisions, the most salient first and the
newest of these. -/
def tierBucket (decided : List (α × TierDecision)) (tier : Tier) : List (α × TierDecision) :=
  (decided.filter fun pair => pair.2.tier = tier).mergeSort fun a b =>
    decide (b.2.salience < a.2.salience ∨ a.2.salience = b.2.salience ∧ a.2.ageHours ≤ b.2.ageHours)

/-- `_count_in`. The last decision of an identifier counts. -/
def countIn (retained : List α) (decisions : List TierDecision) (tier : Tier) : ℕ :=
  let decisionOf := Dict.ofList (decisions.map fun d => (d.docId, d))
  retained.countP fun entry => (decisionOf.get? (docId entry)).map TierDecision.tier = some tier

/-- `compact` of entries with their decisions: what is retained and what is
evicted. -/
def compactDecided (capacity : TierCapacity) (decided : List (α × TierDecision)) : List α × List α :=
  let decisions := decided.map Prod.snd
  let active := tierBucket decided .active
  let working := tierBucket decided .working
  let longTerm := tierBucket decided .longTerm
  let retained := (sliceTo capacity.active active).map Prod.fst
  let evicted := (sliceFrom capacity.active active).map Prod.fst
  let remainingWorking := capacity.working - countIn docId retained decisions .working
  let (retained, evicted) :=
    if 0 < remainingWorking then
      (retained ++ (sliceTo remainingWorking working).map Prod.fst,
        evicted ++ (sliceFrom remainingWorking working).map Prod.fst)
    else (retained, evicted ++ working.map Prod.fst)
  let remainingLongTerm := capacity.longTerm - countIn docId retained decisions .longTerm
  let (retained, evicted) :=
    if 0 < remainingLongTerm then
      (retained ++ (sliceTo remainingLongTerm longTerm).map Prod.fst,
        evicted ++ (sliceFrom remainingLongTerm longTerm).map Prod.fst)
    else (retained, evicted ++ longTerm.map Prod.fst)
  (retained, evicted ++ (tierBucket decided .archive).map Prod.fst)

end Compact

structure MemoryPyramid where
  capacity : TierCapacity
  weights : SalienceWeights

namespace MemoryPyramid

variable (tools : TextTools) (now : ℚ) (self : MemoryPyramid)

/-- The source reads the clock at every entry, and here once: all entries have
their ages at one time. -/
def classifyAll (entries : List IndexEntry) : List TierDecision := entries.map (classifyOne tools self.weights now)

def compact (entries : List IndexEntry) : List IndexEntry × List IndexEntry :=
  compactDecided IndexEntry.docId self.capacity (entries.zip (self.classifyAll tools now entries))

/-- `tier_counts`. -/
def tierCounts (decisions : List TierDecision) (tier : Tier) : ℕ := decisions.countP (·.tier = tier)

end MemoryPyramid

end Centroid
