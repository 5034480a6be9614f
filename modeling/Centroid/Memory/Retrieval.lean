import Centroid.Memory.TfidfIndex
import Mathlib.Data.List.Infix

namespace Centroid

open Rounding

/-- The weights of sources, event types and signal terms. -/
structure SalienceWeights where
  source : List (String × ℚ)
  eventType : List (String × ℚ)
  signalTerms : List (String × ℚ)

/-- The three `DEFAULT_` tables. -/
def defaultWeights : SalienceWeights where
  source := [("event_journal", 18 / 100), ("memory_journal", 15 / 100), ("deliberation_log", 16 / 100),
    ("sensory_stream", 12 / 100), ("audit_log", 20 / 100)]
  eventType := [("decision", 22 / 100), ("safety_event", 22 / 100), ("session_start", 20 / 100),
    ("session_end", 20 / 100), ("checkpoint", 18 / 100), ("anomaly", 18 / 100), ("correction", 16 / 100)]
  signalTerms := [("error", 18 / 100), ("failed", 18 / 100), ("anomaly", 18 / 100), ("critical", 18 / 100),
    ("warning", 14 / 100), ("risk", 14 / 100), ("rollback", 14 / 100), ("goal", 12 / 100), ("plan", 12 / 100),
    ("decision", 12 / 100), ("intent", 12 / 100)]

variable (tools : TextTools)

/-- The event type that an entry reports. -/
def IndexEntry.eventType (entry : IndexEntry) : String := (entry.metadata.get? "event_type").getD ""

def computeSalience (weights : SalienceWeights) (entry : IndexEntry) : ℚ :=
  let textLower := tools.lower entry.text
  let signals := weights.signalTerms.filter fun signal => signal.1.toList <:+: textLower.toList
  let score := 1 / 10 + (Assoc.get? weights.source entry.source).getD 0 +
    (Assoc.get? weights.eventType entry.eventType).getD 0 + (signals.map Prod.snd).sum
  roundTo 3 (min score 1)

/-- How often and from which sources a document has been retrieved. -/
structure ProvenanceRecord where
  docId : String
  retrievalCount : ℕ
  sources : List String
  lastRetrieved : String

def computeProvenanceWeight (now : ℚ) (record : ProvenanceRecord) : ℚ :=
  if record.retrievalCount ≤ 1 then 1
  else
    let diversityBonus : ℚ := min (3 / 10) (record.sources.dedup.length * (5 / 100))
    let recencyBonus :=
      if record.lastRetrieved = "" then 0
      else match tools.fromisoformat record.lastRetrieved with
        | some time =>
          -- A time without a zone cannot be subtracted, which is caught.
          if time.aware then
            let hoursSince := (now - time.instant) / 3600
            if hoursSince < 24 then 5 / 100 * (1 - hoursSince / 24) else 0
          else 0
        | none => 0
    roundTo 4 (min (1 + diversityBonus + recencyBonus) (3 / 2))

/-- The scorer of `make_retrieval_scorer`. -/
def retrievalScorer (weights : SalienceWeights) (entry : IndexEntry) (_ : Dict String ℚ) (baseSimilarity : ℚ) : ℚ :=
  baseSimilarity * (7 / 10) + computeSalience tools weights entry * (3 / 10)

end Centroid
