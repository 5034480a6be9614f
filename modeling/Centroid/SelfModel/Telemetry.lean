import Centroid.Lib.Dict
import Centroid.Lib.Rounding
import Centroid.Lib.Window
import Mathlib.Algebra.BigOperators.Group.List.Basic

namespace Centroid

open Rounding

/-- What a source gives when it is read: an exception, something that is not a
dictionary, or its metrics. Floats are read as exact rational numbers here and
below. -/
inductive Reading where
  | raised
  | notADict
  | metrics (values : Dict String ℚ)

def Reading.failed : Reading → Prop
  | .metrics _ => False
  | .raised | .notADict => True

instance : DecidablePred Reading.failed := fun
  | .metrics _ => .isFalse id
  | .raised => .isTrue trivial
  | .notADict => .isTrue trivial

/-- The stand-in for the metrics of a source that failed. -/
def errorSentinel : Dict String ℚ := Dict.empty.set "error" 1

/-- What the aggregator passes on of a reading. -/
def Reading.collected : Reading → Dict String ℚ
  | .metrics values => values
  | .raised | .notADict => errorSentinel

/-- A source. What its `read` gives is up to the environment of each tick. -/
structure TelemetrySource where
  sourceId : String

structure TelemetryAggregator where
  sources : Dict String TelemetrySource

namespace TelemetryAggregator

def sourceIds (self : TelemetryAggregator) : List String := self.sources.keys

def register (self : TelemetryAggregator) (source : TelemetrySource) : TelemetryAggregator :=
  ⟨self.sources.set source.sourceId source⟩

def unregister (self : TelemetryAggregator) (sourceId : String) : TelemetryAggregator :=
  ⟨self.sources.erase sourceId⟩

def collect (self : TelemetryAggregator) (read : String → Reading) : Dict String (Dict String ℚ) :=
  self.sources.mapValues fun sourceId _ => (read sourceId).collected

end TelemetryAggregator

structure NodeHealth where
  nodeId : String
  score : ℚ
  trend : ℚ
  sampleCount : ℕ
  lastUpdated : ℚ

/-- `_compute_trend`: the least-squares slope over the last `n` scores. -/
def computeTrend (scores : List ℚ) (n : ℕ) : ℚ :=
  let recent := if n ≠ 0 ∧ n ≤ scores.length then scores.drop (scores.length - n) else scores
  if recent.length < 2 then 0
  else
    let m : ℚ := recent.length
    let xMean := (m - 1) / 2
    let yMean := recent.sum / m
    let numerator := (recent.zipIdx.map fun entry => (entry.2 - xMean) * (entry.1 - yMean)).sum
    let denominator := (recent.zipIdx.map fun entry => ((entry.2 : ℚ) - xMean) ^ 2).sum
    if denominator = 0 then 0 else numerator / denominator

structure HealthScorer where
  window : ℕ
  trendWindow : ℕ
  scoreHistory : Dict String (List ℚ)
  health : Dict String NodeHealth

namespace HealthScorer

/-- The score of some metrics: the mean of the clipped values. The sum is exact,
so the last digit of a rounded score may differ from the code's at a tie. -/
def score (metrics : Dict String ℚ) : ℚ :=
  if metrics.values = [] then 0 else (metrics.values.map clamp01).sum / metrics.values.length

def update (self : HealthScorer) (sourceId : String) (metrics : Dict String ℚ) (now : ℚ) :
    HealthScorer × NodeHealth :=
  let history := Window.push self.window ((self.scoreHistory.get? sourceId).getD []) (score metrics)
  let health : NodeHealth :=
    ⟨sourceId, roundTo 4 (score metrics), roundTo 4 (computeTrend history self.trendWindow), history.length, now⟩
  ({ self with scoreHistory := self.scoreHistory.set sourceId history, health := self.health.set sourceId health },
    health)

/-- The mean of the scores, exact as `score` is. -/
def systemHealthRatio (self : HealthScorer) : ℚ :=
  if self.health.values = [] then 0
  else (self.health.values.map NodeHealth.score).sum / self.health.values.length

end HealthScorer

inductive Severity where
  | warn
  | critical
  deriving DecidableEq

structure AnomalyEvent where
  sourceId : String
  field : String
  observed : ℚ
  mean : ℚ
  std : ℚ
  zScore : ℚ
  severity : Severity
  timestamp : ℚ

structure AnomalyDetector where
  warnThreshold : ℚ
  criticalThreshold : ℚ
  minSamples : ℕ
  window : ℕ
  windows : Dict (String × String) (List ℚ)

namespace AnomalyDetector

section

variable (stdev : List ℚ → ℚ)

/-- The severity of one value against the values before it, with their mean
and deviation and the score; nothing when it is not anomalous. -/
def judge (self : AnomalyDetector) (windowValues : List ℚ) (value : ℚ) : Option (ℚ × ℚ × ℚ × Severity) :=
  if windowValues.length < self.minSamples then none
  else
    let prior := windowValues.dropLast
    if prior.length < 2 then none
    else
      let meanVal := prior.sum / prior.length
      let stdVal := stdev prior
      if stdVal = 0 then none
      else
        let z := (value - meanVal) / stdVal
        if self.criticalThreshold < |z| then some (meanVal, stdVal, z, .critical)
        else if self.warnThreshold < |z| then some (meanVal, stdVal, z, .warn)
        else none

/-- One turn of the loop over the metrics. -/
def updateField (sourceId : String) (now : ℚ) (state : AnomalyDetector × List AnomalyEvent) (entry : String × ℚ) :
    AnomalyDetector × List AnomalyEvent :=
  let (self, anomalies) := state
  let key := (sourceId, entry.1)
  let windowValues := Window.push self.window ((self.windows.get? key).getD []) entry.2
  let self := { self with windows := self.windows.set key windowValues }
  match self.judge stdev windowValues entry.2 with
  | none => (self, anomalies)
  | some (meanVal, stdVal, z, severity) =>
    (self, anomalies ++ [⟨sourceId, entry.1, roundTo 4 entry.2, roundTo 4 meanVal, roundTo 4 stdVal, roundTo 4 z,
      severity, now⟩])

/-- `update`, from what `statistics.stdev` makes of a list of values. -/
def update (self : AnomalyDetector) (sourceId : String) (metrics : Dict String ℚ) (now : ℚ) :
    AnomalyDetector × List AnomalyEvent :=
  metrics.entries.foldl (updateField stdev sourceId now) (self, [])

end

end AnomalyDetector

end Centroid
