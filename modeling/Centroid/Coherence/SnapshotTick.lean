import Centroid.Coherence.Simulate
import Centroid.SelfModel.Model
import Centroid.Simulation.PreflightCoherence

namespace Centroid

open Rounding

/-- The fields of a `WorldSnapshot` as they are read from a file: nothing
checks what they hold. -/
structure RawSnapshot where
  timestamp : Value ℚ
  nodeHealth : Value ℚ
  nodeTrends : Value ℚ
  systemHealthRatio : Value ℚ
  anomalyCount : Value ℚ
  coherenceIndex : Value ℚ

namespace RawSnapshot

def fieldNames : List (Key ℚ) :=
  [.str "timestamp", .str "node_health", .str "node_trends", .str "system_health_ratio", .str "anomaly_count",
    .str "coherence_index"]

/-- `asdict`. -/
def asDict (self : RawSnapshot) : List (Key ℚ × Value ℚ) :=
  [(.str "timestamp", self.timestamp), (.str "node_health", self.nodeHealth), (.str "node_trends", self.nodeTrends),
    (.str "system_health_ratio", self.systemHealthRatio), (.str "anomaly_count", self.anomalyCount),
    (.str "coherence_index", self.coherenceIndex)]

/-- The subset of the fields for the file of trends. -/
def trendsData (self : RawSnapshot) : List (Key ℚ × Value ℚ) :=
  [(.str "timestamp", self.timestamp), (.str "node_trends", self.nodeTrends),
    (.str "system_health_ratio", self.systemHealthRatio)]

/-- `WorldSnapshot(**data)`, `none` where it raises: when a field is missing or
one is not known. -/
def ofKeywords (data : List (Key ℚ × Value ℚ)) : Option RawSnapshot :=
  if data.all fun entry => entry.1 ∈ fieldNames then do
    let timestamp ← Assoc.get? data (.str "timestamp")
    let nodeHealth ← Assoc.get? data (.str "node_health")
    let nodeTrends ← Assoc.get? data (.str "node_trends")
    let systemHealthRatio ← Assoc.get? data (.str "system_health_ratio")
    let anomalyCount ← Assoc.get? data (.str "anomaly_count")
    some ⟨timestamp, nodeHealth, nodeTrends, systemHealthRatio, anomalyCount,
      (Assoc.get? data (.str "coherence_index")).getD .null⟩
  else none

end RawSnapshot

namespace SnapshotWriter

def snapshotPath (stateDir : String) : String := stateDir ++ "/world_snapshot.json"

def trendsPath (stateDir : String) : String := stateDir ++ "/world_trends.json"

/-- `write`, for fields of any kind. -/
def writeRaw (stateDir : String) (snapshot : RawSnapshot) (disk : Disk ℚ) : Disk ℚ :=
  (disk.write (snapshotPath stateDir) snapshot.asDict false).write (trendsPath stateDir) snapshot.trendsData false

/-- `read_snapshot`. -/
def readSnapshot (stateDir : String) (disk : Disk ℚ) : Option RawSnapshot :=
  match disk (snapshotPath stateDir) with
  | .object data => RawSnapshot.ofKeywords data
  | _ => none

end SnapshotWriter

/-- What `dict` takes for a pair of key and value: two things in a row, the
first one hashable. -/
def pairOf : Value ℚ → Option (Key ℚ × Value ℚ)
  | .list [key, value] => key.key?.map fun hashed => (hashed, value)
  | .dict [(key, _), (value, _)] =>
    some (key, match value with
      | .null => .null
      | .num n => .num n
      | .str s => .str s
      | .stamp kind text => .stamp kind text)
  | .str text =>
    match text.toList with
    | [key, value] => some (.str (String.singleton key), .str (String.singleton value))
    | _ => none
  | _ => none

/-- `dict` of a value, `none` where it raises. -/
def dictOf : Value ℚ → Option (List (Key ℚ × Value ℚ))
  | .dict entries => some entries
  | .list items => (items.mapM pairOf).map fun pairs => pairs.foldl (fun entries pair => Assoc.set entries pair.1 pair.2) []
  | .str text => if text = "" then some [] else none
  | _ => none

namespace CoherenceGraph

section Calls

variable (floatOfText : String → Option ℚ)

/-- `_update_snapshot_coherence`, `none` where it raises. -/
def updateSnapshotCoherence (stateDir : String) (coherenceIndex : ℚ) (disk : Disk ℚ) : Option (Disk ℚ) :=
  match SnapshotWriter.readSnapshot stateDir disk with
  | none => some disk
  | some current => do
    let nodeHealth ← dictOf current.nodeHealth
    let nodeTrends ← dictOf current.nodeTrends
    let updated : RawSnapshot :=
      { timestamp := current.timestamp
        nodeHealth := .dict nodeHealth
        nodeTrends := .dict nodeTrends
        systemHealthRatio := current.systemHealthRatio
        anomalyCount := current.anomalyCount
        coherenceIndex := .num (roundTo 6 coherenceIndex) }
    some (SnapshotWriter.writeRaw stateDir updated disk)

/-- `tick`, with the state directory of the snapshot writer, if there is one;
`none` where it raises. -/
def tick (self : CoherenceGraph) (snapshotWriter : Option String) (disk : Disk ℚ) (now : ℚ) :
    Option (CoherenceReport × Disk ℚ) :=
  let seedValues := self.readSeedValues floatOfText disk
  let propagated := self.propagator.propagate seedValues
  let report := self.calculator.compute propagated now
  match snapshotWriter with
  | none => some (report, disk)
  | some stateDir => (updateSnapshotCoherence stateDir report.coherenceIndex disk).map fun disk => (report, disk)

/-- A call on the graph, with its time. -/
inductive CoherenceCall where
  | tick (now : ℚ)
  | simulate (intervention : DoIntervention (Key ℚ)) (now : ℚ)

/-- What a call returns, but for its time. -/
structure CoherenceAnswer where
  nodeScores : Dict (Key ℚ) ℚ
  coherenceIndex : ℚ
  weakestNode : Key ℚ
  strongestNode : Key ℚ
  delta : Option (Dict (Key ℚ) ℚ)

def answerOf (report : CoherenceReport) (delta : Option (Dict (Key ℚ) ℚ)) : CoherenceAnswer :=
  ⟨report.nodeScores, report.coherenceIndex, report.weakestNode, report.strongestNode, delta⟩

/-- One call: the files after it and what it returns, nothing where it raises. -/
def call (self : CoherenceGraph) (stateDir : String) (disk : Disk ℚ) : CoherenceCall → Disk ℚ × Option CoherenceAnswer
  | .tick now =>
    match self.tick floatOfText (some stateDir) disk now with
    | some (report, after) => (after, some (answerOf report none))
    | none => (disk, none)
  | .simulate intervention now =>
    (disk, (self.simulate floatOfText disk intervention now).map fun result => answerOf result.1 (some result.2))

/-- Calls one after the other: the files in the end, and the answers. -/
def session (self : CoherenceGraph) (stateDir : String) (disk : Disk ℚ) :
    List CoherenceCall → Disk ℚ × List (Option CoherenceAnswer)
  | [] => (disk, [])
  | next :: calls =>
    let (after, answer) := self.call floatOfText stateDir disk next
    let (final, answers) := self.session stateDir after calls
    (final, answer :: answers)

end Calls

end CoherenceGraph

namespace RawSnapshot

end RawSnapshot

namespace SnapshotWriter

theorem snapshotPath_ne_trendsPath (stateDir : String) : snapshotPath stateDir ≠ trendsPath stateDir := by
  intro same
  exact absurd ((String.append_right_inj stateDir).mp same) (by decide)

variable (stateDir : String) (snapshot : RawSnapshot) (disk : Disk ℚ)

theorem writeRaw_snapshotPath : writeRaw stateDir snapshot disk (snapshotPath stateDir) = .object snapshot.asDict := by
  simp [writeRaw, Disk.write, Function.update_of_ne (snapshotPath_ne_trendsPath stateDir)]

theorem writeRaw_elsewhere {path : String} (notSnapshot : path ≠ snapshotPath stateDir)
    (notTrends : path ≠ trendsPath stateDir) : writeRaw stateDir snapshot disk path = disk path := by
  simp [writeRaw, Disk.write, Function.update_of_ne notTrends, Function.update_of_ne notSnapshot]

end SnapshotWriter

namespace CoherenceIndexCalculator

variable (self : CoherenceIndexCalculator) (propagated : Dict (Key ℚ) ℚ)

/-- Only the time of a report is that of its computation. -/
theorem compute_time (now now' : ℚ) : self.compute propagated now = { self.compute propagated now' with timestamp := now } := by
  unfold compute
  split <;> rfl

theorem compute_rounded (now : ℚ) :
    roundTo 6 (self.compute propagated now).coherenceIndex = (self.compute propagated now).coherenceIndex := by
  unfold compute
  split
  · exact roundTo_zero 6
  · exact roundTo_idem 6 _

end CoherenceIndexCalculator

namespace CoherenceGraph

section Frame

variable {floatOfText : String → Option ℚ} {graph : CoherenceGraph}

end Frame

section Readable

variable {floatOfText : String → Option ℚ} {graph : CoherenceGraph} {stateDir : String} {disk : Disk ℚ}
  {current : RawSnapshot} {health trends : List (Key ℚ × Value ℚ)}

/-- The snapshot that a tick writes. -/
def ticked (graph : CoherenceGraph) (floatOfText : String → Option ℚ) (disk : Disk ℚ) (current : RawSnapshot) : RawSnapshot :=
  { current with
    coherenceIndex := .num (graph.calculator.compute
      (graph.propagator.propagate (graph.readSeedValues floatOfText disk)) 0).coherenceIndex }

end Readable

/-- The fields of a snapshot of the self model. -/
def rawOf (snapshot : WorldSnapshot) : RawSnapshot where
  timestamp := .num snapshot.timestamp
  nodeHealth := numbersValue snapshot.nodeHealth
  nodeTrends := numbersValue snapshot.nodeTrends
  systemHealthRatio := .num snapshot.systemHealthRatio
  anomalyCount := .num snapshot.anomalyCount
  coherenceIndex := snapshot.coherenceIndex.elim .null .num

end CoherenceGraph

end Centroid
