import Centroid.Lib.Files
import Centroid.SelfModel.Telemetry

namespace Centroid

open Rounding

/-- Serialized self-model state. -/
structure WorldSnapshot where
  timestamp : ℚ
  nodeHealth : Dict String ℚ
  nodeTrends : Dict String ℚ
  systemHealthRatio : ℚ
  anomalyCount : ℕ
  coherenceIndex : Option ℚ

/-- A dictionary of numbers as plain data. -/
def numbersValue (numbers : Dict String ℚ) : Value ℚ :=
  .dict (numbers.entries.map fun entry => (.str entry.1, .num entry.2))

/-- `asdict`. -/
def WorldSnapshot.asDict (self : WorldSnapshot) : List (Key ℚ × Value ℚ) :=
  [(.str "timestamp", .num self.timestamp), (.str "node_health", numbersValue self.nodeHealth),
    (.str "node_trends", numbersValue self.nodeTrends), (.str "system_health_ratio", .num self.systemHealthRatio),
    (.str "anomaly_count", .num self.anomalyCount),
    (.str "coherence_index", self.coherenceIndex.elim .null .num)]

/-- The two files of a snapshot, under the directory of state. -/
def SnapshotWriter.write (stateDir : String) (snapshot : WorldSnapshot) (disk : Disk ℚ) : Disk ℚ :=
  let trendsData : List (Key ℚ × Value ℚ) :=
    [(.str "timestamp", .num snapshot.timestamp), (.str "node_trends", numbersValue snapshot.nodeTrends),
      (.str "system_health_ratio", .num snapshot.systemHealthRatio)]
  (disk.write (stateDir ++ "/world_snapshot.json") snapshot.asDict false).write (stateDir ++ "/world_trends.json")
    trendsData false

/-- The pipeline from sources to snapshot. The memory store is the list of
anomalies appended to it. -/
structure SelfModel where
  memoryStore : Option (List AnomalyEvent)
  stateDir : String
  aggregator : TelemetryAggregator
  healthScorer : HealthScorer
  anomalyDetector : AnomalyDetector
  anomalyCount : ℕ

/-- The variables of the loop over the collected telemetry. -/
structure TickState where
  model : SelfModel
  nodeHealthScores : Dict String ℚ
  nodeTrends : Dict String ℚ

namespace SelfModel

section

variable (stdev : List ℚ → ℚ)

/-- Anomalies are counted and appended only when there is a memory store. -/
def appendAnomalies (self : SelfModel) (anomalies : List AnomalyEvent) : SelfModel :=
  match self.memoryStore with
  | none => self
  | some events =>
    { self with memoryStore := some (events ++ anomalies), anomalyCount := self.anomalyCount + anomalies.length }

/-- One turn of the loop of `tick`. -/
def tickSource (now : ℚ) (state : TickState) (entry : String × Dict String ℚ) : TickState :=
  let (scorer, health) := state.model.healthScorer.update entry.1 entry.2 now
  let (detector, anomalies) := state.model.anomalyDetector.update stdev entry.1 entry.2 now
  { model := { state.model with healthScorer := scorer, anomalyDetector := detector }.appendAnomalies anomalies
    nodeHealthScores := state.nodeHealthScores.set entry.1 health.score
    nodeTrends := state.nodeTrends.set entry.1 health.trend }

/-- `tick`, for the readings of this tick: the model and the files afterwards
and the snapshot that it returns. -/
def tick (self : SelfModel) (read : String → Reading) (disk : Disk ℚ) (now : ℚ) : SelfModel × Disk ℚ × WorldSnapshot :=
  let state := (self.aggregator.collect read).entries.foldl (tickSource stdev now) ⟨self, ∅, ∅⟩
  let snapshot : WorldSnapshot :=
    { timestamp := now
      nodeHealth := state.nodeHealthScores
      nodeTrends := state.nodeTrends
      systemHealthRatio := roundTo 4 state.model.healthScorer.systemHealthRatio
      anomalyCount := state.model.anomalyCount
      coherenceIndex := none }
  (state.model, SnapshotWriter.write self.stateDir snapshot disk, snapshot)

end

@[simp]
theorem appendAnomalies_healthScorer (self : SelfModel) (anomalies : List AnomalyEvent) :
    (self.appendAnomalies anomalies).healthScorer = self.healthScorer := by
  unfold appendAnomalies
  split <;> rfl

/-- The rounded score of a reading. -/
def readingScore (reading : Reading) : ℚ := roundTo 4 (HealthScorer.score reading.collected)

/-- What a scorer knows of the nodes, as far as the ratio depends on it. -/
def knownScores (scorer : HealthScorer) : Dict String ℚ := scorer.health.mapValues fun _ health => health.score

theorem systemHealthRatio_eq (scorer : HealthScorer) :
    scorer.systemHealthRatio =
      if (knownScores scorer).values = [] then 0
      else (knownScores scorer).values.sum / (knownScores scorer).values.length := by
  have values : (knownScores scorer).values = scorer.health.values.map NodeHealth.score := by
    simp [knownScores, Dict.values, Dict.mapValues]
  rw [values, List.length_map, HealthScorer.systemHealthRatio]
  simp

theorem knownScores_update (scorer : HealthScorer) (sourceId : String) (metrics : Dict String ℚ) (now : ℚ) :
    knownScores (scorer.update sourceId metrics now).1 =
      (knownScores scorer).set sourceId (roundTo 4 (HealthScorer.score metrics)) :=
  Dict.mapValues_set ..

/-- The loop records the score of every source, in the snapshot and in what
the scorer knows. -/
theorem foldl_tickSource (stdev : List ℚ → ℚ) (read : String → Reading) (now : ℚ) (ids : List String)
    (state : TickState) :
    let final := (ids.map fun id => (id, (read id).collected)).foldl (tickSource stdev now) state
    final.nodeHealthScores = ids.foldl (fun scores id => scores.set id (readingScore (read id))) state.nodeHealthScores ∧
      knownScores final.model.healthScorer =
        ids.foldl (fun scores id => scores.set id (readingScore (read id))) (knownScores state.model.healthScorer) := by
  induction ids generalizing state with
  | nil => exact ⟨rfl, rfl⟩
  | cons id ids ih =>
    obtain ⟨scores, known⟩ := ih (tickSource stdev now state (id, (read id).collected))
    refine ⟨scores, known.trans ?_⟩
    rw [List.foldl_cons, tickSource, appendAnomalies_healthScorer, knownScores_update]
    rfl

theorem entries_collect (self : TelemetryAggregator) (read : String → Reading) :
    (self.collect read).entries = self.sourceIds.map fun id => (id, (read id).collected) := by
  simp [TelemetryAggregator.collect, TelemetryAggregator.sourceIds, Dict.mapValues, Dict.keys]

section Tick

variable (self : SelfModel) (stdev : List ℚ → ℚ) (read : String → Reading) (disk : Disk ℚ) (now : ℚ)

/-- The snapshot scores every registered source by its reading. -/
theorem tick_nodeHealth (id : String) (registered : id ∈ self.aggregator.sourceIds) :
    (self.tick stdev read disk now).2.2.nodeHealth.get? id = some (readingScore (read id)) := by
  have scores := (foldl_tickSource stdev read now self.aggregator.sourceIds ⟨self, ∅, ∅⟩).1
  rw [← entries_collect] at scores
  simp only [tick, scores]
  rw [Dict.get?_foldl_set self.aggregator.sourceIds (fun id => readingScore (read id)), if_pos registered]

/-- The snapshot depends on the readings through their scores, as far as the
scores and the ratio go. -/
theorem tick_ratio_congr {read' : String → Reading}
    (same : ∀ id ∈ self.aggregator.sourceIds, readingScore (read' id) = readingScore (read id)) :
    (self.tick stdev read' disk now).2.2.systemHealthRatio = (self.tick stdev read disk now).2.2.systemHealthRatio := by
  have known := (foldl_tickSource stdev read now self.aggregator.sourceIds ⟨self, ∅, ∅⟩).2
  have known' := (foldl_tickSource stdev read' now self.aggregator.sourceIds ⟨self, ∅, ∅⟩).2
  have agree : ∀ (ids : List String), ids ⊆ self.aggregator.sourceIds → ∀ start : Dict String ℚ,
      ids.foldl (fun scores id => scores.set id (readingScore (read' id))) start =
        ids.foldl (fun scores id => scores.set id (readingScore (read id))) start := by
    intro ids
    induction ids with
    | nil => intro _ _; rfl
    | cons id ids ih =>
      intro inside start
      obtain ⟨member, rest⟩ := List.cons_subset.mp inside
      rw [List.foldl_cons, List.foldl_cons, same id member, ih rest]
  rw [agree _ (List.Subset.refl _), ← known, ← entries_collect, ← entries_collect] at known'
  simp only [tick, systemHealthRatio_eq, known']

end Tick

theorem score_le_one (metrics : Dict String ℚ) : HealthScorer.score metrics ≤ 1 := by
  unfold HealthScorer.score
  split
  · exact zero_le_one
  · have bound : (metrics.values.map clamp01).sum ≤ (metrics.values.map clamp01).length • (1 : ℚ) := by
      refine List.sum_le_card_nsmul _ _ fun x member => ?_
      obtain ⟨v, _, rfl⟩ := List.mem_map.mp member
      exact clamp01_le_one v
    rw [List.length_map, nsmul_eq_mul, mul_one] at bound
    exact div_le_one_of_le₀ bound (Nat.cast_nonneg _)

theorem readingScore_le_one (reading : Reading) : readingScore reading ≤ 1 := roundTo_le_one 4 (score_le_one _)

/-- The sentinel of a failed read has the best score there is. -/
theorem readingScore_of_failed {reading : Reading} (failed : reading.failed) : readingScore reading = 1 := by
  have sentinel : HealthScorer.score errorSentinel = 1 := by decide +kernel
  cases reading with
  | metrics _ => exact absurd failed id
  | raised => rw [readingScore, Reading.collected, sentinel, roundTo_one]
  | notADict => rw [readingScore, Reading.collected, sentinel, roundTo_one]

theorem metrics_of_not_failed {reading : Reading} (ok : ¬ reading.failed) : ∃ values, reading = .metrics values := by
  cases reading with
  | metrics values => exact ⟨values, rfl⟩
  | raised => exact absurd trivial ok
  | notADict => exact absurd trivial ok

/-- A reading has the score of a failure when the mean of its clipped values
rounds to one. -/
theorem readingScore_eq_one_iff (values : Dict String ℚ) : readingScore (.metrics values) = 1 ↔
    values.values ≠ [] ∧ 1 - 1 / 20000 ≤ (values.values.map clamp01).sum / values.values.length := by
  have unit : (1 : ℚ) / 2 / 10 ^ 4 = 1 / 20000 := by norm_num
  rw [readingScore, Reading.collected, roundTo_eq_one_iff (by omega) (score_le_one values), HealthScorer.score, unit]
  split
  · rename_i nothing
    exact ⟨fun large => absurd large (by norm_num), fun present => absurd nothing present.1⟩
  · rename_i something
    exact ⟨fun large => ⟨something, large⟩, fun present => present.2⟩

/-- A tick treats failures as the scorer promises exactly when no source fails
and each one scores so well that its failure could not raise anything. -/
theorem tick_failures_count_iff (self : SelfModel) (stdev : List ℚ → ℚ) (read : String → Reading) (disk : Disk ℚ)
    (now : ℚ) :
    (∀ id ∈ self.aggregator.sourceIds,
      ((read id).failed → (self.tick stdev read disk now).2.2.nodeHealth.get? id = some 0) ∧
      (¬ (read id).failed → ∀ read', (∀ other, other ≠ id → read' other = read other) → (read' id).failed →
        ∃ before after, (self.tick stdev read disk now).2.2.nodeHealth.get? id = some before ∧
          (self.tick stdev read' disk now).2.2.nodeHealth.get? id = some after ∧ after ≤ before ∧
          (self.tick stdev read' disk now).2.2.systemHealthRatio ≤
            (self.tick stdev read disk now).2.2.systemHealthRatio)) ↔
    ∀ id ∈ self.aggregator.sourceIds, ∃ values, read id = .metrics values ∧ values.values ≠ [] ∧
      1 - 1 / 20000 ≤ (values.values.map clamp01).sum / values.values.length := by
  constructor
  · intro promised id registered
    obtain ⟨whenFailed, whenRead⟩ := promised id registered
    by_cases failed : (read id).failed
    · have zero := whenFailed failed
      rw [tick_nodeHealth self stdev read disk now id registered, readingScore_of_failed failed] at zero
      exact absurd (Option.some.inj zero) one_ne_zero
    · obtain ⟨values, reading⟩ := metrics_of_not_failed failed
      have raised : (Function.update read id .raised id).failed := by simp [Reading.failed]
      obtain ⟨before, after, atBefore, atAfter, worse, _⟩ := whenRead failed
        (Function.update read id .raised) (fun other ne => Function.update_of_ne ne _ _) raised
      rw [tick_nodeHealth self stdev _ disk now id registered, Option.some.injEq] at atBefore atAfter
      rw [readingScore_of_failed raised] at atAfter
      have best : readingScore (.metrics values) = 1 := by
        have bounded := readingScore_le_one (read id)
        rw [reading] at atBefore bounded
        linarith
      exact ⟨values, reading, (readingScore_eq_one_iff values).mp best⟩
  · intro perfect id registered
    obtain ⟨values, reading, best⟩ := perfect id registered
    refine ⟨fun failed => absurd failed (by simp [reading, Reading.failed]), fun _ read' others failed' => ?_⟩
    have same : ∀ other ∈ self.aggregator.sourceIds, readingScore (read' other) = readingScore (read other) := by
      intro other _
      by_cases here : other = id
      · subst here
        rw [readingScore_of_failed failed', reading, (readingScore_eq_one_iff values).mpr best]
      · rw [others other here]
    refine ⟨_, _, tick_nodeHealth self stdev read disk now id registered,
      tick_nodeHealth self stdev read' disk now id registered, (same id registered).le, ?_⟩
    exact (tick_ratio_congr self stdev read disk now same).le

/-- One source, which has read well until it raises. -/
def singleSource : SelfModel :=
  { memoryStore := none, stateDir := "state", aggregator := ⟨Dict.empty.set "gpu" ⟨"gpu"⟩⟩,
    healthScorer := ⟨20, 5, ∅, ∅⟩, anomalyDetector := ⟨2, 7 / 2, 5, 20, ∅⟩, anomalyCount := 0 }

/-- The failed read of a half healthy source is scored one, and so is the system. -/
theorem failed_read_scores_one :
    (singleSource.tick (fun _ => 0) (fun _ => .raised) (fun _ => .missing) 0).2.2.nodeHealth.get? "gpu" = some 1 ∧
    (singleSource.tick (fun _ => 0) (fun _ => .raised) (fun _ => .missing) 0).2.2.systemHealthRatio = 1 ∧
    (singleSource.tick (fun _ => 0) (fun _ => .metrics (Dict.empty.set "load" (1 / 2))) (fun _ => .missing)
      0).2.2.systemHealthRatio = 1 / 2 := by
  refine ⟨?_, ?_, ?_⟩ <;> decide +kernel

end SelfModel

end Centroid
