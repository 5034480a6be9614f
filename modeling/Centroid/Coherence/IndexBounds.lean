import Centroid.Coherence.Simulate
import Centroid.Lib.StableSort
import Centroid.Lib.WeightedMean

namespace Centroid

open Rounding

theorem clampOutput_mono {x y : ℚ} (le : x ≤ y) : clampOutput x ≤ clampOutput y := clamp01_mono (roundTo_mono 6 le)

theorem clampOutput_nonneg (x : ℚ) : 0 ≤ clampOutput x := le_max_left _ _

theorem clampOutput_le_one (x : ℚ) : clampOutput x ≤ 1 := clamp01_le_one _

/-- What is reported is a number of six places already. -/
theorem roundTo_clampOutput (x : ℚ) : roundTo 6 (clampOutput x) = clampOutput x := by
  rcases max_choice 0 (min 1 (roundTo 6 x)) with low | inside
  · rw [clampOutput, roundTo_rat, low, roundTo_zero]
  · rw [clampOutput, roundTo_rat, inside]
    rcases min_choice 1 (roundTo 6 x) with high | between
    · rw [high, roundTo_one]
    · rw [between, roundTo_idem]

/-- Every reported score is a clamped one. -/
theorem TopologicalPropagator.exists_clampOutput {ν : Type} [DecidableEq ν] (self : TopologicalPropagator ν)
    (seedValues : Dict ν ℚ) : ∀ entry ∈ (self.propagate seedValues).entries, ∃ x, entry.2 = clampOutput x := by
  intro entry member
  obtain ⟨_, _, rfl⟩ := List.mem_map.mp member
  exact ⟨_, rfl⟩

/-- Every node has a positive weight, also one without edges into it or with weights
that vanish. -/
theorem TopologicalPropagator.inboundWeight_pos {ν : Type} [DecidableEq ν] (self : TopologicalPropagator ν) (node : ν) :
    0 < self.inboundWeight node := by
  unfold inboundWeight
  dsimp only
  split
  · assumption
  · exact one_pos

/-- A report whose extreme nodes have the extreme scores, with an index between them. -/
structure CoherenceReport.Bounded (report : CoherenceReport) : Prop where
  weakest : ∃ low, report.nodeScores.get? report.weakestNode = some low ∧
    (∀ n v, report.nodeScores.get? n = some v → low ≤ v) ∧ low ≤ report.coherenceIndex
  strongest : ∃ high, report.nodeScores.get? report.strongestNode = some high ∧
    (∀ n v, report.nodeScores.get? n = some v → v ≤ high) ∧ report.coherenceIndex ≤ high

namespace CoherenceIndexCalculator

/-- The weight of a node, one where there is none. -/
def weightOf {F : Type} [DecidableEq F] [One F] (self : CoherenceIndexCalculator F) (node : Key F) : F :=
  (self.weights.get? node).getD 1

section Ends

variable {F : Type} (value : F → ℚ)

/-- The sort is by score. -/
theorem score_trans (a b c : Key F × F) (first : decide (value a.2 ≤ value b.2) = true)
    (second : decide (value b.2 ≤ value c.2) = true) : decide (value a.2 ≤ value c.2) = true :=
  decide_eq_true ((of_decide_eq_true first).trans (of_decide_eq_true second))

theorem score_total (a b : Key F × F) :
    (decide (value a.2 ≤ value b.2) || decide (value b.2 ≤ value a.2)) = true := by
  rw [Bool.or_eq_true, decide_eq_true_iff, decide_eq_true_iff]
  exact le_total _ _

variable [LE F] [DecidableLE F] (propagated : Dict (Key F) F)
  (orders : ∀ a ∈ propagated.entries, ∀ b ∈ propagated.entries, a.2 ≤ b.2 ↔ value a.2 ≤ value b.2)

include orders

theorem sortedNodes_eq : sortedNodes propagated = propagated.entries.mergeSort fun a b => value a.2 ≤ value b.2 := by
  have same := List.map_mergeSort (f := id) (l := propagated.entries) (r := fun a b => decide (a.2 ≤ b.2))
    (s := fun a b => decide (value a.2 ≤ value b.2)) fun a memberA b memberB => by
      rw [id, id, decide_eq_decide.mpr (orders a memberA b memberB)]
  rwa [List.map_id, List.map_id] at same

variable [DecidableEq F] [Zero F] [One F] [Add F] [Mul F] [Div F] [Max F] [Min F] [LT F] [DecidableLT F] [FloatLike F]
  (self : CoherenceIndexCalculator F) (now : F)

/-- The weakest node has a least value; the first entry is the weakest if it is one of
the least. -/
theorem compute_weakest (some : propagated.entries ≠ []) : ∃ weakest ∈ propagated.entries,
    (self.compute propagated now).weakestNode = weakest.1 ∧ (∀ entry ∈ propagated.entries, weakest.2 ≤ entry.2) ∧
      ∀ entry rest, propagated.entries = entry :: rest → (∀ other ∈ rest, entry.2 ≤ other.2) → weakest = entry := by
  obtain ⟨weakest, rest, _, _, sorted, _, isWeakest, _⟩ := self.compute_ends propagated now some
  rw [sortedNodes_eq value propagated orders] at sorted
  have stored : weakest ∈ propagated.entries := List.mem_mergeSort.mp (sorted ▸ List.mem_cons_self)
  refine ⟨weakest, stored, isWeakest, ?_, ?_⟩
  · intro entry member
    refine (orders weakest stored entry member).mpr ?_
    exact of_decide_eq_true (StableSort.head_le (score_trans value) (score_total value) sorted member)
  · intro entry others first least
    rw [first] at orders sorted
    have stays := StableSort.mergeSort_cons_of_least (score_trans value) (score_total value) fun other member =>
      decide_eq_true ((orders entry List.mem_cons_self other (List.mem_cons_of_mem _ member)).mp (least other member))
    rw [stays] at sorted
    exact (List.cons.inj sorted).1.symm

/-- The strongest node has a greatest value; the last entry is the strongest if it is one
of the greatest. -/
theorem compute_strongest (some : propagated.entries ≠ []) : ∃ strongest ∈ propagated.entries,
    (self.compute propagated now).strongestNode = strongest.1 ∧ (∀ entry ∈ propagated.entries, entry.2 ≤ strongest.2) ∧
      ∀ front entry, propagated.entries = front ++ [entry] → (∀ other ∈ front, other.2 ≤ entry.2) → strongest = entry := by
  obtain ⟨_, _, front, strongest, _, sorted, _, isStrongest⟩ := self.compute_ends propagated now some
  rw [sortedNodes_eq value propagated orders] at sorted
  have stored : strongest ∈ propagated.entries :=
    List.mem_mergeSort.mp (sorted ▸ List.mem_append_right front List.mem_cons_self)
  refine ⟨strongest, stored, isStrongest, ?_, ?_⟩
  · intro entry member
    refine (orders entry member strongest stored).mpr ?_
    exact of_decide_eq_true (StableSort.le_last (score_trans value) (score_total value) sorted member)
  · intro others entry last greatest
    have distinct : propagated.entries.Nodup := propagated.distinct.of_map
    rw [last] at distinct orders sorted
    refine StableSort.last_of_greatest (score_trans value) (score_total value) distinct (fun other member => ?_) sorted
    exact decide_eq_true ((orders other (List.mem_append_left _ member) entry
      (List.mem_append_right others List.mem_cons_self)).mp (greatest other member))

end Ends

variable (self : CoherenceIndexCalculator) (propagated : Dict (Key ℚ) ℚ) (now : ℚ)

/-- The loop over the values adds up a weighted sum and the weights. -/
theorem sums_eq {ids : List (Key ℚ)} {score : Key ℚ → ℚ} (entries : propagated.entries = ids.map fun n => (n, score n)) :
    self.sums propagated = (WeightedMean.weighted self.weightOf score ids, WeightedMean.total self.weightOf ids) := by
  have general : ∀ (ids : List (Key ℚ)) (a b : ℚ),
      (ids.map fun n => (n, score n)).foldl
          (fun acc entry =>
            let w := (self.weights.get? entry.1).getD 1
            (acc.1 + entry.2 * w, acc.2 + w)) (a, b) =
        (a + WeightedMean.weighted self.weightOf score ids, b + WeightedMean.total self.weightOf ids) := by
    intro ids
    induction ids with
    | nil => simp [WeightedMean.weighted, WeightedMean.total]
    | cons n ids ih =>
      intro a b
      rw [List.map_cons, List.foldl_cons, ih]
      simp only [WeightedMean.weighted, WeightedMean.total, List.map_cons, List.sum_cons, add_assoc]
      rfl
  rw [sums, entries, general, zero_add, zero_add]

theorem entries_eq_scores : propagated.entries = propagated.keys.map fun n => (n, (propagated.get? n).getD 0) := by
  refine propagated.entries_eq_map fun n listed => ?_
  obtain ⟨v, found⟩ := (propagated.mem_keys_iff n).mp listed
  rw [found, Option.getD_some]

variable {self propagated}

theorem sums_pos (positive : ∀ n, 0 < self.weightOf n) (some : propagated.entries ≠ []) :
    0 < (self.sums propagated).2 := by
  have keys : propagated.keys ≠ [] := by simpa [Dict.keys] using some
  rw [self.sums_eq propagated (entries_eq_scores propagated)]
  exact WeightedMean.total_pos (fun n _ => positive n) keys

/-- With positive weights the index is the weighted mean of the scores, clamped and rounded. -/
theorem compute_mean (positive : ∀ n, 0 < self.weightOf n) (some : propagated.entries ≠ []) :
    (self.compute propagated now).coherenceIndex = roundTo 6 (clamp01
      (WeightedMean.mean self.weightOf (fun n => (propagated.get? n).getD 0) propagated.keys)) := by
  rw [self.compute_coherenceIndex propagated now some, if_pos (sums_pos positive some),
    self.sums_eq propagated (entries_eq_scores propagated)]
  rfl

/-- Reported scores of six places within the unit interval and positive weights bound the report. -/
theorem compute_bounded (positive : ∀ n, 0 < self.weightOf n) (some : propagated.entries ≠ [])
    (clamped : ∀ entry ∈ propagated.entries, ∃ x, entry.2 = clampOutput x) :
    (self.compute propagated now).Bounded := by
  have keys : propagated.keys ≠ [] := by simpa [Dict.keys] using some
  have scored : ∀ n ∈ propagated.keys, (n, (propagated.get? n).getD 0) ∈ propagated.entries := by
    intro n listed
    rw [entries_eq_scores propagated]
    exact List.mem_map_of_mem listed
  have weighs : ∀ n ∈ propagated.keys, 0 < self.weightOf n := fun n _ => positive n
  have index := compute_mean now positive some
  have unit : ∀ n ∈ propagated.keys, 0 ≤ (propagated.get? n).getD 0 ∧ (propagated.get? n).getD 0 ≤ 1 := by
    intro n listed
    obtain ⟨x, isScore⟩ := clamped _ (scored n listed)
    dsimp only at isScore
    rw [isScore]
    exact ⟨clampOutput_nonneg x, clampOutput_le_one x⟩
  rw [clamp01_of_mem (WeightedMean.le_mean weighs keys fun n listed => (unit n listed).1)
    (WeightedMean.mean_le weighs keys fun n listed => (unit n listed).2)] at index
  obtain ⟨weakest, weakestStored, isWeakest, least, -⟩ :=
    compute_weakest id propagated (fun _ _ _ _ => Iff.rfl) self now some
  obtain ⟨strongest, strongestStored, isStrongest, greatest, -⟩ :=
    compute_strongest id propagated (fun _ _ _ _ => Iff.rfl) self now some
  obtain ⟨x, low⟩ := clamped weakest weakestStored
  obtain ⟨y, high⟩ := clamped strongest strongestStored
  constructor
  · refine ⟨weakest.2, ?_, ?_, ?_⟩
    · rw [compute_nodeScores, isWeakest]
      exact (propagated.mem_entries_iff _ _).mp weakestStored
    · intro n v found
      rw [compute_nodeScores] at found
      exact least (n, v) ((propagated.mem_entries_iff n v).mpr found)
    · rw [index, low, ← roundTo_clampOutput x, ← low]
      exact roundTo_mono 6 (WeightedMean.le_mean weighs keys fun n listed => least _ (scored n listed))
  · refine ⟨strongest.2, ?_, ?_, ?_⟩
    · rw [compute_nodeScores, isStrongest]
      exact (propagated.mem_entries_iff _ _).mp strongestStored
    · intro n v found
      rw [compute_nodeScores] at found
      exact greatest (n, v) ((propagated.mem_entries_iff n v).mpr found)
    · rw [index, high, ← roundTo_clampOutput y, ← high]
      exact roundTo_mono 6 (WeightedMean.mean_le weighs keys fun n listed => greatest _ (scored n listed))

end CoherenceIndexCalculator

/-- The weights of a propagator give every node a positive weight. -/
theorem TopologicalPropagator.weightOf_pos (self : TopologicalPropagator (Key ℚ)) (node : Key ℚ) :
    0 < (CoherenceIndexCalculator.mk self.inboundWeightSum).weightOf node := by
  rw [CoherenceIndexCalculator.weightOf, inboundWeightSum, Dict.get?_ofKeys]
  split
  · exact self.inboundWeight_pos node
  · exact one_pos

theorem SetOrder.ids_ne_nil {ν : Type} {declared : List ν} (order : SetOrder declared) (some : declared ≠ []) :
    order.ids ≠ [] := by
  obtain ⟨n, rest, isCons⟩ := List.exists_cons_of_ne_nil some
  exact List.ne_nil_of_mem ((order.mem_iff n).mpr (isCons ▸ List.mem_cons_self))

theorem TopologicalPropagator.entries_propagate_ne_nil {ν F : Type} [DecidableEq ν] [Zero F] [One F] [Add F] [Sub F] [Mul F]
    [Max F] [Min F] [FloatLike F] (self : TopologicalPropagator ν F) (some : self.graph.nodeIds ≠ []) (seedValues : Dict ν F) :
    (self.propagate seedValues).entries ≠ [] := by
  intro none
  have keys := keys_propagate self seedValues
  rw [Dict.keys, none] at keys
  exact self.nodeIds.ids_ne_nil some keys.symm

/-- What a fresh propagator of an intervention returns is what a propagator of the
severed graph propagates. -/
theorem DoOperator.exists_propagate {ν : Type} [DecidableEq ν] {g : CoherenceGraphDef ν ℚ} {nodeIds : SetOrder g.nodeIds}
    {seedValues intervened : Dict ν ℚ} {intervention : DoIntervention ν}
    (run : DoOperator.apply g nodeIds seedValues intervention = .ok intervened) :
    ∃ (self : TopologicalPropagator ν) (seeds : Dict ν ℚ), self.graph.nodeIds = g.nodeIds ∧ intervened = self.propagate seeds := by
  unfold DoOperator.apply at run
  dsimp only at run
  split at run
  · cases run
  · rename_i self built
    cases run
    refine ⟨self, _, ?_, rfl⟩
    unfold TopologicalPropagator.init at built
    split at built
    · cases built
    · cases built
      rfl

namespace CoherenceGraph

variable {graph : CoherenceGraph} {config : Option (Value ℚ)} {snapshotPath : String}
  {enumerate : ∀ g : CoherenceGraphDef (Key ℚ) ℚ, SetOrder g.nodeIds}

theorem init_calculator (built : init config snapshotPath enumerate = .ok graph) :
    graph.graphDef.nodeIds ≠ [] ∧ graph.propagator.graph = graph.graphDef ∧
      graph.calculator = ⟨graph.propagator.inboundWeightSum⟩ := by
  unfold init at built
  split at built
  · cases built
  · rename_i loaded
    split at built
    · cases built
    · rename_i sorted
      cases built
      refine ⟨loadGraph_nodeIds_ne_nil loaded, ?_, rfl⟩
      obtain ⟨topoOrder, isSelf, _⟩ := (loadGraph_valid loaded).init_spec (enumerate _)
      rw [Except.ok.inj (sorted.symm.trans isSelf)]

/-- The constructor succeeds on every file that is accepted. -/
theorem exists_init (snapshotPath : String) (enumerate : ∀ g : CoherenceGraphDef (Key ℚ) ℚ, SetOrder g.nodeIds)
    {g : CoherenceGraphDef (Key ℚ) ℚ} (loaded : loadGraph config = .ok g) :
    ∃ graph, init config snapshotPath enumerate = .ok graph := by
  obtain ⟨topoOrder, built, _⟩ := (loadGraph_valid loaded).init_spec (enumerate g)
  simp only [init, loaded, built]
  exact ⟨_, rfl⟩

/-- Whatever graph is loaded, the index of a report lies between the scores of its
weakest and its strongest node, which are the least and the greatest score, and the
total weight that it is divided by is positive. The reports of interventions, which use
the weights of the graph with all its edges, are no exception. -/
theorem report_bounded (built : init config snapshotPath enumerate = .ok graph) (now : ℚ) :
    (∀ seedValues, (graph.calculator.compute (graph.propagator.propagate seedValues) now).Bounded ∧
        0 < (graph.calculator.sums (graph.propagator.propagate seedValues)).2) ∧
      ∀ floatOfText disk intervention report delta, graph.simulate floatOfText disk intervention now = some (report, delta) →
        report.Bounded ∧ 0 < (graph.calculator.sums report.nodeScores).2 := by
  obtain ⟨declares, sameGraph, isCalculator⟩ := init_calculator built
  have reported : ∀ (self : TopologicalPropagator (Key ℚ)) (seedValues : Dict (Key ℚ) ℚ),
      self.graph.nodeIds = graph.graphDef.nodeIds →
        (graph.calculator.compute (self.propagate seedValues) now).Bounded ∧
          0 < (graph.calculator.sums (self.propagate seedValues)).2 := by
    intro self seedValues same
    have some := self.entries_propagate_ne_nil (same ▸ declares) seedValues
    rw [isCalculator]
    exact ⟨CoherenceIndexCalculator.compute_bounded now graph.propagator.weightOf_pos some (self.exists_clampOutput seedValues),
      CoherenceIndexCalculator.sums_pos graph.propagator.weightOf_pos some⟩
  refine ⟨fun seedValues => reported graph.propagator seedValues (sameGraph ▸ rfl), ?_⟩
  intro floatOfText disk intervention report delta simulated
  obtain ⟨intervened, _, run, simulates⟩ := simulate_eq floatOfText built disk intervention.nodeId intervention.fixedValue now
  obtain ⟨self, seeds, same, rfl⟩ := DoOperator.exists_propagate run
  have isReport := simulates.symm.trans simulated
  split at isReport
  · cases isReport
    rw [CoherenceIndexCalculator.compute_nodeScores]
    exact reported self seeds same
  · cases isReport

theorem report_bounded_chain : ∃ graph, init (some chainDoc) "state/world_snapshot.json"
    (fun g => ⟨g.nodeIds.dedup, g.nodeIds.nodup_dedup, fun _ => List.mem_dedup⟩) = .ok graph ∧
      (graph.calculator.compute (graph.propagator.propagate ∅) 0).Bounded := by
  obtain ⟨graph, built⟩ := exists_init "state/world_snapshot.json"
    (fun g => ⟨g.nodeIds.dedup, g.nodeIds.nodup_dedup, fun _ => List.mem_dedup⟩) loadGraph_chainDoc
  exact ⟨graph, built, ((report_bounded built 0).1 ∅).1⟩

end CoherenceGraph

end Centroid
