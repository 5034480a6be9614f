import Centroid.Coherence.CoherenceGraph

namespace Centroid

open Rounding

section Propagate

variable {ν : Type} [DecidableEq ν]

/-- A declared node that no edge enters keeps its seed, in whatever order the
nodes are visited. -/
theorem propagate_of_no_inbound (self : TopologicalPropagator ν) (seedValues : Dict ν ℚ) {n : ν}
    (declared : n ∈ self.nodeIds.ids) (none : ∀ e ∈ self.graph.edges, e.toNode ≠ n) :
    (self.propagate seedValues).get? n = some (clampOutput (seedValue seedValues n)) := by
  have start : (Dict.ofKeys self.nodeIds.ids self.nodeIds.distinct (seedValue seedValues)).get? n =
      some (seedValue seedValues n) := by
    rw [Dict.get?_ofKeys, if_pos declared]
  rw [TopologicalPropagator.propagate, Dict.get?_mapValues, Option.map_eq_some_iff]
  refine ⟨seedValue seedValues n, ?_, rfl⟩
  refine List.foldlRecOn _ _ (motive := fun d : Dict ν ℚ => d.get? n = some (seedValue seedValues n)) ?_ fun d kept e member => ?_
  · refine List.foldlRecOn _ _ (motive := fun d : Dict ν ℚ => d.get? n = some (seedValue seedValues n)) start fun d kept node _ => ?_
    refine List.foldlRecOn _ _ (motive := fun d : Dict ν ℚ => d.get? n = some (seedValue seedValues n)) kept fun d kept e member => ?_
    have elsewhere := none e (List.mem_filter.mp member).1
    unfold forwardEdge
    split
    · exact kept
    · rename_i into
      split
      · rw [Dict.get?_set_of_ne _ _ (not_not.mp into ▸ elsewhere), kept]
      · exact kept
  · have elsewhere := none e (List.mem_filter.mp member).1
    unfold feedbackEdge
    split
    · rw [Dict.get?_set_of_ne _ _ elsewhere, kept]
    · exact kept

/-- Only the seeds of the declared nodes are read. -/
theorem propagate_congr_declared (self : TopologicalPropagator ν) {seedValues seedValues' : Dict ν ℚ}
    (same : ∀ n ∈ self.nodeIds.ids, seedValues.get? n = seedValues'.get? n) :
    self.propagate seedValues = self.propagate seedValues' := by
  have start : Dict.ofKeys self.nodeIds.ids self.nodeIds.distinct (seedValue seedValues) =
      Dict.ofKeys self.nodeIds.ids self.nodeIds.distinct (seedValue seedValues') := by
    simp only [Dict.ofKeys, Dict.mk.injEq]
    refine List.map_congr_left fun n member => ?_
    rw [seedValue, seedValue, same n member]
  simp only [TopologicalPropagator.propagate, start]

/-- An intervention on a declared node of a valid graph gives it the clamped
value, cycles or not. -/
theorem CoherenceGraphDef.Valid.apply_declared {g : CoherenceGraphDef ν ℚ} (valid : g.Valid)
    (nodeIds : SetOrder g.nodeIds) (seedValues : Dict ν ℚ) (node : ν) (x : ℚ) :
    ∃ intervened, DoOperator.apply g nodeIds seedValues ⟨node, x⟩ = .ok intervened ∧ intervened.keys = nodeIds.ids ∧
      (node ∈ g.nodeIds → intervened.get? node = some (clampOutput x)) := by
  obtain ⟨topoOrder, built, _⟩ := (valid.severInbound node).init_spec nodeIds
  refine ⟨_, by simp only [DoOperator.apply, built]; rfl, keys_propagate _ _, fun declared => ?_⟩
  have atNode := propagate_of_no_inbound ⟨g.severInbound node, nodeIds, topoOrder⟩ (seedValues.set node x)
    ((nodeIds.mem_iff node).mpr declared) (fun e member => by simpa using (List.mem_filter.mp member).2)
  rw [atNode, seedValue, Dict.get?_set_self]
  rfl

/-- An intervention on a node that is not declared is the plain propagation. -/
theorem CoherenceGraphDef.Valid.apply_undeclared {g : CoherenceGraphDef ν ℚ} (valid : g.Valid)
    {nodeIds : SetOrder g.nodeIds} {self : TopologicalPropagator ν} (built : TopologicalPropagator.init g nodeIds = .ok self)
    (seedValues : Dict ν ℚ) {node : ν} (undeclared : node ∉ g.nodeIds) (x : ℚ) :
    DoOperator.apply g nodeIds seedValues ⟨node, x⟩ = .ok (self.propagate seedValues) := by
  have nothingSevered : g.edges.filter (fun e => e.toNode ≠ node) = g.edges := by
    refine List.filter_eq_self.mpr fun e member => ?_
    have elsewhere : e.toNode ≠ node := fun same => undeclared (same ▸ valid.toDeclared e member)
    simpa using elsewhere
  have severed : TopologicalPropagator.init (g.severInbound node) nodeIds = TopologicalPropagator.init g nodeIds := by
    obtain ⟨nodes, edges⟩ := g
    simp only [CoherenceGraphDef.severInbound] at nothingSevered ⊢
    congr 1
    rw [nothingSevered]
  obtain ⟨topoOrder, isSelf, _⟩ := valid.init_spec nodeIds
  have sameIds : self.nodeIds.ids = nodeIds.ids := by
    rw [isSelf] at built
    cases built
    rfl
  simp only [DoOperator.apply, severed, built]
  congr 1
  refine propagate_congr_declared self fun n declared => ?_
  have inside : n ∈ g.nodeIds := (nodeIds.mem_iff n).mp (sameIds ▸ declared)
  exact Dict.get?_set_of_ne _ _ fun same => undeclared (same ▸ inside)

end Propagate

namespace CoherenceGraph

variable {graph : CoherenceGraph} {config : Option (Value ℚ)} {snapshotPath : String}
  {enumerate : ∀ g : CoherenceGraphDef (Key ℚ) ℚ, SetOrder g.nodeIds}

theorem init_spec (built : init config snapshotPath enumerate = .ok graph) :
    graph.graphDef.Valid ∧ graph.snapshotPath = snapshotPath ∧
      TopologicalPropagator.init graph.graphDef graph.nodeIds = .ok graph.propagator := by
  unfold init at built
  split at built
  · cases built
  · rename_i loaded
    split at built
    · cases built
    · rename_i sorted
      cases built
      exact ⟨loadGraph_valid loaded, rfl, sorted⟩

/-- A simulation reports on the intervened values, unless two identifiers of
the graph cannot be compared. -/
theorem simulate_eq (floatOfText : String → Option ℚ) (built : init config snapshotPath enumerate = .ok graph)
    (disk : Disk ℚ) (node : Key ℚ) (x now : ℚ) :
    ∃ intervened delta, DoOperator.apply graph.graphDef graph.nodeIds (graph.readSeedValues floatOfText disk) ⟨node, x⟩ =
        .ok intervened ∧
      graph.simulate floatOfText disk ⟨node, x⟩ now =
        if Key.sortable graph.nodeIds.ids then some (graph.calculator.compute intervened now, delta) else none := by
  obtain ⟨valid, _, sorted⟩ := init_spec built
  obtain ⟨intervened, run, keys, _⟩ :=
    valid.apply_declared graph.nodeIds (graph.readSeedValues floatOfText disk) node x
  have baselineKeys : (graph.propagator.propagate (graph.readSeedValues floatOfText disk)).keys = graph.nodeIds.ids := by
    obtain ⟨topoOrder, isSelf, _⟩ := valid.init_spec graph.nodeIds
    have isPropagator := sorted.symm.trans isSelf
    rw [keys_propagate, Except.ok.inj isPropagator]
  have nodes : DoOperator.allNodes (graph.propagator.propagate (graph.readSeedValues floatOfText disk)) intervened =
      graph.nodeIds.ids := by
    rw [DoOperator.allNodes, baselineKeys, keys, List.append_right_eq_self, List.filter_eq_nil_iff]
    exact fun n member => by simpa using member
  by_cases sortable : Key.sortable graph.nodeIds.ids = true
  · obtain ⟨delta, compared⟩ : ∃ delta, DoOperator.compare
        (graph.propagator.propagate (graph.readSeedValues floatOfText disk)) intervened = some delta :=
      ⟨_, by rw [DoOperator.compare, nodes, Key.sorted, if_pos sortable]; rfl⟩
    exact ⟨intervened, delta, run, by simp only [simulate, run, compared, if_pos sortable]⟩
  · refine ⟨intervened, ∅, run, ?_⟩
    rw [if_neg sortable]
    simp only [simulate, run, DoOperator.compare, nodes, Key.sorted, if_neg sortable, Option.map_none]

end CoherenceGraph

end Centroid
