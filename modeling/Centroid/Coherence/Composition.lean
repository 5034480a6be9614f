import Centroid.Coherence.DoOperator

namespace Centroid

variable {ν : Type} [DecidableEq ν]

/-- The values of `propagate` after its forward pass, neither rounded nor clamped. -/
def TopologicalPropagator.forwardPass (self : TopologicalPropagator ν) (seedValues : Dict ν ℚ) : Dict ν ℚ :=
  self.topoOrder.foldl (fun values node => self.graph.fwdEdges.foldl (forwardEdge node) values)
    (self.startValues seedValues)

theorem TopologicalPropagator.propagate_forwardPass (self : TopologicalPropagator ν) (seedValues : Dict ν ℚ) :
    self.propagate seedValues =
      (self.graph.feedbackEdges.foldl feedbackEdge (self.forwardPass seedValues)).mapValues fun _ v => clampOutput v :=
  rfl

theorem seedValue_set (seedValues : Dict ν ℚ) (node : ν) (x : ℚ) :
    seedValue (seedValues.set node x) = Function.update (seedValue seedValues) node x := by
  funext n
  by_cases here : node = n
  · subst here
    rw [seedValue, Dict.get?_set_self, Function.update_self]
    rfl
  · rw [seedValue, Dict.get?_set_of_ne _ _ here, Function.update_of_ne (Ne.symm here), seedValue]

variable {g : CoherenceGraphDef ν ℚ}

/-- A node that is forced to its own forward value leaves every forward value as it is. -/
theorem forwardValue_forced (acyclic : g.Acyclic) (seedValues : Dict ν ℚ) (node : ν) :
    (g.severInbound node).forwardValue (acyclic.severInbound node)
        (seedValues.set node (g.forwardValue acyclic seedValues node)) = g.forwardValue acyclic seedValues := by
  rw [CoherenceGraphDef.forwardValue, seedValue_set]
  exact Dataflow.value_forced (Dataflow.Acyclic.wellFounded acyclic)
    (Dataflow.Acyclic.wellFounded (acyclic.severInbound node)) rfl rfl (fwdEdges_severInbound_self g node)
    fun n other => inbound_severInbound other

/-- On an acyclic graph the forward pass leaves each declared node its forward value. -/
theorem CoherenceGraphDef.Valid.forwardPass_get? (valid : g.Valid) (acyclic : g.Acyclic) {nodeIds : SetOrder g.nodeIds}
    {order : List ν} (perm : order.Perm g.nodeIds) (sorted : g.flow.Sorted order) (seedValues : Dict ν ℚ) {n : ν}
    (declared : n ∈ g.nodeIds) :
    (TopologicalPropagator.forwardPass ⟨g, nodeIds, order⟩ seedValues).get? n =
      some (g.forwardValue acyclic seedValues n) := by
  have start := Represents.ofKeys nodeIds.distinct (seedValue seedValues)
  have listed : order ⊆ nodeIds.ids := fun m member => (nodeIds.mem_iff m).mpr (perm.subset member)
  have passed := start.pass id listed (fun e => edgeType_of_mem_fwdEdges)
    fun e edge => (valid.fwdDeclared nodeIds.mem_iff e edge).1
  have atNode := passed.at_node n ((nodeIds.mem_iff n).mpr declared)
  rw [foldl_storeStep_forward, g.flow.pass_eq_value (Dataflow.Acyclic.wellFounded acyclic) _
    (perm.nodup_iff.mpr valid.distinct) sorted, if_pos (perm.mem_iff.mpr declared)] at atNode
  exact atNode

/-- The composition rule: on a loaded acyclic graph without feedback, forcing a
declared node to the value that the forward pass gives it changes nothing. -/
theorem apply_forwardPass {file : Option (Value ℚ)} {g : CoherenceGraphDef (Key ℚ) ℚ} (ok : loadGraph file = .ok g)
    (acyclic : g.Acyclic) (noFeedback : g.feedbackEdges = []) (nodeIds nodeIds' : SetOrder g.nodeIds) {node : Key ℚ}
    (declared : node ∈ g.nodeIds) :
    ∃ self, TopologicalPropagator.init g nodeIds = .ok self ∧ ∀ seedValues, ∃ v intervened,
      (self.forwardPass seedValues).get? node = some v ∧
        DoOperator.apply g nodeIds' seedValues ⟨node, v⟩ = .ok intervened ∧
        ∀ n, intervened.get? n = (self.propagate seedValues).get? n := by
  have valid := loadGraph_valid ok
  obtain ⟨order, built, perm, sorts, _⟩ := valid.init_spec nodeIds
  obtain ⟨self, builtSelf, values⟩ := valid.propagate_get? acyclic nodeIds
  cases Except.ok.inj (builtSelf.symm.trans built)
  refine ⟨_, built, fun seedValues => ?_⟩
  obtain ⟨filteredProp, run, severed⟩ :=
    valid.apply_run acyclic nodeIds' node (g.forwardValue acyclic seedValues node)
  refine ⟨_, _, valid.forwardPass_get? acyclic perm (sorts acyclic) seedValues declared, run seedValues, fun n => ?_⟩
  have noSevered : (g.severInbound node).feedbackEdges = [] := by
    rw [feedbackEdges_severInbound, noFeedback, List.filter_nil]
  rw [severed, values, CoherenceGraphDef.propagatedValue, CoherenceGraphDef.propagatedValue, forwardValue_forced,
    noSevered, noFeedback]

theorem apply_forwardPass_chain :
    ∃ self intervened, TopologicalPropagator.init chainGraph chainOrder = .ok self ∧
      (self.forwardPass ∅).get? (.str "b") = some (1 / 2) ∧
      DoOperator.apply chainGraph chainOrder ∅ ⟨.str "b", 1 / 2⟩ = .ok intervened ∧
      ∀ n, intervened.get? n = (self.propagate ∅).get? n := by
  obtain ⟨self, built, composed⟩ := apply_forwardPass loadGraph_chainDoc chainGraph_acyclic rfl chainOrder chainOrder
    (show Key.str "b" ∈ chainGraph.nodeIds by decide)
  obtain ⟨v, intervened, forward, run, same⟩ := composed ∅
  have half : v = 1 / 2 := by
    have evaluated : TopologicalPropagator.init chainGraph chainOrder = .ok ⟨chainGraph, chainOrder, [.str "a", .str "b"]⟩ :=
      rfl
    cases Except.ok.inj (built.symm.trans evaluated)
    exact Option.some.inj (forward.symm.trans (by decide +kernel))
  subst half
  exact ⟨self, intervened, built, forward, run, same⟩

end Centroid
