import Centroid.Coherence.KahnOrder

namespace Centroid

variable {ν : Type} [DecidableEq ν] {F : Type}

section Keeping

variable [One F] [Add F] [Sub F] [Mul F] [FloatLike F]

/-- What an edge makes of the values of its ends, whatever its type. -/
def EdgeDef.result (e : EdgeDef ν F) (upstream downstream : F) : F :=
  if e.edgeType = .feedback then applyFeedback upstream downstream e.weight
  else applyEdge e.edgeType upstream downstream e.weight

/-- One application of an edge, in place; `keep` is done to the value that it stores. -/
def storeStep (keep : F → F) (values : ν → F) (e : EdgeDef ν F) : ν → F :=
  Function.update values e.toNode (keep (e.result (values e.fromNode) (values e.toNode)))

/-- The edges as `propagate` applies them one after the other, from the order of the nodes. -/
def CoherenceGraphDef.applications (g : CoherenceGraphDef ν F) (order : List ν) : List (EdgeDef ν F) :=
  order.flatMap (fun node => g.fwdEdges.filter fun e => e.toNode = node) ++ g.feedbackEdges

variable (keep : F → F)

/-- `forwardEdge`, with `keep` done to the value that is stored. -/
def forwardEdgeKeeping (node : ν) (values : Dict ν F) (e : EdgeDef ν F) : Dict ν F :=
  if e.toNode ≠ node then values
  else
    match values.get? e.fromNode, values.get? e.toNode with
    | some upstream, some downstream => values.set node (keep (applyEdge e.edgeType upstream downstream e.weight))
    | _, _ => values

/-- `feedbackEdge`, with `keep` done to the value that is stored. -/
def feedbackEdgeKeeping (values : Dict ν F) (e : EdgeDef ν F) : Dict ν F :=
  match values.get? e.fromNode, values.get? e.toNode with
  | some upstream, some downstream => values.set e.toNode (keep (applyFeedback upstream downstream e.weight))
  | _, _ => values

variable [Zero F] [Max F] [Min F]

/-- `propagate`, with `keep` done to the value that each application stores. -/
def TopologicalPropagator.propagateKeeping (self : TopologicalPropagator ν F) (seedValues : Dict ν F) : Dict ν F :=
  let values := self.startValues seedValues
  let values := self.topoOrder.foldl
    (fun values node => self.graph.fwdEdges.foldl (forwardEdgeKeeping keep node) values) values
  let values := self.graph.feedbackEdges.foldl (feedbackEdgeKeeping keep) values
  values.mapValues fun _ v => clampOutput v

theorem TopologicalPropagator.propagateKeeping_id (self : TopologicalPropagator ν F) :
    self.propagateKeeping id = self.propagate := rfl

end Keeping

/-- The dictionary gives the listed nodes the values of a function. -/
structure Represents (ids : List ν) (values : Dict ν F) (f : ν → F) : Prop where
  keys : values.keys = ids
  at_node : ∀ n ∈ ids, values.get? n = some (f n)

theorem Represents.set {ids : List ν} {values : Dict ν F} {f : ν → F} (same : Represents ids values f) {node : ν}
    (member : node ∈ ids) (v : F) : Represents ids (values.set node v) (Function.update f node v) where
  keys := by rw [Dict.keys_set_of_mem _ (same.keys ▸ member), same.keys]
  at_node n inside := Dict.get?_set_update (same.at_node n inside) node v

theorem Represents.get? {ids : List ν} {values : Dict ν F} {f : ν → F} (same : Represents ids values f) (n : ν) :
    values.get? n = if n ∈ ids then some (f n) else none := by
  split
  · exact same.at_node n ‹_›
  · rwa [Dict.get?_eq_none_iff, same.keys]

theorem Represents.mapValues {ids : List ν} {values : Dict ν F} {f : ν → F} (same : Represents ids values f) (g : F → F) :
    Represents ids (values.mapValues fun _ v => g v) (g ∘ f) where
  keys := by rw [Dict.keys_mapValues, same.keys]
  at_node := by
    intro n inside
    rw [Dict.get?_mapValues, same.at_node n inside, Option.map_some, Function.comp_apply]

/-- The nodes and the function decide the dictionary. -/
theorem Represents.unique {ids : List ν} {values values' : Dict ν F} {f : ν → F} (same : Represents ids values f)
    (same' : Represents ids values' f) : values = values' := by
  apply Dict.ext
  rw [values.entries_eq_map fun n listed => same.at_node n (same.keys ▸ listed),
    values'.entries_eq_map fun n listed => same'.at_node n (same'.keys ▸ listed), same.keys, same'.keys]

theorem Represents.ofKeys {ids : List ν} (distinct : ids.Nodup) (f : ν → F) :
    Represents ids (.ofKeys ids distinct f) f where
  keys := Dict.keys_ofKeys _ _ _
  at_node := by
    intro n inside
    rw [Dict.get?_ofKeys, if_pos inside]

section Loops

variable [One F] [Add F] [Sub F] [Mul F] [FloatLike F] (keep : F → F) {ids : List ν} {values : Dict ν F} {f : ν → F}

/-- The loop over all forward edges applies those into its node. -/
theorem Represents.forwardEdges (same : Represents ids values f) {node : ν} (member : node ∈ ids)
    {edges : List (EdgeDef ν F)} (forward : ∀ e ∈ edges, e.edgeType ≠ .feedback)
    (declared : ∀ e ∈ edges, e.fromNode ∈ ids) :
    Represents ids (edges.foldl (forwardEdgeKeeping keep node) values)
      ((edges.filter (fun e => e.toNode = node)).foldl (storeStep keep) f) := by
  induction edges generalizing values f with
  | nil => exact same
  | cons e edges ih =>
    have restForward : ∀ e' ∈ edges, e'.edgeType ≠ .feedback := fun e' inside => forward e' (List.mem_cons_of_mem _ inside)
    have restDeclared : ∀ e' ∈ edges, e'.fromNode ∈ ids := fun e' inside => declared e' (List.mem_cons_of_mem _ inside)
    by_cases here : e.toNode = node
    · have step : forwardEdgeKeeping keep node values e =
          values.set node (keep (e.result (f e.fromNode) (f e.toNode))) := by
        rw [EdgeDef.result, if_neg (forward e List.mem_cons_self)]
        simp only [forwardEdgeKeeping, here, ne_eq, not_true_eq_false, if_false, same.at_node _ member,
          same.at_node _ (declared e List.mem_cons_self)]
      rw [List.foldl_cons, step, List.filter_cons_of_pos (by simpa using here), List.foldl_cons]
      apply ih _ restForward restDeclared
      rw [show storeStep keep f e = Function.update f node _ from congrArg (Function.update f · _) here]
      exact same.set member _
    · have skip : forwardEdgeKeeping keep node values e = values := by simp [forwardEdgeKeeping, here]
      rw [List.foldl_cons, skip, List.filter_cons_of_neg (by simpa using here)]
      exact ih same restForward restDeclared

theorem Represents.pass (same : Represents ids values f) {order : List ν} (inside : order ⊆ ids)
    {edges : List (EdgeDef ν F)} (forward : ∀ e ∈ edges, e.edgeType ≠ .feedback)
    (declared : ∀ e ∈ edges, e.fromNode ∈ ids) :
    Represents ids (order.foldl (fun values node => edges.foldl (forwardEdgeKeeping keep node) values) values)
      ((order.flatMap fun node => edges.filter fun e => e.toNode = node).foldl (storeStep keep) f) := by
  induction order generalizing values f with
  | nil => exact same
  | cons node order ih =>
    obtain ⟨member, rest⟩ := List.cons_subset.mp inside
    rw [List.flatMap_cons, List.foldl_append]
    exact ih (same.forwardEdges keep member forward declared) rest

theorem Represents.feedbackEdges (same : Represents ids values f) {edges : List (EdgeDef ν F)}
    (feedback : ∀ e ∈ edges, e.edgeType = .feedback) (declared : ∀ e ∈ edges, e.fromNode ∈ ids ∧ e.toNode ∈ ids) :
    Represents ids (edges.foldl (feedbackEdgeKeeping keep) values) (edges.foldl (storeStep keep) f) := by
  induction edges generalizing values f with
  | nil => exact same
  | cons e edges ih =>
    obtain ⟨fromIn, toIn⟩ := declared e List.mem_cons_self
    have step : feedbackEdgeKeeping keep values e =
        values.set e.toNode (keep (e.result (f e.fromNode) (f e.toNode))) := by
      rw [EdgeDef.result, if_pos (feedback e List.mem_cons_self)]
      simp only [feedbackEdgeKeeping, same.at_node _ fromIn, same.at_node _ toIn]
    rw [List.foldl_cons, List.foldl_cons, step]
    exact ih (same.set toIn _) (fun e' member => feedback e' (List.mem_cons_of_mem _ member))
      fun e' member => declared e' (List.mem_cons_of_mem _ member)

end Loops

section Graph

variable {g : CoherenceGraphDef ν F}

omit [DecidableEq ν] in
theorem edgeType_of_mem_fwdEdges {e : EdgeDef ν F} (edge : e ∈ g.fwdEdges) : e.edgeType ≠ .feedback :=
  of_decide_eq_true (List.mem_filter.mp edge).2

omit [DecidableEq ν] in
theorem edgeType_of_mem_feedbackEdges {e : EdgeDef ν F} (edge : e ∈ g.feedbackEdges) : e.edgeType = .feedback :=
  of_decide_eq_true (List.mem_filter.mp edge).2

theorem mem_edges_of_mem_applications {order : List ν} {e : EdgeDef ν F} (applied : e ∈ g.applications order) :
    e ∈ g.edges := by
  rcases List.mem_append.mp applied with forward | feedback
  · obtain ⟨_, _, into⟩ := List.mem_flatMap.mp forward
    exact (List.mem_filter.mp (List.mem_filter.mp into).1).1
  · exact (List.mem_filter.mp feedback).1

variable [One F] [Add F] [Sub F] [Mul F] [Zero F] [LT F]

omit [DecidableEq ν] [Add F] [Sub F] [Mul F] in
theorem CoherenceGraphDef.Valid.feedbackDeclared (valid : g.Valid) {ids : List ν} (mem_iff : ∀ n, n ∈ ids ↔ n ∈ g.nodeIds) :
    ∀ e ∈ g.feedbackEdges, e.fromNode ∈ ids ∧ e.toNode ∈ ids := by
  intro e member
  have edge := (List.mem_filter.mp member).1
  exact ⟨(mem_iff _).mpr (valid.fromDeclared e edge), (mem_iff _).mpr (valid.toDeclared e edge)⟩

/-- The constructor never fails on declared ends. Its order has each declared node
once, is sorted along the forward edges when they have no cycle, and is the order of
the declarations when they have one. -/
theorem CoherenceGraphDef.Valid.init_spec (valid : g.Valid) (nodeIds : SetOrder g.nodeIds) :
    ∃ topoOrder, TopologicalPropagator.init g nodeIds = .ok ⟨g, nodeIds, topoOrder⟩ ∧ topoOrder.Perm g.nodeIds ∧
      (g.Acyclic → g.flow.Sorted topoOrder) ∧ (¬ g.Acyclic → topoOrder = g.nodeIds) := by
  by_cases acyclic : g.Acyclic
  · obtain ⟨order, run, distinct, members, sorted⟩ := kahn_acyclic valid acyclic nodeIds
    refine ⟨order, by simp only [TopologicalPropagator.init, run], ?_, fun _ => sorted, fun cyclic => absurd acyclic cyclic⟩
    exact (List.perm_ext_iff_of_nodup distinct valid.distinct).mpr members
  · obtain ⟨order, run, distinct, inside, sorted, _⟩ := kahn_spec valid nodeIds
    have incomplete : order.length ≠ nodeIds.ids.length := by
      intro complete
      have perm : order.Perm nodeIds.ids := (List.subperm_of_subset distinct inside).perm_of_length_le complete.ge
      exact acyclic (sorted.acyclic distinct fun e edge =>
        perm.mem_iff.mpr (valid.fwdDeclared nodeIds.mem_iff e edge).2)
    rw [if_pos incomplete] at run
    exact ⟨g.nodeIds, by simp only [TopologicalPropagator.init, run], .refl _, fun sorts => absurd sorts acyclic, fun _ => rfl⟩

variable [Max F] [Min F] [FloatLike F]

/-- The loops of `propagate` apply the edges one after the other to the seeds. -/
theorem CoherenceGraphDef.Valid.represents_keeping (valid : g.Valid) (nodeIds : SetOrder g.nodeIds) {order : List ν}
    (inside : order ⊆ g.nodeIds) (keep : F → F) (seedValues : Dict ν F) :
    Represents nodeIds.ids (TopologicalPropagator.propagateKeeping keep ⟨g, nodeIds, order⟩ seedValues)
      (clampOutput ∘ (g.applications order).foldl (storeStep keep) (seedValue seedValues)) := by
  have start := Represents.ofKeys nodeIds.distinct (seedValue seedValues)
  have listed : order ⊆ nodeIds.ids := fun m member => (nodeIds.mem_iff m).mpr (inside member)
  have passed := start.pass keep listed (fun e => edgeType_of_mem_fwdEdges)
    fun e edge => (valid.fwdDeclared nodeIds.mem_iff e edge).1
  have finished := passed.feedbackEdges keep (fun e => edgeType_of_mem_feedbackEdges)
    (valid.feedbackDeclared nodeIds.mem_iff)
  rw [CoherenceGraphDef.applications, List.foldl_append]
  exact finished.mapValues clampOutput

theorem CoherenceGraphDef.Valid.propagateKeeping_get? (valid : g.Valid) (nodeIds : SetOrder g.nodeIds) {order : List ν}
    (inside : order ⊆ g.nodeIds) (keep : F → F) (seedValues : Dict ν F) (n : ν) :
    (TopologicalPropagator.propagateKeeping keep ⟨g, nodeIds, order⟩ seedValues).get? n =
      if n ∈ g.nodeIds then
        some (clampOutput ((g.applications order).foldl (storeStep keep) (seedValue seedValues) n))
      else none := by
  rw [(valid.represents_keeping nodeIds inside keep seedValues).get?]
  simp only [nodeIds.mem_iff, Function.comp_apply]

theorem CoherenceGraphDef.Valid.propagate_get?_applications (valid : g.Valid) (nodeIds : SetOrder g.nodeIds)
    {order : List ν} (inside : order ⊆ g.nodeIds) (seedValues : Dict ν F) (n : ν) :
    (TopologicalPropagator.propagate ⟨g, nodeIds, order⟩ seedValues).get? n =
      if n ∈ g.nodeIds then some (clampOutput ((g.applications order).foldl (storeStep id) (seedValue seedValues) n))
      else none :=
  valid.propagateKeeping_get? nodeIds inside id seedValues n

omit [Zero F] [LT F] [Max F] [Min F] in
/-- Without keeping anything back, the applications of the forward edges are the
pass over their network. -/
theorem foldl_storeStep_forward (order : List ν) (f : ν → F) :
    (order.flatMap fun node => g.fwdEdges.filter fun e => e.toNode = node).foldl (storeStep id) f =
      g.flow.pass order f := by
  rw [Dataflow.pass_eq_foldl]
  refine List.foldl_ext _ _ _ fun values e member => ?_
  obtain ⟨_, _, into⟩ := List.mem_flatMap.mp member
  rw [storeStep, EdgeDef.result, if_neg (edgeType_of_mem_fwdEdges (List.mem_filter.mp into).1)]
  rfl

end Graph

end Centroid
