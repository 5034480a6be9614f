import Centroid.Coherence.ForwardValue

namespace Centroid

variable {ν : Type} [DecidableEq ν]

/-- `forwardEdge`, with a ledger of the edges that are applied. -/
def forwardEdgeLogged (node : ν) (state : Dict ν ℚ × List (EdgeDef ν ℚ)) (e : EdgeDef ν ℚ) :
    Dict ν ℚ × List (EdgeDef ν ℚ) :=
  if e.toNode ≠ node then state
  else
    match state.1.get? e.fromNode, state.1.get? e.toNode with
    | some upstream, some downstream =>
      (state.1.set node (applyEdge e.edgeType upstream downstream e.weight), state.2 ++ [e])
    | _, _ => state

/-- `feedbackEdge`, with a ledger of the edges that are applied. -/
def feedbackEdgeLogged (state : Dict ν ℚ × List (EdgeDef ν ℚ)) (e : EdgeDef ν ℚ) : Dict ν ℚ × List (EdgeDef ν ℚ) :=
  match state.1.get? e.fromNode, state.1.get? e.toNode with
  | some upstream, some downstream =>
    (state.1.set e.toNode (applyFeedback upstream downstream e.weight), state.2 ++ [e])
  | _, _ => state

/-- `propagate`, with the edges that the forward pass and the post-pass apply. -/
def TopologicalPropagator.propagateLogged (self : TopologicalPropagator ν) (seedValues : Dict ν ℚ) :
    Dict ν ℚ × List (EdgeDef ν ℚ) × List (EdgeDef ν ℚ) :=
  let values := self.startValues seedValues
  let (values, forward) := self.topoOrder.foldl
    (fun state node => self.graph.fwdEdges.foldl (forwardEdgeLogged node) state) (values, [])
  let (values, feedback) := self.graph.feedbackEdges.foldl feedbackEdgeLogged (values, [])
  (values.mapValues fun _ v => clampOutput v, forward, feedback)

section Ledger

variable {ids : List ν} {values : Dict ν ℚ}

/-- The ledger gets the edges into the node, since the values of all ends are there. -/
theorem foldl_forwardEdgeLogged (keys : values.keys = ids) {node : ν} (member : node ∈ ids)
    {edges : List (EdgeDef ν ℚ)} (declared : ∀ e ∈ edges, e.fromNode ∈ ids) (log : List (EdgeDef ν ℚ)) :
    edges.foldl (forwardEdgeLogged node) (values, log) =
        (edges.foldl (forwardEdge node) values, log ++ edges.filter fun e => e.toNode = node) ∧
      (edges.foldl (forwardEdge node) values).keys = ids := by
  induction edges generalizing values log with
  | nil => exact ⟨by simp, keys⟩
  | cons e edges ih =>
    have rest : ∀ e' ∈ edges, e'.fromNode ∈ ids := fun e' inside => declared e' (List.mem_cons_of_mem _ inside)
    by_cases here : e.toNode = node
    · obtain ⟨upstream, atFrom⟩ := (values.mem_keys_iff e.fromNode).mp (keys ▸ declared e List.mem_cons_self)
      obtain ⟨downstream, atTo⟩ := (values.mem_keys_iff node).mp (keys ▸ member)
      have logged : forwardEdgeLogged node (values, log) e = (forwardEdge node values e, log ++ [e]) := by
        simp only [forwardEdgeLogged, forwardEdge, here, ne_eq, not_true_eq_false, if_false, atFrom, atTo]
      have kept : (forwardEdge node values e).keys = ids := by
        simp only [forwardEdge, here, ne_eq, not_true_eq_false, if_false, atFrom, atTo]
        rw [Dict.keys_set_of_mem _ (keys ▸ member), keys]
      obtain ⟨run, last⟩ := ih kept rest (log ++ [e])
      rw [List.foldl_cons, List.foldl_cons, logged, run, List.filter_cons_of_pos (by simpa using here)]
      exact ⟨by simp, last⟩
    · have skipLogged : forwardEdgeLogged node (values, log) e = (values, log) := by simp [forwardEdgeLogged, here]
      have skip : forwardEdge node values e = values := by simp [forwardEdge, here]
      rw [List.foldl_cons, List.foldl_cons, skipLogged, skip, List.filter_cons_of_neg (by simpa using here)]
      exact ih keys rest log

theorem foldl_passLogged (keys : values.keys = ids) {order : List ν} (inside : order ⊆ ids) {edges : List (EdgeDef ν ℚ)}
    (declared : ∀ e ∈ edges, e.fromNode ∈ ids) (log : List (EdgeDef ν ℚ)) :
    order.foldl (fun state node => edges.foldl (forwardEdgeLogged node) state) (values, log) =
        (order.foldl (fun values node => edges.foldl (forwardEdge node) values) values,
          log ++ order.flatMap fun node => edges.filter fun e => e.toNode = node) ∧
      (order.foldl (fun values node => edges.foldl (forwardEdge node) values) values).keys = ids := by
  induction order generalizing values log with
  | nil => exact ⟨by simp, keys⟩
  | cons node order ih =>
    obtain ⟨member, rest⟩ := List.cons_subset.mp inside
    obtain ⟨run, kept⟩ := foldl_forwardEdgeLogged keys member declared log
    obtain ⟨later, last⟩ := ih kept rest (log ++ edges.filter fun e => e.toNode = node)
    rw [List.foldl_cons, List.foldl_cons, run, later, List.flatMap_cons, List.append_assoc]
    exact ⟨rfl, last⟩

theorem foldl_feedbackEdgeLogged (keys : values.keys = ids) {edges : List (EdgeDef ν ℚ)}
    (declared : ∀ e ∈ edges, e.fromNode ∈ ids ∧ e.toNode ∈ ids) (log : List (EdgeDef ν ℚ)) :
    edges.foldl feedbackEdgeLogged (values, log) = (edges.foldl feedbackEdge values, log ++ edges) := by
  induction edges generalizing values log with
  | nil => simp
  | cons e edges ih =>
    obtain ⟨fromIn, toIn⟩ := declared e List.mem_cons_self
    obtain ⟨upstream, atFrom⟩ := (values.mem_keys_iff e.fromNode).mp (keys ▸ fromIn)
    obtain ⟨downstream, atTo⟩ := (values.mem_keys_iff e.toNode).mp (keys ▸ toIn)
    have logged : feedbackEdgeLogged (values, log) e = (feedbackEdge values e, log ++ [e]) := by
      simp only [feedbackEdgeLogged, feedbackEdge, atFrom, atTo]
    have kept : (feedbackEdge values e).keys = ids := by
      simp only [feedbackEdge, atFrom, atTo]
      rw [Dict.keys_set_of_mem _ (keys ▸ toIn), keys]
    rw [List.foldl_cons, List.foldl_cons, logged, ih kept fun e' member => declared e' (List.mem_cons_of_mem _ member)]
    simp

end Ledger

variable {g : CoherenceGraphDef ν ℚ}

/-- The ledger does not change what is propagated, and it has the edges in the order of
their application. -/
theorem CoherenceGraphDef.Valid.propagateLogged_eq (valid : g.Valid) (nodeIds : SetOrder g.nodeIds) {order : List ν}
    (inside : order ⊆ g.nodeIds) (seedValues : Dict ν ℚ) :
    let self : TopologicalPropagator ν := ⟨g, nodeIds, order⟩
    self.propagateLogged seedValues = (self.propagate seedValues,
      order.flatMap fun node => g.fwdEdges.filter fun e => e.toNode = node, g.feedbackEdges) := by
  have listed : order ⊆ nodeIds.ids := fun m member => (nodeIds.mem_iff m).mpr (inside member)
  obtain ⟨passed, keys⟩ := foldl_passLogged (Dict.keys_ofKeys nodeIds.ids nodeIds.distinct (seedValue seedValues)) listed
    (fun e edge => (valid.fwdDeclared nodeIds.mem_iff e edge).1) []
  have finished := foldl_feedbackEdgeLogged keys (valid.feedbackDeclared nodeIds.mem_iff) []
  simp only [TopologicalPropagator.propagateLogged, TopologicalPropagator.startValues, TopologicalPropagator.propagate,
    passed, finished, List.nil_append]

/-- The sort of a loaded graph returns, in every enumeration order of the identifier
set: a permutation of the declared nodes, along the non-feedback edges when they have
no cycle, and the declaration order when they have one. Propagation then applies every
edge exactly once. -/
theorem propagate_applies_once {file : Option (Value ℚ)} {g : CoherenceGraphDef (Key ℚ) ℚ}
    (ok : loadGraph file = .ok g) (nodeIds : SetOrder g.nodeIds) :
    ∃ self, TopologicalPropagator.init g nodeIds = .ok self ∧ self.topoOrder.Perm g.nodeIds ∧
      (g.Acyclic → ∀ e ∈ g.fwdEdges, self.topoOrder.idxOf e.fromNode < self.topoOrder.idxOf e.toNode) ∧
      (¬ g.Acyclic → self.topoOrder = g.nodeIds) ∧
      ∀ seedValues, ∃ forward feedback,
        self.propagateLogged seedValues = (self.propagate seedValues, forward, feedback) ∧
          forward.Perm g.fwdEdges ∧ feedback.Perm g.feedbackEdges := by
  have valid := loadGraph_valid ok
  obtain ⟨order, built, perm, sorts, declares⟩ := valid.init_spec nodeIds
  have distinct : order.Nodup := perm.nodup_iff.mpr valid.distinct
  have covers : ∀ e ∈ g.flow.edges, g.flow.target e ∈ order := fun e edge =>
    perm.mem_iff.mpr (valid.toDeclared e (List.mem_filter.mp edge).1)
  refine ⟨_, built, perm, fun acyclic e edge => ?_, declares, fun seedValues => ?_⟩
  · exact (sorts acyclic).idxOf_lt distinct edge (covers e edge)
  · exact ⟨_, _, valid.propagateLogged_eq nodeIds perm.subset seedValues, g.flow.flatMap_inbound_perm distinct covers, .refl _⟩

theorem propagate_applies_once_chain :
    ∃ self, TopologicalPropagator.init chainGraph chainOrder = .ok self ∧
      self.topoOrder.idxOf (.str "a") < self.topoOrder.idxOf (.str "b") := by
  obtain ⟨self, built, _, sorted, _⟩ := propagate_applies_once loadGraph_chainDoc chainOrder
  exact ⟨self, built, sorted chainGraph_acyclic ⟨.str "a", .str "b", .proportional, 1⟩ List.mem_cons_self⟩

end Centroid
