import Centroid.Lib.FloatOps
import Centroid.Coherence.GraphLoader

namespace Centroid

variable {ν : Type} [DecidableEq ν] {F : Type}

/-- One order in which a set built from the declared identifiers may be
enumerated. The order of a hash set changes from process to process. -/
structure SetOrder (declared : List ν) where
  ids : List ν
  distinct : ids.Nodup
  mem_iff : ∀ n, n ∈ ids ↔ n ∈ declared

def CoherenceGraphDef.feedbackEdges (g : CoherenceGraphDef ν F) : List (EdgeDef ν F) :=
  g.edges.filter (fun e => e.edgeType = .feedback)

def CoherenceGraphDef.fwdEdges (g : CoherenceGraphDef ν F) : List (EdgeDef ν F) :=
  g.edges.filter (fun e => e.edgeType ≠ .feedback)

/-- How the sort may fail: a lookup of a missing key, or a queue that is not
empty after the turns allotted to the loop. -/
inductive KahnFault where
  | keyError
  | outOfFuel

/-- The first loop of `_kahn`: in-degrees and child lists. -/
def countEdges : List (EdgeDef ν F) → Dict ν ℤ → Dict ν (List ν) →
    Except KahnFault (Dict ν ℤ × Dict ν (List ν))
  | [], inDegree, children => .ok (inDegree, children)
  | e :: rest, inDegree, children =>
    match inDegree.get? e.toNode, children.get? e.fromNode with
    | some degree, some siblings =>
      countEdges rest (inDegree.set e.toNode (degree + 1)) (children.set e.fromNode (siblings ++ [e.toNode]))
    | _, _ => .error .keyError

/-- The inner loop of `_kahn` over the children of one node. -/
def visitChildren : List ν → Dict ν ℤ → List ν → Except KahnFault (Dict ν ℤ × List ν)
  | [], inDegree, queue => .ok (inDegree, queue)
  | child :: rest, inDegree, queue =>
    match inDegree.get? child with
    | none => .error .keyError
    | some degree =>
      visitChildren rest (inDegree.set child (degree - 1))
        (if degree - 1 = 0 then queue ++ [child] else queue)

structure KahnState (ν : Type) where
  inDegree : Dict ν ℤ
  queue : List ν
  order : List ν

/-- The `while queue` loop of `_kahn`. -/
def kahnLoop (children : Dict ν (List ν)) : ℕ → KahnState ν → Except KahnFault (List ν)
  | 0, _ => .error .outOfFuel
  | fuel + 1, state =>
    match state.queue with
    | [] => .ok state.order
    | node :: queue =>
      match children.get? node with
      | none => .error .keyError
      | some below =>
        match visitChildren below state.inDegree queue with
        | .error fault => .error fault
        | .ok (inDegree, queue) => kahnLoop children fuel ⟨inDegree, queue, state.order ++ [node]⟩

/-- `_kahn`: a topological order of the forward edges, or the declaration
order when they contain a cycle. -/
def kahn (g : CoherenceGraphDef ν F) (nodeIds : SetOrder g.nodeIds) : Except KahnFault (List ν) :=
  match countEdges g.fwdEdges (.ofKeys nodeIds.ids nodeIds.distinct fun _ => 0)
      (.ofKeys nodeIds.ids nodeIds.distinct fun _ => []) with
  | .error fault => .error fault
  | .ok (inDegree, children) =>
    let queue := (inDegree.entries.filter fun entry => entry.2 = 0).map Prod.fst
    match kahnLoop children (nodeIds.ids.length + 1) ⟨inDegree, queue, []⟩ with
    | .error fault => .error fault
    | .ok order => if order.length ≠ nodeIds.ids.length then .ok g.nodeIds else .ok order

structure TopologicalPropagator (ν : Type) (F : Type := ℚ) where
  graph : CoherenceGraphDef ν F
  nodeIds : SetOrder graph.nodeIds
  topoOrder : List ν

namespace TopologicalPropagator

def init (graph : CoherenceGraphDef ν F) (nodeIds : SetOrder graph.nodeIds) :
    Except KahnFault (TopologicalPropagator ν F) :=
  match kahn graph nodeIds with
  | .error fault => .error fault
  | .ok topoOrder => .ok ⟨graph, nodeIds, topoOrder⟩

variable [Zero F] [One F] [Add F] [Sub F] [Mul F] [Max F] [Min F] [LT F] [DecidableLT F] [FloatLike F] [FloatSum F]

/-- The sum of the weights of the edges into a node, forward edges first; a
node with none, or with weights that vanish, counts once. -/
def inboundWeight (self : TopologicalPropagator ν F) (node : ν) : F :=
  let total := FloatSum.sum ((self.graph.fwdEdges.filter fun e => e.toNode = node).map EdgeDef.weight) +
    FloatSum.sum ((self.graph.feedbackEdges.filter fun e => e.toNode = node).map EdgeDef.weight)
  if 0 < total then total else 1

def inboundWeightSum (self : TopologicalPropagator ν F) : Dict ν F :=
  .ofKeys self.nodeIds.ids self.nodeIds.distinct self.inboundWeight

end TopologicalPropagator

variable [Zero F] [One F] [Add F] [Sub F] [Mul F] [Max F] [Min F] [FloatLike F]

/-- `_apply_edge`. A feedback edge never reaches it; it would pass through. -/
def applyEdge (edgeType : EdgeType) (upstream downstream weight : F) : F :=
  match edgeType with
  | .multiplicativeFactor | .proportional | .modulates => upstream * weight
  | .additiveFactor | .reinforces => downstream + upstream * weight
  | .suppresses => downstream * (1 - upstream * weight)
  | .feedback => downstream

/-- `_apply_feedback`. -/
def applyFeedback (upstream downstream weight : F) : F :=
  downstream + (upstream - FloatLike.literal (1 / 2)) * weight * FloatLike.literal (1 / 20)

/-- One turn of the inner loop of the forward pass. -/
def forwardEdge (node : ν) (values : Dict ν F) (e : EdgeDef ν F) : Dict ν F :=
  if e.toNode ≠ node then values
  else
    match values.get? e.fromNode, values.get? e.toNode with
    | some upstream, some downstream => values.set node (applyEdge e.edgeType upstream downstream e.weight)
    | _, _ => values

/-- One turn of the feedback post-pass. -/
def feedbackEdge (values : Dict ν F) (e : EdgeDef ν F) : Dict ν F :=
  match values.get? e.fromNode, values.get? e.toNode with
  | some upstream, some downstream => values.set e.toNode (applyFeedback upstream downstream e.weight)
  | _, _ => values

/-- The starting value of a node: its seed, one half when there is none. -/
def seedValue (seedValues : Dict ν F) (node : ν) : F := (seedValues.get? node).getD (FloatLike.literal (1 / 2))

/-- What `propagate` reports of a value. -/
def clampOutput (v : F) : F := max 0 (min 1 (FloatLike.roundTo 6 v))

/-- The values that `propagate` begins with. -/
def TopologicalPropagator.startValues (self : TopologicalPropagator ν F) (seedValues : Dict ν F) : Dict ν F :=
  .ofKeys self.nodeIds.ids self.nodeIds.distinct (seedValue seedValues)

def TopologicalPropagator.propagate (self : TopologicalPropagator ν F) (seedValues : Dict ν F) : Dict ν F :=
  let values := Dict.ofKeys self.nodeIds.ids self.nodeIds.distinct (seedValue seedValues)
  let values := self.topoOrder.foldl (fun values node => self.graph.fwdEdges.foldl (forwardEdge node) values) values
  let values := self.graph.feedbackEdges.foldl feedbackEdge values
  values.mapValues fun _ v => clampOutput v

omit [Zero F] [Max F] [Min F] [FloatLike F] in
theorem keys_forwardEdge (node : ν) (values : Dict ν F) (e : EdgeDef ν F) :
    (forwardEdge node values e).keys = values.keys := by
  unfold forwardEdge
  split
  · rfl
  · rename_i into
    split
    · rename_i found
      exact values.keys_set_of_mem ((values.mem_keys_iff _).mpr ⟨_, not_not.mp into ▸ found⟩) _
    · rfl

omit [Zero F] [One F] [Max F] [Min F] in
theorem keys_feedbackEdge (values : Dict ν F) (e : EdgeDef ν F) : (feedbackEdge values e).keys = values.keys := by
  unfold feedbackEdge
  split
  · rename_i found
    exact values.keys_set_of_mem ((values.mem_keys_iff _).mpr ⟨_, found⟩) _
  · rfl

/-- A propagation reports the declared nodes, in the order of their set. -/
theorem keys_propagate (self : TopologicalPropagator ν F) (seedValues : Dict ν F) :
    (self.propagate seedValues).keys = self.nodeIds.ids := by
  have start : (Dict.ofKeys self.nodeIds.ids self.nodeIds.distinct (seedValue seedValues)).keys = self.nodeIds.ids :=
    Dict.keys_ofKeys ..
  rw [TopologicalPropagator.propagate, Dict.keys_mapValues]
  refine List.foldlRecOn _ _ (motive := fun d : Dict ν F => d.keys = self.nodeIds.ids) ?_
    fun d same e _ => (keys_feedbackEdge d e).trans same
  refine List.foldlRecOn _ _ (motive := fun d : Dict ν F => d.keys = self.nodeIds.ids) start fun d same node _ => ?_
  exact List.foldlRecOn _ _ (motive := fun d : Dict ν F => d.keys = self.nodeIds.ids) same
    fun d same e _ => (keys_forwardEdge node d e).trans same

end Centroid
