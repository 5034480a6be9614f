import Centroid.Coherence.EdgeApplications

namespace Centroid

open TopologicalPropagator

variable {ν : Type} [DecidableEq ν] {F : Type} [One F] [Add F] [Sub F] [Mul F] [FloatLike F]

/-- The recursive reading of the forward pass: the non-feedback edges into a
node, in declaration order, act on its starting value with the forward values
of their sources. -/
noncomputable def CoherenceGraphDef.forwardValue (g : CoherenceGraphDef ν F) (acyclic : g.Acyclic)
    (seedValues : Dict ν F) : ν → F :=
  g.flow.value (Dataflow.Acyclic.wellFounded acyclic) (seedValue seedValues)

theorem CoherenceGraphDef.forwardValue_eq (g : CoherenceGraphDef ν F) (acyclic : g.Acyclic)
    (seedValues : Dict ν F) (n : ν) :
    g.forwardValue acyclic seedValues n =
      (g.fwdEdges.filter (fun e => e.toNode = n)).foldl
        (fun acc e => applyEdge e.edgeType (g.forwardValue acyclic seedValues e.fromNode) acc e.weight)
        (seedValue seedValues n) :=
  g.flow.value_eq _ _ n

/-- A feedback edge acts in place on a valuation of the nodes. -/
def feedbackStep (values : ν → F) (e : EdgeDef ν F) : ν → F :=
  Function.update values e.toNode (applyFeedback (values e.fromNode) (values e.toNode) e.weight)

/-- What `propagate` should report of a node: the forward values, corrected by
the feedback edges once each in declaration order, then rounded and clamped. -/
noncomputable def CoherenceGraphDef.propagatedValue [Zero F] [Max F] [Min F] (g : CoherenceGraphDef ν F) (acyclic : g.Acyclic)
    (seedValues : Dict ν F) (n : ν) : F :=
  clampOutput (g.feedbackEdges.foldl feedbackStep (g.forwardValue acyclic seedValues) n)

variable {g : CoherenceGraphDef ν F}

/-- Without keeping anything back, the applications of the feedback edges are their
steps. -/
theorem foldl_storeStep_feedback (f : ν → F) :
    g.feedbackEdges.foldl (storeStep id) f = g.feedbackEdges.foldl feedbackStep f := by
  refine List.foldl_ext _ _ _ fun values e edge => ?_
  rw [storeStep, EdgeDef.result, if_pos (edgeType_of_mem_feedbackEdges edge)]
  rfl

omit [One F] in
/-- The feedback pass reads only values of declared nodes. -/
theorem foldl_feedbackStep_congr {edges : List (EdgeDef ν F)} {f f' : ν → F} (closed : ν → Prop)
    (declared : ∀ e ∈ edges, closed e.toNode → closed e.fromNode) (same : ∀ n, closed n → f n = f' n) (n : ν)
    (inside : closed n) : edges.foldl feedbackStep f n = edges.foldl feedbackStep f' n := by
  induction edges generalizing f f' with
  | nil => exact same n inside
  | cons e edges ih =>
    apply ih fun e' member => declared e' (List.mem_cons_of_mem _ member)
    intro m closedM
    by_cases here : m = e.toNode
    · subst here
      simp only [feedbackStep, Function.update_self, same _ closedM, same _ (declared e List.mem_cons_self closedM)]
    · simp only [feedbackStep, Function.update_of_ne here, same m closedM]

/-- The in-place passes compute the recursive reading, in every enumeration
order of the identifier set. -/
theorem CoherenceGraphDef.Valid.propagate_get? [Zero F] [Max F] [Min F] [LT F] (valid : g.Valid) (acyclic : g.Acyclic)
    (nodeIds : SetOrder g.nodeIds) :
    ∃ self, TopologicalPropagator.init g nodeIds = .ok self ∧ ∀ seedValues n,
      (self.propagate seedValues).get? n =
        if n ∈ g.nodeIds then some (g.propagatedValue acyclic seedValues n) else none := by
  obtain ⟨order, built, perm, sorts, _⟩ := valid.init_spec nodeIds
  refine ⟨⟨g, nodeIds, order⟩, built, fun seedValues n => ?_⟩
  have forward : ∀ m, m ∈ g.nodeIds →
      g.flow.pass order (seedValue seedValues) m = g.forwardValue acyclic seedValues m := by
    intro m member
    rw [g.flow.pass_eq_value (Dataflow.Acyclic.wellFounded acyclic) _ (perm.nodup_iff.mpr valid.distinct) (sorts acyclic),
      if_pos (perm.mem_iff.mpr member)]
    rfl
  have closed : ∀ e ∈ g.feedbackEdges, e.toNode ∈ g.nodeIds → e.fromNode ∈ g.nodeIds :=
    fun e member _ => valid.fromDeclared e (List.mem_filter.mp member).1
  rw [valid.propagate_get?_applications nodeIds perm.subset, CoherenceGraphDef.applications, List.foldl_append,
    foldl_storeStep_forward, foldl_storeStep_feedback]
  by_cases member : n ∈ g.nodeIds
  · rw [if_pos member, if_pos member, CoherenceGraphDef.propagatedValue,
      foldl_feedbackStep_congr (· ∈ g.nodeIds) closed forward n member]
  · rw [if_neg member, if_neg member]

/-- For a loaded acyclic graph there is one valuation that satisfies the
recursive reading, and `propagate` reports it, corrected by the feedback
edges, whatever the enumeration order of the identifier set. -/
theorem propagate_recursive {file : Option (Value ℚ)} {g : CoherenceGraphDef (Key ℚ) ℚ}
    (ok : loadGraph file = .ok g) (acyclic : g.Acyclic) (seedValues : Dict (Key ℚ) ℚ) :
    ∃ forward : Key ℚ → ℚ,
      (∀ f : Key ℚ → ℚ, f = forward ↔ ∀ n, f n =
        (g.fwdEdges.filter (fun e => e.toNode = n)).foldl
          (fun acc e => applyEdge e.edgeType (f e.fromNode) acc e.weight) (seedValue seedValues n)) ∧
      ∀ nodeIds : SetOrder g.nodeIds, ∃ self, TopologicalPropagator.init g nodeIds = .ok self ∧
        ∀ n, (self.propagate seedValues).get? n =
          if n ∈ g.nodeIds then some (clampOutput (g.feedbackEdges.foldl feedbackStep forward n)) else none := by
  refine ⟨g.forwardValue acyclic seedValues, fun f => ⟨?_, ?_⟩, fun nodeIds => ?_⟩
  · rintro rfl n
    exact g.forwardValue_eq acyclic seedValues n
  · intro recursion
    exact g.flow.value_unique (Dataflow.Acyclic.wellFounded acyclic) recursion
  · obtain ⟨self, built, values⟩ := (loadGraph_valid ok).propagate_get? acyclic nodeIds
    exact ⟨self, built, values seedValues⟩

/-- Two nodes and one proportional edge between them. -/
def chainDoc : Value ℚ :=
  .dict [(.str "nodes", .list [.dict [(.str "id", .str "a")], .dict [(.str "id", .str "b")]]),
    (.str "edges", .list [.dict [(.str "from", .str "a"), (.str "to", .str "b"),
      (.str "type", .str "proportional"), (.str "weight", .num 1)]])]

def chainGraph : CoherenceGraphDef (Key ℚ) ℚ where
  nodes := [⟨.str "a", .str ""⟩, ⟨.str "b", .str ""⟩]
  edges := [⟨.str "a", .str "b", .proportional, 1⟩]

def chainOrder : SetOrder chainGraph.nodeIds := ⟨[.str "b", .str "a"], by decide,
  by simp [CoherenceGraphDef.nodeIds, chainGraph, or_comm]⟩

theorem loadGraph_chainDoc : loadGraph (some chainDoc) = .ok chainGraph := by
  rfl

theorem chainGraph_acyclic : chainGraph.Acyclic :=
  .of_rank (fun n => if n = .str "a" then 0 else 1) (by decide)

theorem propagate_recursive_chain :
    ∃ forward : Key ℚ → ℚ, forward (.str "b") = forward (.str "a") * 1 ∧
      ∀ nodeIds : SetOrder chainGraph.nodeIds, ∃ self, TopologicalPropagator.init chainGraph nodeIds = .ok self ∧
        (self.propagate ∅).get? (.str "b") = some (1 / 2) := by
  obtain ⟨forward, recursion, reported⟩ := propagate_recursive loadGraph_chainDoc chainGraph_acyclic ∅
  have at_node := (recursion forward).mp rfl
  have atA : forward (.str "a") = 1 / 2 := at_node (.str "a")
  have atB : forward (.str "b") = forward (.str "a") * 1 := at_node (.str "b")
  refine ⟨forward, atB, fun nodeIds => ?_⟩
  obtain ⟨self, built, values⟩ := reported nodeIds
  refine ⟨self, built, (values (.str "b")).trans ?_⟩
  have half : clampOutput (1 / 2 : ℚ) = 1 / 2 := by decide +kernel
  rw [if_pos (by decide), show chainGraph.feedbackEdges = [] from rfl, List.foldl_nil, atB, atA, mul_one, half]

end Centroid
