import Centroid.Coherence.ForwardValue

namespace Centroid

variable {ν : Type} [DecidableEq ν]

structure DoIntervention (ν : Type) where
  nodeId : ν
  fixedValue : ℚ

/-- The graph without the edges into a node. The nodes stay. -/
def CoherenceGraphDef.severInbound (g : CoherenceGraphDef ν ℚ) (node : ν) : CoherenceGraphDef ν ℚ :=
  { g with edges := g.edges.filter (fun e => e.toNode ≠ node) }

namespace DoOperator

/-- `DoOperator.apply`. The fresh propagator enumerates the identifiers of
the same nodes, in an order of its own. -/
def apply (graph : CoherenceGraphDef ν ℚ) (nodeIds : SetOrder graph.nodeIds) (seedValues : Dict ν ℚ)
    (intervention : DoIntervention ν) : Except KahnFault (Dict ν ℚ) :=
  let values := seedValues.set intervention.nodeId intervention.fixedValue
  match TopologicalPropagator.init (graph.severInbound intervention.nodeId) nodeIds with
  | .error fault => .error fault
  | .ok filteredProp => .ok (filteredProp.propagate values)

/-- The union of the key sets of two dictionaries. -/
def allNodes (baseline intervened : Dict ν ℚ) : List ν :=
  baseline.keys ++ intervened.keys.filter (fun n => n ∉ baseline.keys)

/-- `DoOperator.compare`: the rounded differences, in sorted order of the
nodes. The sort fails when two node identifiers cannot be compared. -/
def compare (baseline intervened : Dict (Key ℚ) ℚ) : Option (Dict (Key ℚ) ℚ) :=
  (Key.sorted (allNodes baseline intervened)).map fun nodes =>
    nodes.foldl
      (fun deltas n =>
        deltas.set n (Rounding.roundTo 6 ((intervened.get? n).getD 0 - (baseline.get? n).getD 0)))
      ∅

end DoOperator

section Sever

variable {g : CoherenceGraphDef ν ℚ} {node : ν}

theorem CoherenceGraphDef.Valid.severInbound (valid : g.Valid) (node : ν) : (g.severInbound node).Valid where
  distinct := valid.distinct
  fromDeclared := fun e member => valid.fromDeclared e (List.mem_filter.mp member).1
  toDeclared := fun e member => valid.toDeclared e (List.mem_filter.mp member).1
  weight := fun e member => valid.weight e (List.mem_filter.mp member).1

theorem fwdEdges_severInbound (g : CoherenceGraphDef ν ℚ) (node : ν) :
    (g.severInbound node).fwdEdges = g.fwdEdges.filter (fun e => e.toNode ≠ node) :=
  List.filter_comm ..

theorem feedbackEdges_severInbound (g : CoherenceGraphDef ν ℚ) (node : ν) :
    (g.severInbound node).feedbackEdges = g.feedbackEdges.filter (fun e => e.toNode ≠ node) :=
  List.filter_comm ..

theorem fwdEdges_severInbound_self (g : CoherenceGraphDef ν ℚ) (node : ν) :
    (g.severInbound node).fwdEdges.filter (fun e => e.toNode = node) = [] := by
  rw [fwdEdges_severInbound]
  simp

theorem CoherenceGraphDef.Acyclic.severInbound (acyclic : g.Acyclic) (node : ν) : (g.severInbound node).Acyclic := by
  intro n loop
  refine acyclic n (Relation.TransGen.mono ?_ n n loop)
  rintro a b ⟨e, member, source, target⟩
  have kept : e ∈ (g.severInbound node).fwdEdges := member
  rw [fwdEdges_severInbound] at kept
  exact ⟨e, (List.mem_filter.mp kept).1, source, target⟩

/-- Severing changes no edge into another node. -/
theorem inbound_severInbound {n : ν} (other : n ≠ node) :
    (g.severInbound node).flow.inbound n = g.flow.inbound n := by
  change (g.severInbound node).fwdEdges.filter _ = g.fwdEdges.filter _
  rw [fwdEdges_severInbound, List.filter_filter]
  apply List.filter_congr
  intro e _
  by_cases target : e.toNode = n
  · simp [CoherenceGraphDef.flow, target, other]
  · simp [CoherenceGraphDef.flow, target]

end Sever

/-- An edge of any type, feedback included. -/
def CoherenceGraphDef.Feeds (g : CoherenceGraphDef ν ℚ) (a b : ν) : Prop :=
  ∃ e ∈ g.edges, e.fromNode = a ∧ e.toNode = b

/-- A path of edges of any type, the empty path included. -/
def CoherenceGraphDef.Reaches (g : CoherenceGraphDef ν ℚ) (a b : ν) : Prop :=
  Relation.ReflTransGen g.Feeds a b

variable {g : CoherenceGraphDef ν ℚ}

omit [DecidableEq ν] in
theorem CoherenceGraphDef.Reaches.upstream {node a b : ν} (feeds : g.Feeds a b) (outside : ¬ g.Reaches node b) :
    ¬ g.Reaches node a :=
  fun reaches => outside (reaches.tail feeds)

theorem propagatedValue_severed_self (acyclic : g.Acyclic) (seedValues : Dict ν ℚ) (node : ν) (x : ℚ) :
    (g.severInbound node).propagatedValue (acyclic.severInbound node) (seedValues.set node x) node =
      clampOutput x := by
  have start : (g.severInbound node).forwardValue (acyclic.severInbound node) (seedValues.set node x) node = x := by
    rw [CoherenceGraphDef.forwardValue_eq, fwdEdges_severInbound_self]
    simp [seedValue]
  have untouched : ∀ (edges : List (EdgeDef ν ℚ)), (∀ e ∈ edges, e.toNode ≠ node) → ∀ f : ν → ℚ,
      edges.foldl feedbackStep f node = f node := by
    intro edges
    induction edges with
    | nil => exact fun _ _ => rfl
    | cons e edges ih =>
      intro elsewhere f
      rw [List.foldl_cons, ih fun e' member => elsewhere e' (List.mem_cons_of_mem _ member)]
      exact Function.update_of_ne (Ne.symm (elsewhere e List.mem_cons_self)) _ _
  rw [CoherenceGraphDef.propagatedValue, untouched _ _ _, start]
  intro e member
  rw [feedbackEdges_severInbound] at member
  simpa using (List.mem_filter.mp member).2

/-- The forward values of two nested sets of edges agree wherever the severed
node does not reach, since nothing upstream of such a node is reached either. -/
theorem propagatedValue_severed_of_not_reaches (acyclic : g.Acyclic) (seedValues : Dict ν ℚ) {node n : ν} (x : ℚ)
    (outside : ¬ g.Reaches node n) :
    (g.severInbound node).propagatedValue (acyclic.severInbound node) (seedValues.set node x) n =
      g.propagatedValue acyclic seedValues n := by
  have other : ∀ m, ¬ g.Reaches node m → m ≠ node := fun m far same => far (same ▸ Relation.ReflTransGen.refl)
  have edgeOf : ∀ e ∈ g.feedbackEdges, g.Feeds e.fromNode e.toNode :=
    fun e member => ⟨e, (List.mem_filter.mp member).1, rfl, rfl⟩
  have forward : ∀ m, ¬ g.Reaches node m →
      (g.severInbound node).forwardValue (acyclic.severInbound node) (seedValues.set node x) m =
        g.forwardValue acyclic seedValues m := by
    intro m far
    refine Dataflow.value_congr (G := (g.severInbound node).flow) (H := g.flow) _ _
      (fun m => ¬ g.Reaches node m) rfl rfl (fun k farK => inbound_severInbound (other k farK)) (fun k farK => ?_) ?_ m far
    · simp only [seedValue, Dict.get?_set_of_ne _ _ (Ne.symm (other k farK))]
    · rintro a b ⟨e, member, rfl, rfl⟩ farB
      have edge : e ∈ g.edges := (List.mem_filter.mp (List.mem_filter.mp member).1).1
      exact CoherenceGraphDef.Reaches.upstream ⟨e, edge, rfl, rfl⟩ farB
  have dropped : ∀ (edges : List (EdgeDef ν ℚ)), (∀ e ∈ edges, g.Feeds e.fromNode e.toNode) → ∀ f : ν → ℚ,
      (edges.filter (fun e => e.toNode ≠ node)).foldl feedbackStep f n = edges.foldl feedbackStep f n := by
    intro edges
    induction edges with
    | nil => exact fun _ _ => rfl
    | cons e edges ih =>
      intro feeds f
      have rest := ih fun e' member => feeds e' (List.mem_cons_of_mem _ member)
      by_cases into : e.toNode = node
      · -- the severed edge writes the intervened node only, which nothing outside reads
        rw [List.filter_cons_of_neg (by simpa using into), rest, List.foldl_cons]
        refine foldl_feedbackStep_congr (fun m => ¬ g.Reaches node m) ?_ (fun m far => ?_) n outside
        · intro e' member farTo
          exact CoherenceGraphDef.Reaches.upstream (feeds e' (List.mem_cons_of_mem _ member)) farTo
        · exact (Function.update_of_ne (into ▸ other m far) _ _).symm
      · rw [List.filter_cons_of_pos (by simpa using into), List.foldl_cons, List.foldl_cons, rest]
  rw [CoherenceGraphDef.propagatedValue, CoherenceGraphDef.propagatedValue, feedbackEdges_severInbound,
    dropped _ edgeOf]
  congr 1
  exact foldl_feedbackStep_congr (fun m => ¬ g.Reaches node m)
    (fun e member farTo => CoherenceGraphDef.Reaches.upstream (edgeOf e member) farTo) forward n outside

/-- The comparison reports the rounded difference of every node in it. -/
theorem compare_get? {baseline intervened deltas : Dict (Key ℚ) ℚ}
    (ok : DoOperator.compare baseline intervened = some deltas) {n : Key ℚ}
    (member : n ∈ baseline.keys) : deltas.get? n =
      some (Rounding.roundTo 6 ((intervened.get? n).getD 0 - (baseline.get? n).getD 0)) := by
  obtain ⟨nodes, sorted, rfl⟩ := Option.map_eq_some_iff.mp ok
  have listed : n ∈ nodes := (Key.mem_of_sorted sorted n).mpr (List.mem_append_left _ member)
  rw [Dict.get?_foldl_set nodes
    (fun n => Rounding.roundTo 6 ((intervened.get? n).getD 0 - (baseline.get? n).getD 0)), if_pos listed]

theorem clampOutput_of_mem {x : ℚ} (lower : 0 ≤ x) (upper : x ≤ 1) : clampOutput x = Rounding.roundTo 6 x :=
  Rounding.clamp01_of_mem (Rounding.roundTo_nonneg 6 lower) (Rounding.roundTo_le_one 6 upper)

theorem propagate_congr (self : TopologicalPropagator ν) {seedValues seedValues' : Dict ν ℚ}
    (same : ∀ n, seedValues.get? n = seedValues'.get? n) : self.propagate seedValues = self.propagate seedValues' := by
  have start : seedValue seedValues = seedValue seedValues' := by
    funext n
    simp only [seedValue, same n]
  simp only [TopologicalPropagator.propagate, start]

/-- The fresh propagator of an intervention computes the recursive reading of
the severed graph. -/
theorem CoherenceGraphDef.Valid.apply_run (valid : g.Valid) (acyclic : g.Acyclic) (nodeIds : SetOrder g.nodeIds)
    (node : ν) (x : ℚ) :
    ∃ filteredProp : TopologicalPropagator ν,
      (∀ seedValues, DoOperator.apply g nodeIds seedValues ⟨node, x⟩ =
        .ok (filteredProp.propagate (seedValues.set node x))) ∧
      ∀ seedValues n, (filteredProp.propagate seedValues).get? n =
        if n ∈ g.nodeIds then some ((g.severInbound node).propagatedValue (acyclic.severInbound node) seedValues n)
        else none := by
  obtain ⟨filteredProp, filtered, severed⟩ :=
    (valid.severInbound node).propagate_get? (acyclic.severInbound node) nodeIds
  refine ⟨filteredProp, fun seedValues => ?_, severed⟩
  simp only [DoOperator.apply, filtered]

/-- Of two dictionaries over the same nodes the comparison exists exactly where the nodes can be sorted. -/
theorem exists_compare_iff {baseline intervened : Dict (Key ℚ) ℚ} {declared : List (Key ℚ)} (distinct : declared.Nodup)
    (before : ∀ n, n ∈ baseline.keys ↔ n ∈ declared) (after : ∀ n, n ∈ intervened.keys ↔ n ∈ declared) :
    (∃ deltas, DoOperator.compare baseline intervened = some deltas) ↔ Key.sortable declared = true := by
  have nothingNew : DoOperator.allNodes baseline intervened = baseline.keys := by
    rw [DoOperator.allNodes, List.append_right_eq_self, List.filter_eq_nil_iff]
    intro n member
    simpa using (before n).mpr ((after n).mp member)
  have perm : baseline.keys.Perm declared := (List.perm_ext_iff_of_nodup baseline.distinct distinct).mpr before
  rw [DoOperator.compare, nothingNew, Key.sorted, Key.sortable_perm perm]
  split
  · rename_i sorts
    exact ⟨fun _ => sorts, fun _ => ⟨_, rfl⟩⟩
  · rename_i mixed
    refine ⟨?_, fun sorts => absurd sorts mixed⟩
    rintro ⟨deltas, compared⟩
    cases compared

theorem CoherenceGraphDef.Valid.exists_compare_iff {g : CoherenceGraphDef (Key ℚ) ℚ} (valid : g.Valid)
    (acyclic : g.Acyclic) {nodeIds nodeIds' : SetOrder g.nodeIds} {self : TopologicalPropagator (Key ℚ)}
    (built : TopologicalPropagator.init g nodeIds = .ok self) {seedValues intervened : Dict (Key ℚ) ℚ} {node : Key ℚ} {x : ℚ}
    (run : DoOperator.apply g nodeIds' seedValues ⟨node, x⟩ = .ok intervened) :
    (∃ deltas, DoOperator.compare (self.propagate seedValues) intervened = some deltas) ↔ Key.sortable g.nodeIds = true := by
  obtain ⟨self', built', values⟩ := valid.propagate_get? acyclic nodeIds
  cases Except.ok.inj (built'.symm.trans built)
  obtain ⟨filteredProp, ran, severed⟩ := valid.apply_run acyclic nodeIds' node x
  cases Except.ok.inj ((ran seedValues).symm.trans run)
  exact Centroid.exists_compare_iff valid.distinct (Dict.mem_keys_of_reads (values seedValues))
    (Dict.mem_keys_of_reads (severed (seedValues.set node x)))

/-- Forcing a declared node of a loaded acyclic graph: the node gets the
rounded value, a node that it does not reach keeps its baseline value, and the
seed of the forced node has no influence. Every node that it does not reach is
compared at zero exactly if the identifiers can be sorted, or there is no such node. -/
theorem doOperator_apply {file : Option (Value ℚ)} {g : CoherenceGraphDef (Key ℚ) ℚ} (ok : loadGraph file = .ok g)
    (acyclic : g.Acyclic) {node : Key ℚ} (declared : node ∈ g.nodeIds) {x : ℚ} (lower : 0 ≤ x) (upper : x ≤ 1)
    (nodeIds nodeIds' : SetOrder g.nodeIds) :
    ∃ self, TopologicalPropagator.init g nodeIds = .ok self ∧ ∀ seedValues, ∃ intervened,
      DoOperator.apply g nodeIds' seedValues ⟨node, x⟩ = .ok intervened ∧
      intervened.get? node = some (Rounding.roundTo 6 x) ∧
      (∀ n ∈ g.nodeIds, ¬ g.Reaches node n → intervened.get? n = (self.propagate seedValues).get? n) ∧
      ((∀ n ∈ g.nodeIds, ¬ g.Reaches node n →
          ∃ deltas, DoOperator.compare (self.propagate seedValues) intervened = some deltas ∧ deltas.get? n = some 0) ↔
        Key.sortable g.nodeIds = true ∨ ∀ n ∈ g.nodeIds, g.Reaches node n) ∧
      ∀ seedValues', (∀ n, n ≠ node → seedValues'.get? n = seedValues.get? n) →
        DoOperator.apply g nodeIds' seedValues' ⟨node, x⟩ = .ok intervened := by
  have valid := loadGraph_valid ok
  obtain ⟨self, built, values⟩ := valid.propagate_get? acyclic nodeIds
  obtain ⟨filteredProp, run, severed⟩ := valid.apply_run acyclic nodeIds' node x
  have unchanged : ∀ seedValues, ∀ n ∈ g.nodeIds, ¬ g.Reaches node n →
      (filteredProp.propagate (seedValues.set node x)).get? n = (self.propagate seedValues).get? n := by
    intro seedValues n member outside
    rw [severed, values, if_pos member, if_pos member, propagatedValue_severed_of_not_reaches acyclic _ x outside]
  refine ⟨self, built, fun seedValues => ⟨_, run seedValues, ?_, unchanged seedValues, ?_, ?_⟩⟩
  · rw [severed, if_pos declared, propagatedValue_severed_self acyclic, clampOutput_of_mem lower upper]
  · have exists_iff := valid.exists_compare_iff acyclic built (run seedValues)
    constructor
    · intro compares
      by_cases everywhere : ∀ n ∈ g.nodeIds, g.Reaches node n
      · exact Or.inr everywhere
      · push Not at everywhere
        obtain ⟨n, member, outside⟩ := everywhere
        obtain ⟨deltas, compared, _⟩ := compares n member outside
        exact Or.inl (exists_iff.mp ⟨deltas, compared⟩)
    · rintro (sorts | everywhere) n member outside
      · obtain ⟨deltas, compared⟩ := exists_iff.mpr sorts
        refine ⟨deltas, compared, ?_⟩
        rw [compare_get? compared ((Dict.mem_keys_of_reads (values seedValues) n).mpr member),
          unchanged seedValues n member outside, sub_self, Rounding.roundTo_zero]
      · exact absurd (everywhere n member) outside
  · intro seedValues' agree
    rw [run seedValues']
    congr 1
    apply propagate_congr
    intro n
    by_cases here : node = n
    · subst here
      simp
    · rw [Dict.get?_set_of_ne _ _ here, Dict.get?_set_of_ne _ _ here, agree n (Ne.symm here)]

theorem doOperator_apply_chain :
    ∃ self intervened, TopologicalPropagator.init chainGraph chainOrder = .ok self ∧
      DoOperator.apply chainGraph chainOrder ∅ ⟨.str "b", 1 / 4⟩ = .ok intervened ∧
      intervened.get? (.str "b") = some (Rounding.roundTo 6 (1 / 4)) ∧
      intervened.get? (.str "a") = (self.propagate ∅).get? (.str "a") ∧
      ∃ deltas, DoOperator.compare (self.propagate ∅) intervened = some deltas ∧ deltas.get? (.str "a") = some 0 := by
  obtain ⟨self, built, forced⟩ := doOperator_apply loadGraph_chainDoc chainGraph_acyclic
    (show Key.str "b" ∈ chainGraph.nodeIds by decide) (x := 1 / 4) (by norm_num) (by norm_num) chainOrder chainOrder
  obtain ⟨intervened, run, atNode, outside, compares, _⟩ := forced ∅
  have unreached : ¬ chainGraph.Reaches (.str "b") (.str "a") := by
    intro path
    rcases path.cases_head with same | ⟨next, ⟨e, member, source, _⟩, _⟩
    · exact absurd same (by decide)
    · rw [List.mem_singleton.mp member] at source
      exact absurd source (by decide)
  exact ⟨self, intervened, built, run, atNode, outside (.str "a") (by decide) unreached,
    compares.mpr (Or.inl (by decide)) (.str "a") (by decide) unreached⟩

section Mixed

/-- Two nodes without an edge; one identifier is a number, the other a text. -/
def mixedDoc : Value ℚ :=
  .dict [(.str "nodes", .list [.dict [(.str "id", .num 1)], .dict [(.str "id", .str "a")]])]

def mixedGraph : CoherenceGraphDef (Key ℚ) ℚ where
  nodes := [⟨.num 1, .str ""⟩, ⟨.str "a", .str ""⟩]
  edges := []

theorem loadGraph_mixedDoc : loadGraph (some mixedDoc) = .ok mixedGraph := by
  rfl

theorem mixedGraph_acyclic : mixedGraph.Acyclic :=
  .of_rank (fun _ => 0) (by decide)

/-- A number and a text are accepted as identifiers together, but cannot be sorted. -/
theorem mixed_identifiers_not_compared : ¬ ∀ (file : Option (Value ℚ)) (g : CoherenceGraphDef (Key ℚ) ℚ),
    loadGraph file = .ok g → g.Acyclic → ∀ node ∈ g.nodeIds, ∀ x : ℚ, 0 ≤ x → x ≤ 1 →
      ∀ (nodeIds nodeIds' : SetOrder g.nodeIds) (seedValues : Dict (Key ℚ) ℚ), ∃ self intervened,
        TopologicalPropagator.init g nodeIds = .ok self ∧
        DoOperator.apply g nodeIds' seedValues ⟨node, x⟩ = .ok intervened ∧
        ∀ n ∈ g.nodeIds, ¬ g.Reaches node n →
          ∃ deltas, DoOperator.compare (self.propagate seedValues) intervened = some deltas ∧ deltas.get? n = some 0 := by
  intro always
  have declared : Key.num 1 ∈ mixedGraph.nodeIds := by decide
  have nodeIds : SetOrder mixedGraph.nodeIds := ⟨mixedGraph.nodeIds, by decide, fun _ => Iff.rfl⟩
  obtain ⟨self, intervened, built, run, compares⟩ := always (some mixedDoc) mixedGraph loadGraph_mixedDoc mixedGraph_acyclic
    (.num 1) declared 0 le_rfl zero_le_one nodeIds nodeIds ∅
  have unreached : ¬ mixedGraph.Reaches (.num 1) (.str "a") := by
    intro path
    rcases path.cases_head with same | ⟨_, ⟨e, member, _⟩, _⟩
    · cases same
    · cases member
  obtain ⟨deltas, compared, _⟩ := compares (.str "a") (by decide) unreached
  have sorts := ((loadGraph_valid loadGraph_mixedDoc).exists_compare_iff mixedGraph_acyclic built run).mp ⟨deltas, compared⟩
  exact absurd sorts (by decide)

end Mixed

end Centroid
