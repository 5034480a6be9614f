import Centroid.Lib.Dataflow
import Centroid.Coherence.Propagation
import Mathlib.Data.List.Count

namespace Centroid

variable {ν : Type} [DecidableEq ν] {F : Type}

/-- The forward edges as a network whose effects are those of `_apply_edge`. -/
def CoherenceGraphDef.flow [One F] [Add F] [Sub F] [Mul F] (g : CoherenceGraphDef ν F) : Dataflow ν (EdgeDef ν F) F where
  edges := g.fwdEdges
  source := EdgeDef.fromNode
  target := EdgeDef.toNode
  effect := fun e upstream downstream => applyEdge e.edgeType upstream downstream e.weight

/-- The non-feedback edges contain no cycle. -/
def CoherenceGraphDef.Acyclic [One F] [Add F] [Sub F] [Mul F] (g : CoherenceGraphDef ν F) : Prop := g.flow.Acyclic

/-- The edges into a node whose source has not been put out yet. -/
def openEdges (edges : List (EdgeDef ν F)) (order : List ν) (n : ν) : ℕ :=
  edges.countP (fun e => e.toNode = n ∧ e.fromNode ∉ order)

def childrenOf (edges : List (EdgeDef ν F)) (n : ν) : List ν :=
  (edges.filter (fun e => e.fromNode = n)).map EdgeDef.toNode

theorem openEdges_eq_zero {edges : List (EdgeDef ν F)} {order : List ν} {n : ν} :
    openEdges edges order n = 0 ↔ ∀ e ∈ edges, e.toNode = n → e.fromNode ∈ order := by
  simp [openEdges, List.countP_eq_zero]

/-- Putting a node out closes its edges to each of its children. -/
theorem openEdges_concat (edges : List (EdgeDef ν F)) {order : List ν} {node : ν} (fresh : node ∉ order) (n : ν) :
    openEdges edges order n = openEdges edges (order ++ [node]) n + (childrenOf edges node).count n := by
  unfold openEdges childrenOf
  simp only [List.mem_append, List.mem_singleton]
  induction edges with
  | nil => rfl
  | cons e edges ih =>
    by_cases leaves : e.fromNode = node
    · have isOpen : e.fromNode ∉ order := leaves ▸ fresh
      by_cases here : e.toNode = n
      · simp only [List.countP_cons, List.filter_cons, here, leaves, fresh,
          not_true_eq_false, not_false_eq_true, and_self, or_true, and_false, decide_true, decide_false, if_true,
          List.map_cons, List.count_cons_self, Bool.false_eq_true, if_false]
        omega
      · simp only [List.countP_cons, List.filter_cons, here, leaves, false_and, decide_true, decide_false, if_true,
          List.map_cons, List.count_cons_of_ne here, Bool.false_eq_true, if_false]
        omega
    · simp only [List.countP_cons, List.filter_cons, leaves, decide_false, Bool.false_eq_true, if_false, or_false]
      omega

theorem cast_update (degree : ν → ℕ) (node : ν) (k : ℕ) (n : ν) :
    ((Function.update degree node k n : ℕ) : ℤ) = Function.update (fun n => (degree n : ℤ)) node (k : ℤ) n :=
  Function.apply_update (fun _ (k : ℕ) => (k : ℤ)) degree node k n

theorem countEdges_spec {ids : List ν} (edges : List (EdgeDef ν F)) (inDegree : Dict ν ℤ)
    (children : Dict ν (List ν)) (degree : ν → ℕ) (below : ν → List ν)
    (declared : ∀ e ∈ edges, e.fromNode ∈ ids ∧ e.toNode ∈ ids)
    (atDegree : ∀ n ∈ ids, inDegree.get? n = some (degree n : ℤ))
    (atChildren : ∀ n ∈ ids, children.get? n = some (below n)) (keys : inDegree.keys = ids) :
    ∃ inDegree' children', countEdges edges inDegree children = .ok (inDegree', children') ∧
      (∀ n ∈ ids, inDegree'.get? n = some ((degree n + openEdges edges [] n : ℕ) : ℤ)) ∧
      (∀ n ∈ ids, children'.get? n = some (below n ++ childrenOf edges n)) ∧ inDegree'.keys = ids := by
  induction edges generalizing inDegree children degree below with
  | nil => exact ⟨inDegree, children, rfl, by simpa [openEdges] using atDegree, by simpa [childrenOf] using atChildren, keys⟩
  | cons e edges ih =>
    obtain ⟨fromIn, toIn⟩ := declared e List.mem_cons_self
    simp only [countEdges, atDegree _ toIn, atChildren _ fromIn]
    have degrees : ∀ n ∈ ids, (inDegree.set e.toNode ((degree e.toNode : ℤ) + 1)).get? n =
        some ((Function.update degree e.toNode (degree e.toNode + 1) n : ℕ) : ℤ) := by
      intro n member
      rw [cast_update, Nat.cast_add, Nat.cast_one]
      exact Dict.get?_set_update (atDegree n member) _ _
    have lists : ∀ n ∈ ids, (children.set e.fromNode (below e.fromNode ++ [e.toNode])).get? n =
        some (Function.update below e.fromNode (below e.fromNode ++ [e.toNode]) n) :=
      fun n member => Dict.get?_set_update (atChildren n member) _ _
    have keys' : (inDegree.set e.toNode ((degree e.toNode : ℤ) + 1)).keys = ids := by
      rw [Dict.keys_set_of_mem _ (keys ▸ toIn), keys]
    obtain ⟨inDegree', children', run, finalDegree, finalChildren, finalKeys⟩ :=
      ih _ _ _ _ (fun e' member => declared e' (List.mem_cons_of_mem _ member)) degrees lists keys'
    refine ⟨inDegree', children', run, ?_, ?_, finalKeys⟩
    · intro n member
      rw [finalDegree n member]
      by_cases here : e.toNode = n
      · subst here
        simp only [openEdges, Function.update_self, List.countP_cons, List.not_mem_nil, not_false_eq_true, and_true,
          decide_true, if_true]
        congr 2
        omega
      · simp only [openEdges, Function.update_of_ne (Ne.symm here), List.countP_cons, here, false_and, decide_false,
          Bool.false_eq_true, if_false, Nat.add_zero]
    · intro n member
      rw [finalChildren n member]
      by_cases here : e.fromNode = n
      · subst here
        simp [childrenOf]
      · simp [childrenOf, Function.update_of_ne (Ne.symm here), here]

/-- Visiting the children of a node lowers each in-degree by the number of
edges and queues the nodes that reach zero, each of them once. -/
theorem visitChildren_spec {ids : List ν} (below : List ν) {inDegree : Dict ν ℤ} (queue : List ν) (degree : ν → ℕ)
    (declared : ∀ c ∈ below, c ∈ ids) (atDegree : ∀ n ∈ ids, inDegree.get? n = some (degree n : ℤ))
    (enough : ∀ n, below.count n ≤ degree n) :
    ∃ inDegree' added, visitChildren below inDegree queue = .ok (inDegree', queue ++ added) ∧
      (∀ n ∈ ids, inDegree'.get? n = some ((degree n - below.count n : ℕ) : ℤ)) ∧ added.Nodup ∧
      ∀ n, n ∈ added ↔ n ∈ below ∧ degree n = below.count n := by
  induction below generalizing inDegree queue degree with
  | nil => exact ⟨inDegree, [], by simp [visitChildren], by simpa using atDegree, .nil, by simp⟩
  | cons c below ih =>
    have atChild := atDegree c (declared c List.mem_cons_self)
    have enoughHere := enough c
    rw [List.count_cons_self] at enoughHere
    have lowered : ((degree c : ℤ) - 1) = ((degree c - 1 : ℕ) : ℤ) := by omega
    have degrees : ∀ n ∈ ids, (inDegree.set c ((degree c : ℤ) - 1)).get? n =
        some ((Function.update degree c (degree c - 1) n : ℕ) : ℤ) := by
      intro n member
      rw [cast_update, ← lowered]
      exact Dict.get?_set_update (atDegree n member) _ _
    have enough' : ∀ n, below.count n ≤ Function.update degree c (degree c - 1) n := by
      intro n
      by_cases here : n = c
      · subst here
        rw [Function.update_self]
        omega
      · rw [Function.update_of_ne here]
        have bound := enough n
        rwa [List.count_cons_of_ne (Ne.symm here)] at bound
    obtain ⟨inDegree', added, run, finalDegree, distinct, hits⟩ :=
      ih (if (degree c : ℤ) - 1 = 0 then queue ++ [c] else queue) _
        (fun n member => declared n (List.mem_cons_of_mem _ member)) degrees enough'
    have counts : ∀ n ∈ ids, inDegree'.get? n = some ((degree n - (c :: below).count n : ℕ) : ℤ) := by
      intro n member
      rw [finalDegree n member]
      by_cases here : n = c
      · subst here
        rw [Function.update_self, List.count_cons_self]
        congr 2
        omega
      · rw [Function.update_of_ne here, List.count_cons_of_ne (Ne.symm here)]
    have elsewhere : ∀ n, n ≠ c → (n ∈ added ↔ n ∈ c :: below ∧ degree n = (c :: below).count n) := by
      intro n here
      rw [hits n, Function.update_of_ne here, List.count_cons_of_ne (Ne.symm here), List.mem_cons]
      simp [here]
    simp only [visitChildren, atChild]
    by_cases zero : degree c = 1
    · have absent : c ∉ added := by
        rw [hits c, Function.update_self]
        rintro ⟨member, _⟩
        have := List.count_pos_iff.mpr member
        omega
      have hit : (degree c : ℤ) - 1 = 0 := by omega
      rw [if_pos hit] at run ⊢
      refine ⟨inDegree', c :: added, by rw [run]; simp, counts, List.nodup_cons.mpr ⟨absent, distinct⟩, ?_⟩
      intro n
      by_cases here : n = c
      · subst here
        have none : below.count n = 0 := by omega
        simp [zero, none]
      · rw [List.mem_cons, or_iff_right here, elsewhere n here]
    · have missed : ¬ (degree c : ℤ) - 1 = 0 := by omega
      rw [if_neg missed] at run ⊢
      refine ⟨inDegree', added, run, counts, distinct, ?_⟩
      intro n
      by_cases here : n = c
      · subst here
        rw [hits n, Function.update_self, List.count_cons_self]
        constructor
        · rintro ⟨_, value⟩
          exact ⟨List.mem_cons_self, by omega⟩
        · rintro ⟨_, value⟩
          exact ⟨List.count_pos_iff.mp (by omega), by omega⟩
      · exact elsewhere n here

variable [One F] [Add F] [Sub F] [Mul F]

/-- What holds whenever the queue loop tests its condition. -/
structure KahnInvariant (g : CoherenceGraphDef ν F) (ids : List ν) (state : KahnState ν) : Prop where
  degree : ∀ n ∈ ids, state.inDegree.get? n = some (openEdges g.fwdEdges state.order n : ℤ)
  distinct : (state.order ++ state.queue).Nodup
  inside : ∀ n ∈ state.order ++ state.queue, n ∈ ids
  ready : ∀ n ∈ ids, n ∈ state.order ++ state.queue ↔ openEdges g.fwdEdges state.order n = 0
  sorted : g.flow.Sorted state.order

theorem KahnInvariant.next {g : CoherenceGraphDef ν F} {ids queue order : List ν} {inDegree : Dict ν ℤ} {node : ν}
    (inv : KahnInvariant g ids ⟨inDegree, node :: queue, order⟩)
    (declared : ∀ e ∈ g.fwdEdges, e.fromNode ∈ ids ∧ e.toNode ∈ ids) :
    ∃ inDegree' queue', visitChildren (childrenOf g.fwdEdges node) inDegree queue = .ok (inDegree', queue') ∧
      KahnInvariant g ids ⟨inDegree', queue', order ++ [node]⟩ := by
  obtain ⟨degree, distinct, inside, ready, sorted⟩ := inv
  dsimp only at degree distinct inside ready sorted
  have fresh : node ∉ order := by
    intro member
    exact (List.nodup_append'.mp distinct).2.2 member List.mem_cons_self
  have closes := openEdges_concat g.fwdEdges fresh
  have childDeclared : ∀ c ∈ childrenOf g.fwdEdges node, c ∈ ids := by
    intro c member
    obtain ⟨e, edge, rfl⟩ := List.mem_map.mp member
    exact (declared e (List.mem_filter.mp edge).1).2
  obtain ⟨inDegree', added, run, finalDegree, addedDistinct, hits⟩ :=
    visitChildren_spec _ queue _ childDeclared degree (fun n => by rw [closes n]; omega)
  have regroup : order ++ [node] ++ (queue ++ added) = order ++ node :: queue ++ added := by simp
  have stillOpen : ∀ n ∈ added, n ∉ order ++ node :: queue := by
    intro n member old
    obtain ⟨isChild, _⟩ := (hits n).mp member
    have zero := (ready n (childDeclared n isChild)).mp old
    have positive := List.count_pos_iff.mpr isChild
    have := closes n
    omega
  refine ⟨inDegree', queue ++ added, run, ?_, ?_, ?_, ?_, ?_⟩
  · intro n member
    rw [finalDegree n member]
    have closed := closes n
    dsimp only
    congr 2
    omega
  · dsimp only
    rw [regroup]
    exact List.nodup_append'.mpr ⟨distinct, addedDistinct, fun n old new => stillOpen n new old⟩
  · intro n member
    dsimp only at member
    rw [regroup] at member
    rcases List.mem_append.mp member with old | new
    · exact inside n old
    · exact childDeclared n ((hits n).mp new).1
  · intro n member
    dsimp only
    rw [regroup, List.mem_append, ready n member, hits n, closes n]
    constructor
    · rintro (zero | ⟨_, equal⟩) <;> omega
    · intro zero
      by_cases isChild : n ∈ childrenOf g.fwdEdges node
      · exact Or.inr ⟨isChild, by omega⟩
      · exact Or.inl (by rw [List.count_eq_zero.mpr isChild]; omega)
  · refine sorted.concat ?_
    have zero := (ready node (inside node (by simp))).mp (by simp)
    exact openEdges_eq_zero.mp zero

/-- The queue loop ends within one turn more than there are nodes left. -/
theorem kahnLoop_spec {g : CoherenceGraphDef ν F} {ids : List ν} {children : Dict ν (List ν)}
    (declared : ∀ e ∈ g.fwdEdges, e.fromNode ∈ ids ∧ e.toNode ∈ ids)
    (atChildren : ∀ n ∈ ids, children.get? n = some (childrenOf g.fwdEdges n)) (fuel : ℕ) {state : KahnState ν}
    (inv : KahnInvariant g ids state) (enough : ids.length + 1 ≤ fuel + state.order.length) :
    ∃ order inDegree, kahnLoop children fuel state = .ok order ∧ KahnInvariant g ids ⟨inDegree, [], order⟩ := by
  induction fuel generalizing state with
  | zero =>
    have orderDistinct := (List.nodup_append'.mp inv.distinct).1
    have orderInside : state.order ⊆ ids := fun n member => inv.inside n (List.mem_append_left _ member)
    have := (List.subperm_of_subset orderDistinct orderInside).length_le
    omega
  | succ fuel ih =>
    obtain ⟨inDegree, queue, order⟩ := state
    cases queue with
    | nil => exact ⟨order, inDegree, rfl, inv⟩
    | cons node queue =>
      have nodeInside : node ∈ ids := inv.inside node (by simp)
      obtain ⟨inDegree', queue', run, inv'⟩ := inv.next declared
      have loop := ih inv' (by simp only [List.length_append, List.length_singleton] at enough ⊢; omega)
      simpa only [kahnLoop, atChildren node nodeInside, run] using loop

variable [Zero F] [LT F]

omit [DecidableEq ν] [Add F] [Sub F] [Mul F] in
theorem CoherenceGraphDef.Valid.fwdDeclared {g : CoherenceGraphDef ν F} (valid : g.Valid) {ids : List ν}
    (mem_iff : ∀ n, n ∈ ids ↔ n ∈ g.nodeIds) : ∀ e ∈ g.fwdEdges, e.fromNode ∈ ids ∧ e.toNode ∈ ids := by
  intro e member
  have edge := (List.mem_filter.mp member).1
  exact ⟨(mem_iff _).mpr (valid.fromDeclared e edge), (mem_iff _).mpr (valid.toDeclared e edge)⟩

/-- On a graph with declared ends the sort returns, and the nodes that the
queue loop put out are a sorted list closed under having no open edge. -/
theorem kahn_spec {g : CoherenceGraphDef ν F} (valid : g.Valid) (nodeIds : SetOrder g.nodeIds) :
    ∃ order, kahn g nodeIds = .ok (if order.length ≠ nodeIds.ids.length then g.nodeIds else order) ∧
      order.Nodup ∧ order ⊆ nodeIds.ids ∧ g.flow.Sorted order ∧
      ∀ n ∈ nodeIds.ids, n ∈ order ↔ ∀ e ∈ g.fwdEdges, e.toNode = n → e.fromNode ∈ order := by
  have declared := valid.fwdDeclared nodeIds.mem_iff
  obtain ⟨inDegree, children, counted, atDegree, atChildren, keys⟩ :=
    countEdges_spec g.fwdEdges (.ofKeys nodeIds.ids nodeIds.distinct fun _ => 0)
      (.ofKeys nodeIds.ids nodeIds.distinct fun _ => []) (fun _ => 0) (fun _ => []) declared
      (fun n member => by simp [Dict.get?_ofKeys, member]) (fun n member => by simp [Dict.get?_ofKeys, member])
      (by simp)
  simp only [Nat.zero_add, List.nil_append] at atDegree atChildren
  have queued : ∀ n, n ∈ (inDegree.entries.filter fun entry => entry.2 = 0).map Prod.fst ↔
      n ∈ nodeIds.ids ∧ openEdges g.fwdEdges [] n = 0 := by
    intro n
    simp only [List.mem_map, List.mem_filter, decide_eq_true_eq, Prod.exists, exists_and_right, exists_eq_right]
    constructor
    · intro entry
      have member : n ∈ nodeIds.ids := keys ▸ List.mem_map.mpr ⟨_, entry, rfl⟩
      rw [Dict.mem_entries_iff, atDegree n member] at entry
      exact ⟨member, by exact_mod_cast Option.some.inj entry⟩
    · rintro ⟨member, zero⟩
      rw [Dict.mem_entries_iff, atDegree n member, zero]
      rfl
  have start : KahnInvariant g nodeIds.ids
      ⟨inDegree, (inDegree.entries.filter fun entry => entry.2 = 0).map Prod.fst, []⟩ := by
    refine ⟨atDegree, ?_, ?_, ?_, .nil _⟩
    · exact inDegree.distinct.sublist (List.filter_sublist.map Prod.fst)
    · intro n member
      exact ((queued n).mp (by simpa using member)).1
    · intro n member
      simpa [member] using queued n
  obtain ⟨order, finalDegree, loop, inv⟩ := kahnLoop_spec declared atChildren (nodeIds.ids.length + 1) start (by simp)
  refine ⟨order, ?_, by simpa using inv.distinct, fun n member => inv.inside n (by simpa using member), inv.sorted, ?_⟩
  · simp only [kahn, counted, loop]
    split <;> rfl
  · intro n member
    have ready := inv.ready n member
    rw [openEdges_eq_zero] at ready
    simpa using ready

/-- On an acyclic graph the sort puts out every declared node, each after
all nodes that feed it, in whatever order the identifiers are enumerated. -/
theorem kahn_acyclic {g : CoherenceGraphDef ν F} (valid : g.Valid) (acyclic : g.Acyclic)
    (nodeIds : SetOrder g.nodeIds) :
    ∃ order, kahn g nodeIds = .ok order ∧ order.Nodup ∧ (∀ n, n ∈ order ↔ n ∈ g.nodeIds) ∧ g.flow.Sorted order := by
  obtain ⟨order, run, distinct, inside, sorted, ready⟩ := kahn_spec valid nodeIds
  have founded := Dataflow.Acyclic.wellFounded acyclic
  have complete : ∀ n, n ∈ nodeIds.ids → n ∈ order := by
    intro n
    induction n using founded.induction with
    | _ n ih =>
      intro member
      refine (ready n member).mpr fun e edge target => ?_
      exact ih _ ⟨e, edge, rfl, target⟩ (valid.fwdDeclared nodeIds.mem_iff e edge).1
  have perm : order.Perm nodeIds.ids :=
    (List.perm_ext_iff_of_nodup distinct nodeIds.distinct).mpr fun n => ⟨fun member => inside member, complete n⟩
  rw [if_neg (by simpa using perm.length_eq)] at run
  exact ⟨order, run, distinct, fun n => perm.mem_iff.trans (nodeIds.mem_iff n), sorted⟩

end Centroid
