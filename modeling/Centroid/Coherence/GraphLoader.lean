import Centroid.Lib.Value
import Mathlib.Algebra.Order.Ring.Rat

namespace Centroid

/-- The seven members of `VALID_EDGE_TYPES`. -/
inductive EdgeType where
  | multiplicativeFactor
  | proportional
  | modulates
  | additiveFactor
  | reinforces
  | suppresses
  | feedback
  deriving DecidableEq

def EdgeType.name : EdgeType → String
  | .multiplicativeFactor => "multiplicative_factor"
  | .proportional => "proportional"
  | .modulates => "modulates"
  | .additiveFactor => "additive_factor"
  | .reinforces => "reinforces"
  | .suppresses => "suppresses"
  | .feedback => "feedback"

def validEdgeTypes : List EdgeType :=
  [.multiplicativeFactor, .proportional, .modulates, .additiveFactor, .reinforces, .suppresses, .feedback]

def EdgeType.ofName? (name : String) : Option EdgeType :=
  validEdgeTypes.find? (fun edgeType => edgeType.name = name)

structure EdgeDef (ν N : Type) where
  fromNode : ν
  toNode : ν
  edgeType : EdgeType
  weight : N

structure NodeDef (ν N : Type) where
  nodeId : ν
  description : Value N

structure CoherenceGraphDef (ν N : Type) where
  nodes : List (NodeDef ν N)
  edges : List (EdgeDef ν N)

def CoherenceGraphDef.nodeIds {ν N : Type} (g : CoherenceGraphDef ν N) : List ν :=
  g.nodes.map NodeDef.nodeId

/-- The reasons for which `load_graph` raises its `ValueError`, with what the
message quotes. -/
inductive GraphError (N : Type) where
  | fileNotFound
  | noNodes
  | nodeMissingId (nd : Value N)
  | duplicateNodeId (nid : Key N)
  | undeclaredFrom (fromNode : Value N) (declared : List (Key N))
  | undeclaredTo (toNode : Value N) (declared : List (Key N))
  | unknownEdgeType (edgeType : Value N) (fromNode toNode : Key N)
  | weightNotNumeric (fromNode toNode : Key N) (weight : Value N)
  | weightOutside (fromNode toNode : Key N) (weight : N)

/-- How `load_graph` fails: with its own error, or with an exception of
Python on a document of an unexpected shape. -/
inductive LoadError (N : Type) where
  | valueError (reason : GraphError N)
  | typeError
  | attributeError

section Load

variable {N : Type} [Zero N] [One N] [LT N] [DecidableEq N] [DecidableLT N]

/-- `fields.get(name, default)` on a mapping of the document. -/
def field (fields : List (Key N × Value N)) (name : String) (default : Value N) : Value N :=
  (Assoc.get? fields (.str name)).getD default

/-- What a `for` loop runs over. The members of a string, of bytes, of a set or
of a mapping are never mappings, which is all that the loops of `load_graph`
ask of them. -/
def iterate : Value N → Except (LoadError N) (List (Value N))
  | .list items => .ok items
  | .dict entries => .ok (entries.map fun _ => .null)
  | .str s => .ok (s.toList.map fun c => .str c.toString)
  | .bytes text => .ok (text.toList.map fun _ => .null)
  | .set members => .ok (members.map fun _ => .null)
  | _ => .error .typeError

/-- One turn of the node loop, with the identifiers declared so far. -/
def loadNode (declared : List (Key N)) : Value N → Except (LoadError N) (NodeDef (Key N) N)
  | .dict fields =>
    let nid := field fields "id" .null
    if nid.truthy then
      match nid.key? with
      | none => .error .typeError
      | some key =>
        if key ∈ declared then .error (.valueError (.duplicateNodeId key))
        else .ok ⟨key, field fields "description" (.str "")⟩
    else .error (.valueError (.nodeMissingId (.dict fields)))
  | _ => .error .attributeError

def loadNodes : List (Value N) → List (NodeDef (Key N) N) → Except (LoadError N) (List (NodeDef (Key N) N))
  | [], nodes => .ok nodes
  | nd :: rest, nodes =>
    match loadNode (nodes.map NodeDef.nodeId) nd with
    | .error e => .error e
    | .ok node => loadNodes rest (nodes ++ [node])

/-- An end of an edge must be declared. A set is looked up as a frozen set, which
no identifier is. The message sorts the declared identifiers, which itself
fails on identifiers of several kinds. -/
def checkDeclared (declared : List (Key N)) (complain : Value N → List (Key N) → GraphError N) (id : Value N) :
    Except (LoadError N) (Key N) :=
  let undeclared : Except (LoadError N) (Key N) :=
    if Key.sortable declared then .error (.valueError (complain id declared)) else .error .typeError
  match id, id.key? with
  | .set _, _ => undeclared
  | _, none => .error .typeError
  | _, some key => if key ∈ declared then .ok key else undeclared

def checkEdgeType (fromNode toNode : Key N) (etype : Value N) : Except (LoadError N) EdgeType :=
  match etype with
  | .list _ | .dict _ => .error .typeError
  | .str name =>
    match EdgeType.ofName? name with
    | some edgeType => .ok edgeType
    | none => .error (.valueError (.unknownEdgeType etype fromNode toNode))
  | _ => .error (.valueError (.unknownEdgeType etype fromNode toNode))

def checkWeight (fromNode toNode : Key N) (weight : Value N) : Except (LoadError N) N :=
  match weight.num? with
  | none => .error (.valueError (.weightNotNumeric fromNode toNode weight))
  | some w => if w < 0 ∨ 1 < w then .error (.valueError (.weightOutside fromNode toNode w)) else .ok w

def loadEdge (declared : List (Key N)) : Value N → Except (LoadError N) (EdgeDef (Key N) N)
  | .dict fields => do
    let fromNode ← checkDeclared declared .undeclaredFrom (field fields "from" .null)
    let toNode ← checkDeclared declared .undeclaredTo (field fields "to" .null)
    let edgeType ← checkEdgeType fromNode toNode (field fields "type" (.str ""))
    let weight ← checkWeight fromNode toNode (field fields "weight" .null)
    return ⟨fromNode, toNode, edgeType, weight⟩
  | _ => .error .attributeError

def loadEdges (declared : List (Key N)) :
    List (Value N) → List (EdgeDef (Key N) N) → Except (LoadError N) (List (EdgeDef (Key N) N))
  | [], edges => .ok edges
  | ed :: rest, edges =>
    match loadEdge declared ed with
    | .error e => .error e
    | .ok edge => loadEdges declared rest (edges ++ [edge])

/-- `load_graph` on what `yaml.safe_load` returned, `none` for a missing file. -/
def loadGraph (file : Option (Value N)) : Except (LoadError N) (CoherenceGraphDef (Key N) N) := do
  let doc ← match file with
    | none => .error (.valueError .fileNotFound)
    | some doc => .ok doc
  let raw ← match if doc.truthy then doc else .dict [] with
    | .dict fields => .ok fields
    | _ => .error .attributeError
  let nodeDicts := field raw "nodes" (.list [])
  let edgeDicts := field raw "edges" (.list [])
  if !nodeDicts.truthy then .error (.valueError .noNodes)
  let nodes ← loadNodes (← iterate nodeDicts) []
  let edges ← loadEdges (nodes.map NodeDef.nodeId) (← iterate edgeDicts) []
  return ⟨nodes, edges⟩

end Load

/-- What `load_graph` checks of the graphs that it returns. -/
structure CoherenceGraphDef.Valid {ν N : Type} [Zero N] [One N] [LT N] (g : CoherenceGraphDef ν N) : Prop where
  distinct : g.nodeIds.Nodup
  fromDeclared : ∀ e ∈ g.edges, e.fromNode ∈ g.nodeIds
  toDeclared : ∀ e ∈ g.edges, e.toNode ∈ g.nodeIds
  weight : ∀ e ∈ g.edges, ¬ (e.weight < 0 ∨ 1 < e.weight)

theorem CoherenceGraphDef.Valid.weight_nonneg {ν : Type} {g : CoherenceGraphDef ν ℚ} (valid : g.Valid) :
    ∀ e ∈ g.edges, 0 ≤ e.weight := by
  intro e edge
  exact not_lt.mp fun negative => valid.weight e edge (Or.inl negative)

section Checked

variable {N : Type} [Zero N] [One N] [LT N] [DecidableEq N] [DecidableLT N]

omit [LT N] [DecidableLT N] in
theorem loadNode_fresh {declared : List (Key N)} {nd : Value N} {node : NodeDef (Key N) N}
    (ok : loadNode declared nd = .ok node) : node.nodeId ∉ declared := by
  unfold loadNode at ok
  split at ok
  · dsimp only at ok
    split at ok
    · split at ok
      · cases ok
      · split at ok
        · cases ok
        · rename_i fresh
          cases ok
          exact fresh
    · cases ok
  · cases ok

omit [LT N] [DecidableLT N] in
theorem loadNodes_nodup {items : List (Value N)} {nodes result : List (NodeDef (Key N) N)}
    (distinct : (nodes.map NodeDef.nodeId).Nodup) (ok : loadNodes items nodes = .ok result) :
    (result.map NodeDef.nodeId).Nodup := by
  induction items generalizing nodes with
  | nil =>
    cases ok
    exact distinct
  | cons nd rest ih =>
    simp only [loadNodes] at ok
    split at ok
    · cases ok
    · rename_i node loaded
      refine ih ?_ ok
      have fresh := loadNode_fresh loaded
      rw [List.map_append]
      exact List.nodup_append'.mpr ⟨distinct, List.nodup_singleton _, by simpa using fresh⟩

omit [LT N] [DecidableLT N] in
theorem checkDeclared_mem {declared : List (Key N)} {complain : Value N → List (Key N) → GraphError N}
    {id : Value N} {key : Key N} (ok : checkDeclared declared complain id = .ok key) : key ∈ declared := by
  have refused : ∀ reason : GraphError N,
      (if Key.sortable declared then .error (.valueError reason) else .error .typeError : Except (LoadError N) (Key N)) ≠
        .ok key := by
    intro reason
    split <;> simp
  unfold checkDeclared at ok
  dsimp only at ok
  split at ok
  · exact absurd ok (refused _)
  · cases ok
  · split at ok
    · rename_i member
      cases ok
      exact member
    · exact absurd ok (refused _)

theorem loadEdges_forall {declared : List (Key N)} {P : EdgeDef (Key N) N → Prop}
    (checked : ∀ ed edge, loadEdge declared ed = .ok edge → P edge) {items : List (Value N)}
    {edges result : List (EdgeDef (Key N) N)} (before : ∀ e ∈ edges, P e)
    (ok : loadEdges declared items edges = .ok result) : ∀ e ∈ result, P e := by
  induction items generalizing edges with
  | nil =>
    cases ok
    exact before
  | cons ed rest ih =>
    simp only [loadEdges] at ok
    split at ok
    · cases ok
    · rename_i edge loaded
      refine ih ?_ ok
      intro e member
      rcases List.mem_append.mp member with old | new
      · exact before e old
      · rw [List.mem_singleton.mp new]
        exact checked ed edge loaded

/-- The two loops of `load_graph`, for a document that it accepts. -/
theorem loadGraph_loops {file : Option (Value N)} {g : CoherenceGraphDef (Key N) N} (ok : loadGraph file = .ok g) :
    ∃ nodeItems edgeItems, loadNodes nodeItems [] = .ok g.nodes ∧
      loadEdges g.nodeIds edgeItems [] = .ok g.edges := by
  unfold loadGraph at ok
  simp only [bind, Except.bind, pure, Except.pure] at ok
  repeat' split at ok
  all_goals cases ok
  rename_i nodes nodesOk _ _ _ _ edges edgesOk
  exact ⟨_, _, nodesOk, edgesOk⟩

omit [LT N] [DecidableLT N] in
theorem length_loadNodes {items : List (Value N)} {nodes result : List (NodeDef (Key N) N)}
    (ok : loadNodes items nodes = .ok result) : result.length = nodes.length + items.length := by
  induction items generalizing nodes with
  | nil =>
    cases ok
    rfl
  | cons nd rest ih =>
    simp only [loadNodes] at ok
    split at ok
    · cases ok
    · have loaded := ih ok
      rw [List.length_append, List.length_singleton] at loaded
      rw [List.length_cons]
      omega

omit [One N] [LT N] [DecidableLT N] in
theorem iterate_ne_nil {v : Value N} (truthy : v.truthy = true) {items : List (Value N)} (ok : iterate v = .ok items) :
    items ≠ [] := by
  cases v with
  | null => cases ok
  | bool => cases ok
  | num => cases ok
  | stamp => cases ok
  | str s =>
    cases ok
    simpa [Value.truthy] using truthy
  | bytes text =>
    cases ok
    simpa [Value.truthy] using truthy
  | list items =>
    cases ok
    simpa [Value.truthy] using truthy
  | dict entries =>
    cases ok
    simpa [Value.truthy] using truthy
  | set members =>
    cases ok
    simpa [Value.truthy] using truthy

/-- A graph that is accepted declares a node. -/
theorem loadGraph_nodeIds_ne_nil {file : Option (Value N)} {g : CoherenceGraphDef (Key N) N} (ok : loadGraph file = .ok g) :
    g.nodeIds ≠ [] := by
  unfold loadGraph at ok
  simp only [bind, Except.bind, pure, Except.pure] at ok
  repeat' split at ok
  all_goals cases ok
  rename_i truthy _ items iterated _ nodes loaded _ _ _ _ _ _
  have some := iterate_ne_nil (by simpa using truthy) iterated
  have length := length_loadNodes loaded
  intro none
  rw [CoherenceGraphDef.nodeIds, List.map_eq_nil_iff] at none
  dsimp only at none
  rw [none] at length
  exact some (List.length_eq_zero_iff.mp (by simpa using length.symm))

omit [DecidableEq N] in
theorem checkWeight_bounds {fromNode toNode : Key N} {weight : Value N} {w : N}
    (ok : checkWeight fromNode toNode weight = .ok w) : ¬ (w < 0 ∨ 1 < w) := by
  unfold checkWeight at ok
  split at ok
  · cases ok
  · split at ok
    · cases ok
    · rename_i inside
      cases ok
      exact inside

theorem loadEdge_checked {declared : List (Key N)} {ed : Value N} {edge : EdgeDef (Key N) N}
    (ok : loadEdge declared ed = .ok edge) :
    edge.fromNode ∈ declared ∧ edge.toNode ∈ declared ∧ ¬ (edge.weight < 0 ∨ 1 < edge.weight) := by
  unfold loadEdge at ok
  split at ok
  · simp only [bind, Except.bind, pure, Except.pure] at ok
    split at ok
    · cases ok
    · rename_i fromNode fromOk
      split at ok
      · cases ok
      · rename_i toNode toOk
        split at ok
        · cases ok
        · split at ok
          · cases ok
          · rename_i weight weightOk
            cases ok
            exact ⟨checkDeclared_mem fromOk, checkDeclared_mem toOk, checkWeight_bounds weightOk⟩
  · cases ok

theorem loadGraph_valid {file : Option (Value N)} {g : CoherenceGraphDef (Key N) N} (ok : loadGraph file = .ok g) :
    g.Valid := by
  obtain ⟨nodeItems, edgeItems, nodesOk, edgesOk⟩ := loadGraph_loops ok
  have checked := loadEdges_forall (fun _ _ => loadEdge_checked) (by simp) edgesOk
  exact {
    distinct := loadNodes_nodup (by simp) nodesOk
    fromDeclared := fun e member => (checked e member).1
    toDeclared := fun e member => (checked e member).2.1
    weight := fun e member => (checked e member).2.2 }

end Checked

end Centroid
