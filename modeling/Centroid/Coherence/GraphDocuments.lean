import Centroid.Coherence.GraphLoader
import Centroid.Lib.FloatArith
import Centroid.Lib.Raises

namespace Centroid

open Raises

section Tidy

variable {N α β : Type}

/-- Nothing but a `ValueError` is raised. -/
def Tidy (result : Except (LoadError N) α) : Prop := RaisesOnly (fun e => ∃ reason, e = .valueError reason) result

theorem tidy_valueError (reason : GraphError N) : Tidy (.error (.valueError reason) : Except (LoadError N) α) :=
  raisesOnly_error_iff.mpr ⟨reason, rfl⟩

theorem not_tidy_typeError : ¬ Tidy (.error .typeError : Except (LoadError N) α) := by
  intro tidy
  obtain ⟨reason, impossible⟩ := tidy _ rfl
  cases impossible

theorem not_tidy_attributeError : ¬ Tidy (.error .attributeError : Except (LoadError N) α) := by
  intro tidy
  obtain ⟨reason, impossible⟩ := tidy _ rfl
  cases impossible

theorem tidy_ok (a : α) : Tidy (.ok a : Except (LoadError N) α) := raisesOnly_ok a

theorem tidy_bind_iff (x : Except (LoadError N) α) (f : α → Except (LoadError N) β) :
    Tidy (x >>= f) ↔ Tidy x ∧ ∀ a, x = .ok a → Tidy (f a) :=
  raisesOnly_bind_iff x f

end Tidy

section Documents

/-- A value of a document as `yaml.safe_load` returns it. -/
abbrev YamlValue := Value PyFloat

/-- A hashable scalar of a document. -/
abbrev YamlKey := Key PyFloat

/-- The items of a list, and none of another empty collection. -/
def listItems? : YamlValue → Option (List YamlValue)
  | .list items => some items
  | .dict [] => some []
  | .set [] => some []
  | .str text => if text = "" then some [] else none
  | .bytes text => if text = "" then some [] else none
  | _ => none

/-- The identifier that a node of a document declares; an empty one, zero and
false count as missing. -/
def nodeId? : YamlValue → Option YamlKey
  | .dict fields => if (field fields "id" .null).truthy then (field fields "id" .null).key? else none
  | _ => none

/-- A node that, if it is refused, is refused with a `ValueError`. -/
def NodeReported (item : YamlValue) : Prop :=
  ∃ fields, item = .dict fields ∧
    ((field fields "id" .null).truthy = true → ∃ key, (field fields "id" .null).key? = some key)

/-- So is every node up to the first that is refused. -/
def NodesReported (declared : List YamlKey) : List YamlValue → Prop
  | [] => True
  | item :: rest =>
    NodeReported item ∧ ∀ id, nodeId? item = some id → id ∉ declared → NodesReported (declared ++ [id]) rest

/-- Whether a set can be searched for a value: lists and mappings cannot be hashed. -/
def searchable : YamlValue → Bool
  | .list _ | .dict _ => false
  | _ => true

/-- An end of an edge that is declared. -/
def IsDeclared (declared : List YamlKey) (id : YamlValue) : Prop := ∃ key ∈ declared, id.key? = some key

/-- An end of an edge that is declared or missed with a `ValueError`, for which
the declared identifiers are sorted. -/
def EndReported (declared : List YamlKey) (id : YamlValue) : Prop :=
  searchable id = true ∧ (IsDeclared declared id ∨ Key.sortable declared = true)

/-- An edge that, if it is refused, is refused with a `ValueError`. -/
def EdgeReported (declared : List YamlKey) (item : YamlValue) : Prop :=
  ∃ fields, item = .dict fields ∧ EndReported declared (field fields "from" .null) ∧
    (IsDeclared declared (field fields "from" .null) → EndReported declared (field fields "to" .null) ∧
      (IsDeclared declared (field fields "to" .null) → searchable (field fields "type" (.str "")) = true))

/-- An edge that is not refused: its weight is a number and outside of no bound. -/
def EdgeAccepted (declared : List YamlKey) (item : YamlValue) : Prop :=
  ∃ fields, item = .dict fields ∧ IsDeclared declared (field fields "from" .null) ∧
    IsDeclared declared (field fields "to" .null) ∧
    (∃ edgeType : EdgeType, field fields "type" (.str "") = .str edgeType.name) ∧
    ∃ weight, (field fields "weight" .null).num? = some weight ∧ ¬ (weight < 0 ∨ 1 < weight)

/-- Every edge up to the first that is refused is reported. -/
def EdgesReported (declared : List YamlKey) : List YamlValue → Prop
  | [] => True
  | item :: rest => EdgeReported declared item ∧ (EdgeAccepted declared item → EdgesReported declared rest)

theorem tidy_loadNode_iff (declared : List YamlKey) (item : YamlValue) :
    Tidy (loadNode declared item) ↔ NodeReported item := by
  cases item with
  | dict fields =>
    by_cases given : (field fields "id" .null).truthy = true
    · cases hashed : (field fields "id" .null).key? with
      | none =>
        have raised : loadNode declared (.dict fields) = .error .typeError := by
          simp only [loadNode, if_pos given, hashed]
        rw [raised]
        refine iff_of_false not_tidy_typeError ?_
        intro reported
        obtain ⟨other, same, hashable⟩ := reported
        cases same
        obtain ⟨key, found⟩ := hashable given
        rw [hashed] at found
        cases found
      | some key =>
        have reported : NodeReported (.dict fields) := ⟨fields, rfl, fun _ => ⟨key, hashed⟩⟩
        refine iff_of_true ?_ reported
        simp only [loadNode, if_pos given, hashed]
        split
        · exact tidy_valueError _
        · exact tidy_ok _
    · have reported : NodeReported (.dict fields) := ⟨fields, rfl, fun impossible => absurd impossible given⟩
      refine iff_of_true ?_ reported
      simp only [loadNode, if_neg given]
      exact tidy_valueError _
  | _ =>
    refine iff_of_false not_tidy_attributeError ?_
    intro reported
    obtain ⟨fields, impossible, _⟩ := reported
    cases impossible

theorem nodeId?_of_loadNode {declared : List YamlKey} {item : YamlValue} {node : NodeDef YamlKey PyFloat}
    (ok : loadNode declared item = .ok node) : nodeId? item = some node.nodeId := by
  unfold loadNode at ok
  split at ok
  · rename_i fields
    dsimp only at ok
    split at ok
    · rename_i given
      split at ok
      · cases ok
      · rename_i key hashed
        split at ok
        · cases ok
        · cases ok
          rw [nodeId?, if_pos given, hashed]
    · cases ok
  · cases ok

theorem loadNode_of_nodeId? {declared : List YamlKey} {item : YamlValue} {id : YamlKey} (declares : nodeId? item = some id)
    (fresh : id ∉ declared) : ∃ node, loadNode declared item = .ok node ∧ node.nodeId = id := by
  unfold nodeId? at declares
  split at declares
  · rename_i fields
    split at declares
    · rename_i given
      exact ⟨⟨id, field fields "description" (.str "")⟩,
        by simp only [loadNode, if_pos given, declares, if_neg fresh], rfl⟩
    · cases declares
  · cases declares

theorem tidy_loadNodes_iff (items : List YamlValue) (nodes : List (NodeDef YamlKey PyFloat)) :
    Tidy (loadNodes items nodes) ↔ NodesReported (nodes.map NodeDef.nodeId) items := by
  induction items generalizing nodes with
  | nil => exact iff_of_true (tidy_ok nodes) trivial
  | cons item rest ih =>
    have bound : loadNodes (item :: rest) nodes =
        (loadNode (nodes.map NodeDef.nodeId) item >>= fun node => loadNodes rest (nodes ++ [node])) := by
      rw [loadNodes]
      cases loadNode (nodes.map NodeDef.nodeId) item <;> rfl
    rw [bound, tidy_bind_iff, tidy_loadNode_iff, NodesReported]
    refine and_congr_right ?_
    intro _
    constructor
    · intro later id declares fresh
      obtain ⟨node, loaded, rfl⟩ := loadNode_of_nodeId? declares fresh
      have tidy := later node loaded
      rw [ih, List.map_append] at tidy
      exact tidy
    · intro later node loaded
      rw [ih, List.map_append]
      exact later node.nodeId (nodeId?_of_loadNode loaded) (loadNode_fresh loaded)

/-- The nodes that are loaded are those that the document declares. -/
theorem ids_of_loadNodes {items : List YamlValue} {nodes result : List (NodeDef YamlKey PyFloat)}
    (ok : loadNodes items nodes = .ok result) :
    ∃ ids, items.mapM nodeId? = some ids ∧ result.map NodeDef.nodeId = nodes.map NodeDef.nodeId ++ ids := by
  induction items generalizing nodes with
  | nil =>
    cases ok
    exact ⟨[], rfl, (List.append_nil _).symm⟩
  | cons item rest ih =>
    simp only [loadNodes] at ok
    split at ok
    · cases ok
    · rename_i node loaded
      obtain ⟨ids, declares, same⟩ := ih ok
      refine ⟨node.nodeId :: ids, ?_, ?_⟩
      · rw [List.mapM_cons, nodeId?_of_loadNode loaded, declares]
        rfl
      · rw [same, List.map_append, List.append_assoc]
        rfl

theorem loadNodes_of_ids {items : List YamlValue} {nodes : List (NodeDef YamlKey PyFloat)} {ids : List YamlKey}
    (declares : items.mapM nodeId? = some ids) (distinct : (nodes.map NodeDef.nodeId ++ ids).Nodup) :
    ∃ result, loadNodes items nodes = .ok result ∧ result.map NodeDef.nodeId = nodes.map NodeDef.nodeId ++ ids := by
  induction items generalizing nodes ids with
  | nil =>
    cases declares
    exact ⟨nodes, rfl, (List.append_nil _).symm⟩
  | cons item rest ih =>
    rw [List.mapM_cons] at declares
    obtain ⟨id, first, later⟩ := Option.bind_eq_some_iff.mp declares
    obtain ⟨others, declaresRest, same⟩ := Option.bind_eq_some_iff.mp later
    cases same
    have fresh : id ∉ nodes.map NodeDef.nodeId := by
      intro known
      exact (List.nodup_append'.mp distinct).2.2 known List.mem_cons_self
    obtain ⟨node, loaded, rfl⟩ := loadNode_of_nodeId? first fresh
    have distinctLater : ((nodes ++ [node]).map NodeDef.nodeId ++ others).Nodup := by
      rw [List.map_append, List.append_assoc]
      exact distinct
    obtain ⟨result, ok, ids⟩ := ih declaresRest distinctLater
    refine ⟨result, ?_, ?_⟩
    · simp only [loadNodes, loaded, ok]
    · rw [ids, List.map_append, List.append_assoc]
      rfl

section Ends

variable {declared : List YamlKey} {complain : YamlValue → List YamlKey → GraphError PyFloat} {id : YamlValue}

theorem checkDeclared_of_key {key : YamlKey} (hashed : id.key? = some key) (member : key ∈ declared) :
    checkDeclared declared complain id = .ok key := by
  cases id with
  | set members => cases hashed
  | list items => cases hashed
  | dict entries => cases hashed
  | _ =>
    cases hashed
    exact if_pos member

theorem checkDeclared_of_unsearchable (unhashable : searchable id = false) :
    checkDeclared declared complain id = .error .typeError := by
  cases id with
  | list items => rfl
  | dict entries => rfl
  | _ => cases unhashable

theorem checkDeclared_of_undeclared (hashable : searchable id = true) (undeclared : ¬ IsDeclared declared id) :
    checkDeclared declared complain id =
      if Key.sortable declared then .error (.valueError (complain id declared)) else .error .typeError := by
  have absent : ∀ key, id.key? = some key → key ∉ declared := by
    intro key hashed member
    exact undeclared ⟨key, member, hashed⟩
  cases id with
  | list items => cases hashable
  | dict entries => cases hashable
  | set members => rfl
  | _ => exact if_neg (absent _ rfl)

theorem isDeclared_of_checkDeclared {key : YamlKey} (ok : checkDeclared declared complain id = .ok key) :
    id.key? = some key ∧ key ∈ declared := by
  by_cases hashable : searchable id = true
  · by_cases known : IsDeclared declared id
    · obtain ⟨other, member, hashed⟩ := known
      have same := (@checkDeclared_of_key _ complain _ _ hashed member).symm.trans ok
      cases same
      exact ⟨hashed, member⟩
    · rw [checkDeclared_of_undeclared hashable known] at ok
      split at ok
      · cases ok
      · cases ok
  · rw [checkDeclared_of_unsearchable (Bool.eq_false_iff.mpr hashable)] at ok
    cases ok

theorem tidy_checkDeclared_iff : Tidy (checkDeclared declared complain id) ↔ EndReported declared id := by
  by_cases hashable : searchable id = true
  · by_cases known : IsDeclared declared id
    · have reported : EndReported declared id := ⟨hashable, Or.inl known⟩
      obtain ⟨key, member, hashed⟩ := known
      rw [checkDeclared_of_key hashed member]
      exact iff_of_true (tidy_ok key) reported
    · rw [checkDeclared_of_undeclared hashable known]
      by_cases sortable : Key.sortable declared = true
      · rw [if_pos sortable]
        exact iff_of_true (tidy_valueError _) ⟨hashable, Or.inr sortable⟩
      · rw [if_neg sortable]
        refine iff_of_false not_tidy_typeError ?_
        intro reported
        rcases reported.2 with known' | sortable'
        · exact known known'
        · exact sortable sortable'
  · rw [checkDeclared_of_unsearchable (Bool.eq_false_iff.mpr hashable)]
    refine iff_of_false not_tidy_typeError ?_
    intro reported
    exact hashable reported.1

theorem tidy_checkEdgeType_iff (fromNode toNode : YamlKey) (etype : YamlValue) :
    Tidy (checkEdgeType fromNode toNode etype) ↔ searchable etype = true := by
  cases etype with
  | list items => exact iff_of_false not_tidy_typeError (by simp [searchable])
  | dict entries => exact iff_of_false not_tidy_typeError (by simp [searchable])
  | str name =>
    refine iff_of_true ?_ rfl
    simp only [checkEdgeType]
    split
    · exact tidy_ok _
    · exact tidy_valueError _
  | _ => exact iff_of_true (tidy_valueError _) rfl

end Ends

theorem EdgeType.ofName?_name (edgeType : EdgeType) : EdgeType.ofName? edgeType.name = some edgeType := by
  cases edgeType <;> decide

theorem EdgeType.name_of_ofName? {name : String} {edgeType : EdgeType} (found : EdgeType.ofName? name = some edgeType) :
    name = edgeType.name := by
  have same := List.find?_some found
  exact (of_decide_eq_true same).symm

theorem checkEdgeType_ok_iff {fromNode toNode : YamlKey} {etype : YamlValue} {edgeType : EdgeType} :
    checkEdgeType fromNode toNode etype = .ok edgeType ↔ etype = .str edgeType.name := by
  constructor
  · intro ok
    unfold checkEdgeType at ok
    split at ok
    · cases ok
    · cases ok
    · split at ok
      · rename_i found
        cases ok
        rw [EdgeType.name_of_ofName? found]
      · cases ok
    · cases ok
  · intro named
    rw [named]
    simp only [checkEdgeType, EdgeType.ofName?_name]

theorem checkWeight_ok_iff {fromNode toNode : YamlKey} {weight : YamlValue} {w : PyFloat} :
    checkWeight fromNode toNode weight = .ok w ↔ weight.num? = some w ∧ ¬ (w < 0 ∨ 1 < w) := by
  unfold checkWeight
  cases read : weight.num? with
  | none => simp
  | some number =>
    by_cases outside : number < 0 ∨ 1 < number
    · simp only [if_pos outside]
      constructor
      · intro impossible
        cases impossible
      · intro inside
        cases inside.1
        exact absurd outside inside.2
    · simp only [if_neg outside, Except.ok.injEq, Option.some.injEq]
      constructor
      · intro same
        exact ⟨same, same ▸ outside⟩
      · intro inside
        exact inside.1

theorem tidy_checkWeight (fromNode toNode : YamlKey) (weight : YamlValue) : Tidy (checkWeight fromNode toNode weight) := by
  unfold checkWeight
  split
  · exact tidy_valueError _
  · split
    · exact tidy_valueError _
    · exact tidy_ok _

/-- The checks of an edge, one after the other. -/
theorem loadEdge_dict (declared : List YamlKey) (fields : List (YamlKey × YamlValue)) :
    loadEdge declared (.dict fields) =
      (checkDeclared declared .undeclaredFrom (field fields "from" .null) >>= fun fromNode =>
        checkDeclared declared .undeclaredTo (field fields "to" .null) >>= fun toNode =>
        checkEdgeType fromNode toNode (field fields "type" (.str "")) >>= fun edgeType =>
        checkWeight fromNode toNode (field fields "weight" .null) >>= fun weight =>
        pure ⟨fromNode, toNode, edgeType, weight⟩) := rfl

theorem tidy_loadEdge_iff (declared : List YamlKey) (item : YamlValue) :
    Tidy (loadEdge declared item) ↔ EdgeReported declared item := by
  cases item with
  | dict fields =>
    rw [loadEdge_dict, tidy_bind_iff, tidy_checkDeclared_iff]
    have afterTo : ∀ fromNode toNode, Tidy (checkEdgeType fromNode toNode (field fields "type" (.str "")) >>= fun edgeType =>
        checkWeight fromNode toNode (field fields "weight" .null) >>= fun weight =>
        pure (⟨fromNode, toNode, edgeType, weight⟩ : EdgeDef YamlKey PyFloat)) ↔
          searchable (field fields "type" (.str "")) = true := by
      intro fromNode toNode
      rw [tidy_bind_iff, tidy_checkEdgeType_iff]
      refine and_iff_left ?_
      intro edgeType _
      rw [tidy_bind_iff]
      exact ⟨tidy_checkWeight _ _ _, fun weight _ => tidy_ok _⟩
    constructor
    · intro tidy
      refine ⟨fields, rfl, tidy.1, ?_⟩
      intro knownFrom
      obtain ⟨fromNode, memberFrom, hashedFrom⟩ := knownFrom
      have tidyTo := tidy.2 fromNode (checkDeclared_of_key hashedFrom memberFrom)
      rw [tidy_bind_iff, tidy_checkDeclared_iff] at tidyTo
      refine ⟨tidyTo.1, ?_⟩
      intro knownTo
      obtain ⟨toNode, memberTo, hashedTo⟩ := knownTo
      exact (afterTo fromNode toNode).mp (tidyTo.2 toNode (checkDeclared_of_key hashedTo memberTo))
    · intro reported
      obtain ⟨same, isSame, reportedFrom, later⟩ := reported
      cases isSame
      refine ⟨reportedFrom, ?_⟩
      intro fromNode okFrom
      obtain ⟨hashedFrom, memberFrom⟩ := isDeclared_of_checkDeclared okFrom
      obtain ⟨reportedTo, last⟩ := later ⟨fromNode, memberFrom, hashedFrom⟩
      rw [tidy_bind_iff, tidy_checkDeclared_iff]
      refine ⟨reportedTo, ?_⟩
      intro toNode okTo
      obtain ⟨hashedTo, memberTo⟩ := isDeclared_of_checkDeclared okTo
      exact (afterTo fromNode toNode).mpr (last ⟨toNode, memberTo, hashedTo⟩)
  | _ =>
    refine iff_of_false not_tidy_attributeError ?_
    intro reported
    obtain ⟨fields, impossible, _⟩ := reported
    cases impossible

/-- An edge whose weight is `nan`. -/
def NanWeight (item : YamlValue) : Prop := ∃ fields, item = .dict fields ∧ field fields "weight" .null = .num .nan

/-- What is known of an edge that is loaded. -/
theorem accepted_of_loadEdge {declared : List YamlKey} {item : YamlValue} {edge : EdgeDef YamlKey PyFloat}
    (ok : loadEdge declared item = .ok edge) :
    EdgeAccepted declared item ∧ edge.fromNode ∈ declared ∧ edge.toNode ∈ declared ∧
      (edge.weight.InUnit ↔ ¬ NanWeight item) := by
  cases item with
  | dict fields =>
    rw [loadEdge_dict] at ok
    obtain ⟨fromNode, okFrom, ok⟩ := bind_eq_ok ok
    obtain ⟨toNode, okTo, ok⟩ := bind_eq_ok ok
    obtain ⟨edgeType, okType, ok⟩ := bind_eq_ok ok
    obtain ⟨weight, okWeight, ok⟩ := bind_eq_ok ok
    cases ok
    obtain ⟨hashedFrom, memberFrom⟩ := isDeclared_of_checkDeclared okFrom
    obtain ⟨hashedTo, memberTo⟩ := isDeclared_of_checkDeclared okTo
    obtain ⟨number, inside⟩ := checkWeight_ok_iff.mp okWeight
    refine ⟨⟨fields, rfl, ⟨fromNode, memberFrom, hashedFrom⟩, ⟨toNode, memberTo, hashedTo⟩,
      ⟨edgeType, checkEdgeType_ok_iff.mp okType⟩, weight, number, inside⟩, memberFrom, memberTo, ?_⟩
    constructor
    · intro unit isNan
      obtain ⟨same, isSame, given⟩ := isNan
      cases isSame
      rw [given] at number
      cases number
      exact unit.ne_nan rfl
    · intro number'
      obtain ⟨lower, upper⟩ := not_or.mp inside
      refine PyFloat.inUnit_of_not_lt (Bool.eq_false_iff.mpr lower) (Bool.eq_false_iff.mpr upper) ?_
      intro isNan
      refine number' ⟨fields, rfl, ?_⟩
      subst isNan
      cases given : field fields "weight" .null with
      | num x =>
        rw [given] at number
        cases number
        rfl
      | bool b =>
        rw [given] at number
        cases b <;> cases number
      | _ =>
        rw [given] at number
        cases number
  | _ => cases ok

theorem loadEdge_of_accepted {declared : List YamlKey} {item : YamlValue} (accepted : EdgeAccepted declared item) :
    ∃ edge, loadEdge declared item = .ok edge := by
  obtain ⟨fields, rfl, ⟨fromNode, memberFrom, hashedFrom⟩, ⟨toNode, memberTo, hashedTo⟩, ⟨edgeType, named⟩, weight, number,
    inside⟩ := accepted
  have okFrom := @checkDeclared_of_key declared .undeclaredFrom _ fromNode hashedFrom memberFrom
  have okTo := @checkDeclared_of_key declared .undeclaredTo _ toNode hashedTo memberTo
  have okType := (@checkEdgeType_ok_iff fromNode toNode _ edgeType).mpr named
  have okWeight := (@checkWeight_ok_iff fromNode toNode _ weight).mpr ⟨number, inside⟩
  refine ⟨⟨fromNode, toNode, edgeType, weight⟩, ?_⟩
  rw [loadEdge_dict, okFrom]
  show (checkDeclared declared .undeclaredTo (field fields "to" .null) >>= _) = _
  rw [okTo]
  show (checkEdgeType fromNode toNode (field fields "type" (.str "")) >>= _) = _
  rw [okType]
  show (checkWeight fromNode toNode (field fields "weight" .null) >>= _) = _
  rw [okWeight]
  rfl

theorem tidy_loadEdges_iff (declared : List YamlKey) (items : List YamlValue) (edges : List (EdgeDef YamlKey PyFloat)) :
    Tidy (loadEdges declared items edges) ↔ EdgesReported declared items := by
  induction items generalizing edges with
  | nil => exact iff_of_true (tidy_ok edges) trivial
  | cons item rest ih =>
    have bound : loadEdges declared (item :: rest) edges =
        (loadEdge declared item >>= fun edge => loadEdges declared rest (edges ++ [edge])) := by
      rw [loadEdges]
      cases loadEdge declared item <;> rfl
    rw [bound, tidy_bind_iff, tidy_loadEdge_iff, EdgesReported]
    refine and_congr_right ?_
    intro _
    constructor
    · intro later accepted
      obtain ⟨edge, loaded⟩ := loadEdge_of_accepted accepted
      exact (ih _).mp (later edge loaded)
    · intro later edge loaded
      exact (ih _).mpr (later (accepted_of_loadEdge loaded).1)

theorem loadEdges_of_accepted {declared : List YamlKey} {items : List YamlValue}
    (accepted : ∀ item ∈ items, EdgeAccepted declared item) (edges : List (EdgeDef YamlKey PyFloat)) :
    ∃ result, loadEdges declared items edges = .ok result := by
  induction items generalizing edges with
  | nil => exact ⟨edges, rfl⟩
  | cons item rest ih =>
    obtain ⟨first, later⟩ := List.forall_mem_cons.mp accepted
    obtain ⟨edge, loaded⟩ := loadEdge_of_accepted first
    obtain ⟨result, ok⟩ := ih later (edges ++ [edge])
    refine ⟨result, ?_⟩
    simp only [loadEdges, loaded, ok]

/-- The edges that are loaded are those of the document, one for one. -/
theorem edges_of_loadEdges {declared : List YamlKey} {items : List YamlValue}
    {edges result : List (EdgeDef YamlKey PyFloat)} (ok : loadEdges declared items edges = .ok result) :
    ∃ new, result = edges ++ new ∧ List.Forall₂ (fun item edge => loadEdge declared item = .ok edge) items new := by
  induction items generalizing edges with
  | nil =>
    cases ok
    exact ⟨[], (List.append_nil _).symm, .nil⟩
  | cons item rest ih =>
    simp only [loadEdges] at ok
    split at ok
    · cases ok
    · rename_i edge loaded
      obtain ⟨new, same, each⟩ := ih ok
      refine ⟨edge :: new, ?_, .cons loaded each⟩
      rw [same, List.append_assoc]
      rfl

theorem accepted_of_loaded {declared : List YamlKey} {items : List YamlValue} {edges : List (EdgeDef YamlKey PyFloat)}
    (loaded : List.Forall₂ (fun item edge => loadEdge declared item = .ok edge) items edges) :
    ∀ item ∈ items, EdgeAccepted declared item := by
  induction loaded with
  | nil => simp
  | cons first _ ih => exact List.forall_mem_cons.mpr ⟨(accepted_of_loadEdge first).1, ih⟩

/-- Of loaded edges the weights are sane exactly when none is given as `nan`. -/
theorem weights_inUnit_iff {declared : List YamlKey} {items : List YamlValue} {edges : List (EdgeDef YamlKey PyFloat)}
    (loaded : List.Forall₂ (fun item edge => loadEdge declared item = .ok edge) items edges) :
    (∀ e ∈ edges, e.weight.InUnit) ↔ ∀ item ∈ items, ¬ NanWeight item := by
  induction loaded with
  | nil => simp
  | cons first _ ih =>
    rw [List.forall_mem_cons, List.forall_mem_cons, ih, (accepted_of_loadEdge first).2.2.2]

end Documents

end Centroid
