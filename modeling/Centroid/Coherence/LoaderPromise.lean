import Centroid.Coherence.GraphDocuments

namespace Centroid

open Raises

/-- What the nodes and the edges of a document are given as. -/
def nodesValue (doc : YamlValue) : YamlValue := field (doc.dict?.getD []) "nodes" (.list [])

def edgesValue (doc : YamlValue) : YamlValue := field (doc.dict?.getD []) "edges" (.list [])

theorem loadGraph_of_not_mapping {doc : YamlValue} (given : doc.truthy = true) (other : doc.dict? = none) :
    loadGraph (some doc) = .error .attributeError := by
  simp only [loadGraph, bind, Except.bind, if_pos given]
  cases doc with
  | dict fields => cases other
  | _ => rfl

theorem mapping_of_tidy {doc : YamlValue} (tidy : Tidy (loadGraph (some doc))) (given : doc.truthy = true) :
    ∃ fields, doc = .dict fields := by
  by_contra other
  have nothing : doc.dict? = none := by
    cases doc with
    | dict fields => exact absurd ⟨fields, rfl⟩ other
    | _ => rfl
  rw [loadGraph_of_not_mapping given nothing] at tidy
  exact not_tidy_attributeError tidy

/-- The document as a mapping, where it is one or nothing. -/
theorem raw_mapping {doc : YamlValue} (mapping : doc.truthy = true → ∃ fields, doc = .dict fields) :
    (if doc.truthy = true then doc else .dict []) = .dict (doc.dict?.getD []) := by
  by_cases given : doc.truthy = true
  · obtain ⟨fields, rfl⟩ := mapping given
    rw [if_pos given]
    rfl
  · rw [if_neg given]
    cases doc with
    | dict fields =>
      cases fields with
      | nil => rfl
      | cons entry fields => exact absurd rfl given
    | _ => rfl

theorem loadGraph_of_no_nodes {doc : YamlValue} (mapping : doc.truthy = true → ∃ fields, doc = .dict fields)
    (none : (nodesValue doc).truthy = false) : loadGraph (some doc) = .error (.valueError .noNodes) := by
  unfold nodesValue at none
  simp only [loadGraph, bind, Except.bind, raw_mapping mapping, none]
  rfl

/-- The course of the loader over a mapping with nodes. -/
theorem loadGraph_of_nodes {doc : YamlValue} (mapping : doc.truthy = true → ∃ fields, doc = .dict fields)
    (some : (nodesValue doc).truthy = true) :
    loadGraph (.some doc) =
      (iterate (nodesValue doc) >>= fun nodeItems => loadNodes nodeItems [] >>= fun nodes =>
        iterate (edgesValue doc) >>= fun edgeItems =>
          loadEdges (nodes.map NodeDef.nodeId) edgeItems [] >>= fun edges => pure ⟨nodes, edges⟩) := by
  unfold nodesValue at some
  simp only [loadGraph, bind, Except.bind, raw_mapping mapping, some, nodesValue, edgesValue]
  rfl

theorem iterate_of_listItems? {value : YamlValue} {items : List YamlValue} (found : listItems? value = some items) :
    iterate value = .ok items := by
  unfold listItems? at found
  split at found
  · cases found
    rfl
  · cases found
    rfl
  · cases found
    rfl
  · obtain ⟨empty, nothing⟩ := Option.ite_none_right_eq_some.mp found
    cases nothing
    rw [empty]
    rfl
  · obtain ⟨empty, nothing⟩ := Option.ite_none_right_eq_some.mp found
    cases nothing
    rw [empty]
    rfl
  · cases found

/-- A loop over what is neither a list nor empty fails, at once or at its first member. -/
theorem iterate_of_not_list {value : YamlValue} (other : listItems? value = none) :
    iterate value = .error .typeError ∨ ∃ item rest, iterate value = .ok (item :: rest) ∧ item.dict? = none := by
  have letters : ∀ text : String, text ≠ "" → ∃ c cs, text.toList = c :: cs := by
    intro text some
    cases read : text.toList with
    | nil => exact absurd (String.toList_eq_nil_iff.mp read) some
    | cons c cs => exact ⟨c, cs, rfl⟩
  cases value with
  | list items => cases other
  | dict entries =>
    cases entries with
    | nil => cases other
    | cons entry entries => exact Or.inr ⟨.null, _, rfl, rfl⟩
  | set members =>
    cases members with
    | nil => cases other
    | cons member members => exact Or.inr ⟨.null, _, rfl, rfl⟩
  | str text =>
    have some : text ≠ "" := by
      intro empty
      rw [empty] at other
      cases other
    obtain ⟨c, cs, read⟩ := letters text some
    exact Or.inr ⟨.str c.toString, cs.map fun c => .str c.toString, by rw [iterate, read]; rfl, rfl⟩
  | bytes text =>
    have some : text ≠ "" := by
      intro empty
      rw [empty] at other
      cases other
    obtain ⟨c, cs, read⟩ := letters text some
    exact Or.inr ⟨.null, cs.map fun _ => .null, by rw [iterate, read]; rfl, rfl⟩
  | _ => exact Or.inl rfl

theorem not_nodesReported {declared : List YamlKey} {item : YamlValue} {rest : List YamlValue} (other : item.dict? = none) :
    ¬ NodesReported declared (item :: rest) := by
  intro reported
  obtain ⟨fields, rfl, _⟩ := reported.1
  cases other

theorem not_edgesReported {declared : List YamlKey} {item : YamlValue} {rest : List YamlValue} (other : item.dict? = none) :
    ¬ EdgesReported declared (item :: rest) := by
  intro reported
  obtain ⟨fields, rfl, _⟩ := reported.1
  cases other

/-- A loop that fails on a member that is no mapping is tidy over lists and
empty collections only. -/
theorem tidy_iterate_iff {β : Type} (value : YamlValue) {loop : List YamlValue → Except (LoadError PyFloat) β}
    (fails : ∀ item rest, item.dict? = none → ¬ Tidy (loop (item :: rest))) :
    Tidy (iterate value >>= loop) ↔ ∃ items, listItems? value = some items ∧ Tidy (loop items) := by
  cases found : listItems? value with
  | some items =>
    rw [iterate_of_listItems? found]
    constructor
    · intro tidy
      exact ⟨items, rfl, tidy⟩
    · intro listed
      obtain ⟨_, same, tidy⟩ := listed
      cases same
      exact tidy
  | none =>
    refine iff_of_false ?_ (by simp)
    intro tidy
    rcases iterate_of_not_list found with raised | ⟨item, rest, looped, other⟩
    · rw [raised] at tidy
      exact not_tidy_typeError tidy
    · rw [looped] at tidy
      exact fails item rest other tidy

/-- What a document is promised to be loaded as. -/
structure CoherenceGraphDef.Sound (g : CoherenceGraphDef YamlKey PyFloat) : Prop where
  distinct : g.nodeIds.Nodup
  fromDeclared : ∀ e ∈ g.edges, e.fromNode ∈ g.nodeIds
  toDeclared : ∀ e ∈ g.edges, e.toNode ∈ g.nodeIds
  weight : ∀ e ∈ g.edges, e.weight.InUnit

/-- A document with a list of nodes, and edges between them as they have to be. -/
def MeetsConditions (doc : YamlValue) : Prop :=
  ∃ fields nodeItems ids edgeItems, doc = .dict fields ∧
    field fields "nodes" (.list []) = .list nodeItems ∧ nodeItems ≠ [] ∧ nodeItems.mapM nodeId? = some ids ∧ ids.Nodup ∧
    field fields "edges" (.list []) = .list edgeItems ∧
    ∀ item ∈ edgeItems, ∃ edge, item = .dict edge ∧ IsDeclared ids (field edge "from" .null) ∧
      IsDeclared ids (field edge "to" .null) ∧ (∃ edgeType : EdgeType, field edge "type" (.str "") = .str edgeType.name) ∧
      ∃ weight, (field edge "weight" .null).num? = some weight ∧ weight.InUnit

/-- What is promised of `load_graph`: a `ValueError` or a sound graph, and a
graph of every document that meets the conditions. -/
structure LoadsAsPromised (doc : YamlValue) : Prop where
  outcome : (∃ reason, loadGraph (some doc) = .error (.valueError reason)) ∨
    ∃ g, loadGraph (some doc) = .ok g ∧ g.Sound
  accepts : MeetsConditions doc → ∃ g, loadGraph (some doc) = .ok g

/-- The first defect of a document, in the order of the loader, is one that it
looks for, and no weight of a document without a defect is `nan`. -/
structure DefectsReported (doc : YamlValue) : Prop where
  mapping : doc.truthy = true → ∃ fields, doc = .dict fields
  nodeList : (nodesValue doc).truthy = true → ∃ items, listItems? (nodesValue doc) = some items
  nodes : ∀ items, listItems? (nodesValue doc) = some items → NodesReported [] items
  edges : ∀ items ids, listItems? (nodesValue doc) = some items → items ≠ [] → items.mapM nodeId? = some ids →
    ids.Nodup → ∃ edgeItems, listItems? (edgesValue doc) = some edgeItems ∧ EdgesReported ids edgeItems ∧
      ((∀ item ∈ edgeItems, EdgeAccepted ids item) → ∀ item ∈ edgeItems, ¬ NanWeight item)

theorem not_accepted_nan {w : PyFloat} (unit : w.InUnit) : ¬ (w < 0 ∨ 1 < w) := by
  obtain ⟨q, rfl, lower, upper⟩ := unit
  intro outside
  rcases outside with below | above
  · exact absurd (of_decide_eq_true below) (not_lt.mpr lower)
  · exact absurd (of_decide_eq_true above) (not_lt.mpr upper)

theorem truthy_of_listItems? {value : YamlValue} {items : List YamlValue} (found : listItems? value = some items) :
    value.truthy = true ↔ items ≠ [] := by
  unfold listItems? at found
  split at found
  · cases found
    rename_i items
    cases items <;> simp [Value.truthy]
  · cases found
    simp [Value.truthy]
  · cases found
    simp [Value.truthy]
  · obtain ⟨empty, nothing⟩ := Option.ite_none_right_eq_some.mp found
    cases nothing
    simp [Value.truthy, empty]
  · obtain ⟨empty, nothing⟩ := Option.ite_none_right_eq_some.mp found
    cases nothing
    simp [Value.truthy, empty]
  · cases found

/-- A document is loaded when its nodes are declared under distinct identifiers
and its edges are accepted. -/
theorem loadGraph_of_accepted {doc : YamlValue} {items edgeItems : List YamlValue} {ids : List YamlKey}
    (mapping : doc.truthy = true → ∃ fields, doc = .dict fields) (nodeList : listItems? (nodesValue doc) = some items)
    (some : items ≠ []) (declares : items.mapM nodeId? = .some ids) (distinct : ids.Nodup)
    (edgeList : listItems? (edgesValue doc) = .some edgeItems) (accepted : ∀ item ∈ edgeItems, EdgeAccepted ids item) :
    ∃ g, loadGraph (.some doc) = .ok g := by
  obtain ⟨nodes, okNodes, same⟩ := @loadNodes_of_ids items [] ids declares distinct
  obtain ⟨edges, okEdges⟩ := loadEdges_of_accepted accepted []
  refine ⟨⟨nodes, edges⟩, ?_⟩
  rw [loadGraph_of_nodes mapping ((truthy_of_listItems? nodeList).mpr some), iterate_of_listItems? nodeList,
    iterate_of_listItems? edgeList]
  show (loadNodes items [] >>= _) = _
  rw [okNodes]
  show (loadEdges (nodes.map NodeDef.nodeId) edgeItems [] >>= _) = _
  rw [same]
  show (loadEdges ids edgeItems [] >>= _) = _
  rw [okEdges]
  rfl

/-- Every document that meets the conditions is loaded. -/
theorem loadGraph_accepts {doc : YamlValue} (meets : MeetsConditions doc) : ∃ g, loadGraph (some doc) = .ok g := by
  obtain ⟨fields, nodeItems, ids, edgeItems, rfl, isNodes, some, declares, distinct, isEdges, each⟩ := meets
  have nodeList : listItems? (nodesValue (.dict fields)) = .some nodeItems := congrArg listItems? isNodes
  have edgeList : listItems? (edgesValue (.dict fields)) = .some edgeItems := congrArg listItems? isEdges
  refine loadGraph_of_accepted (fun _ => ⟨fields, rfl⟩) nodeList some declares distinct edgeList ?_
  intro item member
  obtain ⟨edge, isEdge, fromDeclared, toDeclared, edgeType, weight, number, unit⟩ := each item member
  exact ⟨edge, isEdge, fromDeclared, toDeclared, edgeType, weight, number, not_accepted_nan unit⟩

section Loaded

variable {doc : YamlValue}

theorem tidy_loadGraph_iff (mapping : doc.truthy = true → ∃ fields, doc = .dict fields)
    (some : (nodesValue doc).truthy = true) :
    Tidy (loadGraph (.some doc)) ↔ ∃ items, listItems? (nodesValue doc) = .some items ∧ NodesReported [] items ∧
      ∀ ids, items.mapM nodeId? = .some ids → ids.Nodup →
        ∃ edgeItems, listItems? (edgesValue doc) = .some edgeItems ∧ EdgesReported ids edgeItems := by
  have tidyEdges : ∀ nodes : List (NodeDef YamlKey PyFloat), Tidy (iterate (edgesValue doc) >>= fun edgeItems =>
      loadEdges (nodes.map NodeDef.nodeId) edgeItems [] >>= fun edges =>
      pure (⟨nodes, edges⟩ : CoherenceGraphDef YamlKey PyFloat)) ↔
        ∃ edgeItems, listItems? (edgesValue doc) = .some edgeItems ∧
          EdgesReported (nodes.map NodeDef.nodeId) edgeItems := by
    intro nodes
    have each : ∀ edgeItems, Tidy (loadEdges (nodes.map NodeDef.nodeId) edgeItems [] >>= fun edges =>
        pure (⟨nodes, edges⟩ : CoherenceGraphDef YamlKey PyFloat)) ↔
          EdgesReported (nodes.map NodeDef.nodeId) edgeItems := by
      intro edgeItems
      rw [tidy_bind_iff, tidy_loadEdges_iff]
      exact and_iff_left fun edges _ => tidy_ok _
    rw [tidy_iterate_iff]
    · simp only [each]
    · intro item rest other tidy
      exact not_edgesReported other ((each _).mp tidy)
  rw [loadGraph_of_nodes mapping some, tidy_iterate_iff]
  · refine exists_congr ?_
    intro items
    refine and_congr_right ?_
    intro _
    rw [tidy_bind_iff, tidy_loadNodes_iff]
    refine and_congr_right ?_
    intro _
    constructor
    · intro later ids declares distinct
      obtain ⟨nodes, ok, same⟩ := @loadNodes_of_ids items [] ids declares distinct
      have tidy := (tidyEdges nodes).mp (later nodes ok)
      rw [same] at tidy
      exact tidy
    · intro later nodes ok
      obtain ⟨ids, declares, same⟩ := ids_of_loadNodes ok
      have distinct := loadNodes_nodup (by simp) ok
      rw [same] at distinct
      rw [tidyEdges, same]
      exact later ids declares distinct
  · intro item rest other tidy
    rw [tidy_bind_iff, tidy_loadNodes_iff] at tidy
    exact not_nodesReported other tidy.1

/-- What a document has that is loaded, and when its graph is sound. -/
theorem sound_iff_of_loadGraph {g : CoherenceGraphDef YamlKey PyFloat} (ok : loadGraph (some doc) = .ok g) :
    ∃ items ids edgeItems, listItems? (nodesValue doc) = some items ∧ items ≠ [] ∧ items.mapM nodeId? = some ids ∧
      ids.Nodup ∧ listItems? (edgesValue doc) = some edgeItems ∧ (∀ item ∈ edgeItems, EdgeAccepted ids item) ∧
      (g.Sound ↔ ∀ item ∈ edgeItems, ¬ NanWeight item) := by
  have tidy : Tidy (loadGraph (some doc)) := ok ▸ tidy_ok g
  have mapping := mapping_of_tidy tidy
  have truthy : (nodesValue doc).truthy = true := by
    by_contra nothing
    rw [loadGraph_of_no_nodes mapping (Bool.eq_false_iff.mpr nothing)] at ok
    cases ok
  obtain ⟨items, nodeList, _, later⟩ := (tidy_loadGraph_iff mapping truthy).mp tidy
  rw [loadGraph_of_nodes mapping truthy, iterate_of_listItems? nodeList] at ok
  obtain ⟨_, same, ok⟩ := bind_eq_ok ok
  cases same
  obtain ⟨nodes, okNodes, ok⟩ := bind_eq_ok ok
  obtain ⟨ids, declares, sameIds⟩ := ids_of_loadNodes okNodes
  have distinct := loadNodes_nodup (by simp) okNodes
  rw [List.map_nil, List.nil_append] at sameIds
  rw [sameIds] at ok distinct
  obtain ⟨edgeItems, edgeList, _⟩ := later ids declares distinct
  rw [iterate_of_listItems? edgeList] at ok
  obtain ⟨_, same, ok⟩ := bind_eq_ok ok
  cases same
  obtain ⟨edges, okEdges, ok⟩ := bind_eq_ok ok
  cases ok
  obtain ⟨new, isNew, loaded⟩ := edges_of_loadEdges okEdges
  rw [List.nil_append] at isNew
  subst isNew
  have known := loadEdges_forall (P := fun edge => edge.fromNode ∈ ids ∧ edge.toNode ∈ ids)
    (fun _ _ loadedEdge => ⟨(accepted_of_loadEdge loadedEdge).2.1, (accepted_of_loadEdge loadedEdge).2.2.1⟩) (by simp) okEdges
  refine ⟨items, ids, edgeItems, nodeList, (truthy_of_listItems? nodeList).mp truthy, declares, distinct, edgeList, ?_, ?_⟩
  · exact accepted_of_loaded loaded
  · rw [← weights_inUnit_iff loaded]
    have declared : CoherenceGraphDef.nodeIds ⟨nodes, edges⟩ = ids := sameIds
    constructor
    · intro sound
      exact sound.weight
    · intro weights
      refine ⟨?_, ?_, ?_, weights⟩
      · rw [declared]
        exact distinct
      · intro edge member
        rw [declared]
        exact (known edge member).1
      · intro edge member
        rw [declared]
        exact (known edge member).2

/-- A document over which nothing but a `ValueError` is raised, and of which
only a sound graph is returned, has its first defect among the reported ones. -/
theorem defectsReported_of_tidy (tidy : Tidy (loadGraph (some doc)))
    (sound : ∀ g, loadGraph (some doc) = .ok g → g.Sound) : DefectsReported doc := by
  have mapping := mapping_of_tidy tidy
  refine ⟨mapping, ?_, ?_, ?_⟩
  · intro truthy
    obtain ⟨items, nodeList, _⟩ := (tidy_loadGraph_iff mapping truthy).mp tidy
    exact ⟨items, nodeList⟩
  · intro items nodeList
    by_cases truthy : (nodesValue doc).truthy = true
    · obtain ⟨_, same, reported, _⟩ := (tidy_loadGraph_iff mapping truthy).mp tidy
      rw [nodeList] at same
      cases same
      exact reported
    · rw [truthy_of_listItems? nodeList, not_not] at truthy
      rw [truthy]
      trivial
  · intro items ids nodeList some declares distinct
    have truthy := (truthy_of_listItems? nodeList).mpr some
    obtain ⟨_, same, _, later⟩ := (tidy_loadGraph_iff mapping truthy).mp tidy
    rw [nodeList] at same
    cases same
    obtain ⟨edgeItems, edgeList, reported⟩ := later ids declares distinct
    refine ⟨edgeItems, edgeList, reported, ?_⟩
    intro accepted
    obtain ⟨g, ok⟩ := loadGraph_of_accepted mapping nodeList some declares distinct edgeList accepted
    obtain ⟨_, _, _, _, _, _, _, edgeList', _, soundIff⟩ := sound_iff_of_loadGraph ok
    rw [edgeList] at edgeList'
    cases edgeList'
    exact soundIff.mp (sound g ok)

theorem tidy_of_defectsReported (reported : DefectsReported doc) (truthy : (nodesValue doc).truthy = true) :
    Tidy (loadGraph (some doc)) := by
  obtain ⟨items, nodeList⟩ := reported.nodeList truthy
  refine (tidy_loadGraph_iff reported.mapping truthy).mpr ⟨items, nodeList, reported.nodes items nodeList, ?_⟩
  intro ids declares distinct
  have some := (truthy_of_listItems? nodeList).mp truthy
  obtain ⟨edgeItems, edgeList, reportedEdges, _⟩ := reported.edges items ids nodeList some declares distinct
  exact ⟨edgeItems, edgeList, reportedEdges⟩

theorem sound_of_defectsReported (reported : DefectsReported doc) {g : CoherenceGraphDef YamlKey PyFloat}
    (loaded : loadGraph (some doc) = .ok g) : g.Sound := by
  obtain ⟨items, ids, edgeItems, nodeList, some, declares, distinct, edgeList, accepted, sound⟩ :=
    sound_iff_of_loadGraph loaded
  obtain ⟨_, same, _, numbers⟩ := reported.edges items ids nodeList some declares distinct
  rw [edgeList] at same
  cases same
  exact sound.mpr (numbers accepted)

/-- A document is loaded as promised exactly when its first defect, if any, is
one that the loader looks for. -/
theorem loadsAsPromised_iff (doc : YamlValue) : LoadsAsPromised doc ↔ DefectsReported doc := by
  constructor
  · intro promised
    rcases promised.outcome with ⟨reason, raised⟩ | ⟨g, loaded, sound⟩
    · refine defectsReported_of_tidy (raised ▸ tidy_valueError reason) ?_
      intro g loaded
      rw [raised] at loaded
      cases loaded
    · refine defectsReported_of_tidy (loaded ▸ tidy_ok g) ?_
      intro g' loaded'
      rw [loaded] at loaded'
      cases loaded'
      exact sound
  · intro reported
    refine ⟨?_, loadGraph_accepts⟩
    by_cases truthy : (nodesValue doc).truthy = true
    · cases loaded : loadGraph (some doc) with
      | error e =>
        obtain ⟨reason, isReason⟩ := tidy_of_defectsReported reported truthy e loaded
        exact Or.inl ⟨reason, by rw [isReason]⟩
      | ok g => exact Or.inr ⟨g, rfl, sound_of_defectsReported reported loaded⟩
    · exact Or.inl ⟨.noNodes, loadGraph_of_no_nodes reported.mapping (Bool.eq_false_iff.mpr truthy)⟩

end Loaded

/-- A document with an edges section that is left empty. -/
def emptySectionDoc : YamlValue :=
  .dict [(.str "nodes", .list [.dict [(.str "id", .str "a")]]), (.str "edges", .null)]

/-- A document with a weight that is no number. -/
def nanWeightDoc : YamlValue :=
  .dict [(.str "nodes", .list [.dict [(.str "id", .str "a")], .dict [(.str "id", .str "b")]]),
    (.str "edges", .list [.dict [(.str "from", .str "a"), (.str "to", .str "b"), (.str "type", .str "proportional"),
      (.str "weight", .num .nan)]])]

theorem not_loadsAsPromised : ¬ LoadsAsPromised emptySectionDoc ∧ ¬ LoadsAsPromised nanWeightDoc := by
  refine ⟨?_, ?_⟩
  · intro promised
    have raised : loadGraph (some emptySectionDoc) = .error .typeError := rfl
    rcases promised.outcome with ⟨reason, ok⟩ | ⟨g, ok, _⟩
    · rw [raised] at ok
      cases ok
    · rw [raised] at ok
      cases ok
  · intro promised
    have loaded : loadGraph (some nanWeightDoc) = .ok ⟨[⟨.str "a", .str ""⟩, ⟨.str "b", .str ""⟩],
        [⟨.str "a", .str "b", .proportional, .nan⟩]⟩ := rfl
    rcases promised.outcome with ⟨reason, ok⟩ | ⟨g, ok, sound⟩
    · rw [loaded] at ok
      cases ok
    · rw [loaded] at ok
      cases ok
      exact (sound.weight _ List.mem_cons_self).ne_nan rfl

end Centroid
