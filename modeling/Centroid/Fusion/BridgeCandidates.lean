import Centroid.Fusion.BridgeDetector
import Centroid.Lib.StableSort
import Mathlib.Data.Finset.Lattice.Basic

namespace Centroid

open Rounding

/-- The concepts of all the texts of a module. -/
def conceptsOf (perceivedList : List PerceivedText) (moduleId : String) : Finset String :=
  ((perceivedList.filter fun perceived => perceived.sourceId = moduleId).flatMap fun perceived =>
    ConceptGraphBuilder.tokenize perceived.content).toFinset

def sharedConcepts (perceivedList : List PerceivedText) (a b : String) : Finset String :=
  conceptsOf perceivedList a ∩ conceptsOf perceivedList b

/-- An edge between two modules, in either direction. -/
def Joined (graph : CoherenceGraphDef (Key ℚ) ℚ) (a b : String) : Prop :=
  ∃ edge ∈ graph.edges,
    edge.fromNode = .str a ∧ edge.toNode = .str b ∨ edge.fromNode = .str b ∧ edge.toNode = .str a

instance (graph : CoherenceGraphDef (Key ℚ) ℚ) (a b : String) : Decidable (Joined graph a b) :=
  inferInstanceAs (Decidable (∃ edge ∈ graph.edges, _))

namespace BridgeCandidate

/-- A candidate apart from its time. -/
def untimed (c : BridgeCandidate) : BridgeCandidate := { c with detectedAt := 0 }

def connects (c : BridgeCandidate) (a b : String) : Bool :=
  (c.moduleA = a ∧ c.moduleB = b) ∨ (c.moduleA = b ∧ c.moduleB = a)

end BridgeCandidate

namespace ConceptGraphBuilder

theorem mem_sources {perceivedList : List PerceivedText} {moduleId concept : String} :
    moduleId ∈ sources perceivedList concept ↔ concept ∈ conceptsOf perceivedList moduleId := by
  simp only [sources, mentions, conceptsOf, List.mem_map, List.mem_filter, List.mem_flatMap, List.mem_toFinset,
    decide_eq_true_eq]
  constructor
  · rintro ⟨_, ⟨⟨perceived, listed, token, said, rfl⟩, rfl⟩, rfl⟩
    exact ⟨perceived, ⟨listed, rfl⟩, said⟩
  · rintro ⟨perceived, ⟨listed, rfl⟩, said⟩
    exact ⟨_, ⟨⟨perceived, listed, concept, said, rfl⟩, rfl⟩, rfl⟩

theorem moduleIndex_getD (visit : ∀ (_ : String) (modules : Finset String), Visit modules)
    (perceivedList : List PerceivedText) (moduleId : String) :
    ((build visit perceivedList).moduleIndex.get? moduleId).getD ∅ = conceptsOf perceivedList moduleId := by
  ext concept
  rw [mem_moduleIndex, mem_sources]

/-- A module is entered with its first concept. -/
def NoneEmpty (index : Dict String (Finset String)) : Prop := ∀ m s, index.get? m = some s → s.Nonempty

theorem noneEmpty_indexConcept {index : Dict String (Finset String)} (filled : NoneEmpty index) (concept moduleId : String) :
    NoneEmpty (indexConcept concept index moduleId) := by
  intro m s found
  rw [indexConcept, Dict.get?_set] at found
  split at found
  · cases found
    exact Finset.insert_nonempty _ _
  · exact filled m s found

theorem noneEmpty_foldl_indexConcept (concept : String) (ids : List String) {index : Dict String (Finset String)}
    (filled : NoneEmpty index) : NoneEmpty (ids.foldl (indexConcept concept) index) := by
  induction ids generalizing index with
  | nil => exact filled
  | cons moduleId ids ih => exact ih (noneEmpty_indexConcept filled concept moduleId)

theorem noneEmpty_buildIndex (visit : ∀ (_ : String) (modules : Finset String), Visit modules)
    (conceptModules : Dict String (Finset String)) : NoneEmpty (buildIndex visit conceptModules) := by
  have general : ∀ (entries : List (String × Finset String)) (index : Dict String (Finset String)), NoneEmpty index →
      NoneEmpty (entries.foldl
        (fun moduleIndex entry => (visit entry.1 entry.2).ids.foldl (indexConcept entry.1) moduleIndex) index) := by
    intro entries
    induction entries with
    | nil => exact fun _ filled => filled
    | cons entry entries ih => exact fun _ filled => ih _ (noneEmpty_foldl_indexConcept _ _ filled)
  exact general _ ∅ fun m s found => by cases found

theorem mem_keys_moduleIndex (visit : ∀ (_ : String) (modules : Finset String), Visit modules)
    (perceivedList : List PerceivedText) (moduleId : String) :
    moduleId ∈ (build visit perceivedList).moduleIndex.keys ↔ (conceptsOf perceivedList moduleId).Nonempty := by
  rw [← moduleIndex_getD visit, Dict.mem_keys_iff]
  constructor
  · rintro ⟨concepts, found⟩
    rw [found]
    exact noneEmpty_buildIndex visit _ moduleId concepts found
  · intro concepts
    cases found : (build visit perceivedList).moduleIndex.get? moduleId with
    | none => simp [found] at concepts
    | some s => exact ⟨s, rfl⟩

end ConceptGraphBuilder

namespace BridgeDetector

theorem modulePairs_cons (a : String) (ids : List String) :
    modulePairs (a :: ids) = ids.map (fun b => (a, b)) ++ modulePairs ids := by
  rw [modulePairs, List.zipIdx_cons, List.flatMap_cons, List.zipIdx_succ, List.flatMap_map]
  rfl

theorem mem_modulePairs {ids : List String} (ordered : ids.Pairwise (· < ·)) {a b : String} :
    (a, b) ∈ modulePairs ids ↔ a ∈ ids ∧ b ∈ ids ∧ a < b := by
  induction ids with
  | nil => simp [modulePairs]
  | cons c ids ih =>
    rw [List.pairwise_cons] at ordered
    rw [modulePairs_cons, List.mem_append, ih ordered.2, List.mem_map, List.mem_cons, List.mem_cons]
    constructor
    · rintro (⟨b', later, same⟩ | ⟨memberA, memberB, before⟩)
      · cases same
        exact ⟨Or.inl rfl, Or.inr later, ordered.1 b later⟩
      · exact ⟨Or.inr memberA, Or.inr memberB, before⟩
    · rintro ⟨rfl | memberA, rfl | memberB, before⟩
      · exact absurd before (lt_irrefl _)
      · exact Or.inl ⟨b, memberB, rfl⟩
      · exact absurd before (ordered.1 a memberA).asymm
      · exact Or.inr ⟨memberA, memberB, before⟩

/-- First by the one module, then by the other. -/
def ModuleOrder (p q : String × String) : Prop := p.1 < q.1 ∨ p.1 = q.1 ∧ p.2 < q.2

theorem pairwise_modulePairs {ids : List String} (ordered : ids.Pairwise (· < ·)) :
    (modulePairs ids).Pairwise ModuleOrder := by
  induction ids with
  | nil => exact List.Pairwise.nil
  | cons c ids ih =>
    rw [List.pairwise_cons] at ordered
    rw [modulePairs_cons, List.pairwise_append, List.pairwise_map]
    refine ⟨ordered.2.imp fun before => Or.inr ⟨rfl, before⟩, ih ordered.2, ?_⟩
    intro p first q later
    obtain ⟨b, _, rfl⟩ := List.mem_map.mp first
    exact Or.inl (ordered.1 q.1 ((mem_modulePairs ordered.2).mp later).1)

/-- The sorted modules of a graph. -/
def moduleIds (conceptGraph : ConceptGraph) : List String :=
  conceptGraph.moduleIndex.keys.mergeSort fun a b => decide (a ≤ b)

theorem moduleIds_ordered (conceptGraph : ConceptGraph) : (moduleIds conceptGraph).Pairwise (· < ·) := by
  have sorted : (moduleIds conceptGraph).Pairwise fun a b => decide (a ≤ b) = true := by
    refine List.pairwise_mergeSort ?_ ?_ _
    · intro a b c first second
      exact decide_eq_true (le_trans (of_decide_eq_true first) (of_decide_eq_true second))
    · intro a b
      simpa using le_total a b
  have distinct : (moduleIds conceptGraph).Nodup :=
    (List.mergeSort_perm _ _).nodup_iff.mpr conceptGraph.moduleIndex.distinct
  exact sorted.imp₂ (fun a b le ne => lt_of_le_of_ne (of_decide_eq_true le) ne) distinct

theorem mem_moduleIds (visit : ∀ (_ : String) (modules : Finset String), Visit modules)
    (perceivedList : List PerceivedText) (moduleId : String) :
    moduleId ∈ moduleIds (ConceptGraphBuilder.build visit perceivedList) ↔ (conceptsOf perceivedList moduleId).Nonempty := by
  rw [moduleIds, List.mem_mergeSort, ConceptGraphBuilder.mem_keys_moduleIndex]

/-- What the loops make of a pair, apart from the time. -/
def candidateOf (perceivedList : List PerceivedText) (pair : String × String) : Option BridgeCandidate :=
  if common : (sharedConcepts perceivedList pair.1 pair.2).Nonempty then
    some ⟨(sharedConcepts perceivedList pair.1 pair.2).min' common, pair.1, pair.2,
      (sharedConcepts perceivedList pair.1 pair.2).card,
      roundTo 6 ((sharedConcepts perceivedList pair.1 pair.2).card /
        (min (conceptsOf perceivedList pair.1).card (conceptsOf perceivedList pair.2).card : ℕ)), 0⟩
  else none

theorem smaller_pos {perceivedList : List PerceivedText} {a b : String}
    (common : (sharedConcepts perceivedList a b).Nonempty) :
    0 < min (conceptsOf perceivedList a).card (conceptsOf perceivedList b).card := by
  obtain ⟨concept, member⟩ := common
  have both := Finset.mem_inter.mp member
  exact lt_min (Finset.card_pos.mpr ⟨concept, both.1⟩) (Finset.card_pos.mpr ⟨concept, both.2⟩)

theorem detectPair_untimed (visit : ∀ (_ : String) (modules : Finset String), Visit modules)
    (perceivedList : List PerceivedText) (clock : ℕ → ℚ) (candidates : List BridgeCandidate) (pair : String × String) :
    (detectPair (ConceptGraphBuilder.build visit perceivedList) clock candidates pair).map BridgeCandidate.untimed =
      candidates.map BridgeCandidate.untimed ++ (candidateOf perceivedList pair).toList := by
  rw [detectPair]
  simp only [ConceptGraphBuilder.moduleIndex_getD]
  by_cases common : (sharedConcepts perceivedList pair.1 pair.2).Nonempty
  · rw [candidateOf, dif_pos common]
    rw [sharedConcepts] at common
    rw [dif_pos common, if_pos (smaller_pos common), List.map_append]
    rfl
  · rw [candidateOf, dif_neg common]
    rw [sharedConcepts] at common
    rw [dif_neg common]
    simp

theorem foldl_detectPair_untimed (visit : ∀ (_ : String) (modules : Finset String), Visit modules)
    (perceivedList : List PerceivedText) (clock : ℕ → ℚ) (pairs : List (String × String))
    (candidates : List BridgeCandidate) :
    (pairs.foldl (detectPair (ConceptGraphBuilder.build visit perceivedList) clock) candidates).map
        BridgeCandidate.untimed =
      candidates.map BridgeCandidate.untimed ++ pairs.filterMap (candidateOf perceivedList) := by
  induction pairs generalizing candidates with
  | nil => simp
  | cons pair pairs ih =>
    rw [List.foldl_cons, ih, detectPair_untimed, List.append_assoc]
    cases found : candidateOf perceivedList pair with
    | none => rw [List.filterMap_cons_none found]; rfl
    | some c => rw [List.filterMap_cons_some found]; rfl

/-- The sort of `detect`. -/
def byScore (c d : BridgeCandidate) : Bool := decide (d.bridgeScore ≤ c.bridgeScore)

theorem byScore_trans (c d e : BridgeCandidate) (first : byScore c d = true) (second : byScore d e = true) :
    byScore c e = true := decide_eq_true ((of_decide_eq_true second).trans (of_decide_eq_true first))

theorem byScore_total (c d : BridgeCandidate) : (byScore c d || byScore d c) = true := by
  simpa [byScore] using le_total d.bridgeScore c.bridgeScore

theorem detect_untimed (visit : ∀ (_ : String) (modules : Finset String), Visit modules)
    (perceivedList : List PerceivedText) (clock : ℕ → ℚ) :
    (detect (ConceptGraphBuilder.build visit perceivedList) clock).map BridgeCandidate.untimed =
      ((modulePairs (moduleIds (ConceptGraphBuilder.build visit perceivedList))).filterMap
        (candidateOf perceivedList)).mergeSort byScore := by
  have run := foldl_detectPair_untimed visit perceivedList clock
    (modulePairs (moduleIds (ConceptGraphBuilder.build visit perceivedList))) []
  rw [List.map_nil, List.nil_append] at run
  rw [← run]
  exact List.map_mergeSort fun c _ d _ => rfl

/-- Where a candidate stands in the order of the modules. -/
def InModuleOrder (c d : BridgeCandidate) : Prop := ModuleOrder (c.moduleA, c.moduleB) (d.moduleA, d.moduleB)

theorem eq_of_candidateOf {perceivedList : List PerceivedText} {pair : String × String} {c : BridgeCandidate}
    (found : candidateOf perceivedList pair = some c) : (c.moduleA, c.moduleB) = pair := by
  rw [candidateOf] at found
  split at found
  · cases found
    rfl
  · cases found

theorem pairwise_candidates (conceptGraph : ConceptGraph) (perceivedList : List PerceivedText) :
    ((modulePairs (moduleIds conceptGraph)).filterMap (candidateOf perceivedList)).Pairwise InModuleOrder := by
  refine (pairwise_modulePairs (moduleIds_ordered conceptGraph)).filterMap _ ?_
  intro p q before c foundC d foundD
  rw [InModuleOrder, eq_of_candidateOf foundC, eq_of_candidateOf foundD]
  exact before

theorem not_moduleOrder_self (p : String × String) : ¬ModuleOrder p p := by
  rintro (before | ⟨_, before⟩)
  · exact lt_irrefl _ before
  · exact lt_irrefl _ before

theorem nodup_candidates (conceptGraph : ConceptGraph) (perceivedList : List PerceivedText) :
    ((modulePairs (moduleIds conceptGraph)).filterMap (candidateOf perceivedList)).Nodup := by
  refine (pairwise_candidates conceptGraph perceivedList).imp ?_
  rintro c _ before rfl
  exact not_moduleOrder_self _ before

theorem mem_pairs_of_common (visit : ∀ (_ : String) (modules : Finset String), Visit modules)
    {perceivedList : List PerceivedText} {a b : String} (before : a < b)
    (common : (sharedConcepts perceivedList a b).Nonempty) :
    (a, b) ∈ modulePairs (moduleIds (ConceptGraphBuilder.build visit perceivedList)) := by
  obtain ⟨concept, member⟩ := common
  have both := Finset.mem_inter.mp member
  rw [mem_modulePairs (moduleIds_ordered _), mem_moduleIds, mem_moduleIds]
  exact ⟨⟨concept, both.1⟩, ⟨concept, both.2⟩, before⟩

theorem mem_foldl_addEdge (edges : List (EdgeDef (Key ℚ) ℚ)) (edgePairs : Finset (Key ℚ × Key ℚ)) (a b : Key ℚ) :
    (a, b) ∈ edges.foldl addEdge edgePairs ↔
      (a, b) ∈ edgePairs ∨
        ∃ edge ∈ edges, edge.fromNode = a ∧ edge.toNode = b ∨ edge.fromNode = b ∧ edge.toNode = a := by
  induction edges generalizing edgePairs with
  | nil => simp
  | cons edge edges ih =>
    have step : (a, b) ∈ addEdge edgePairs edge ↔
        (edge.fromNode = a ∧ edge.toNode = b ∨ edge.fromNode = b ∧ edge.toNode = a) ∨ (a, b) ∈ edgePairs := by
      rw [addEdge, Finset.mem_insert, Finset.mem_insert, Prod.mk.injEq, Prod.mk.injEq, eq_comm (a := a), eq_comm (a := b),
        eq_comm (a := a), eq_comm (a := b), or_left_comm, or_assoc, and_comm (a := edge.toNode = a)]
    rw [List.foldl_cons, ih, step, List.exists_mem_cons_iff, or_assoc, or_left_comm]

/-- Whether an edge of the graph, if there is one, joins two modules. -/
def covered (coherenceGraphDef : Option (CoherenceGraphDef (Key ℚ) ℚ)) (a b : String) : Bool :=
  coherenceGraphDef.any fun graph => Joined graph a b

theorem implicitBridges_init (coherenceGraphDef : Option (CoherenceGraphDef (Key ℚ) ℚ))
    (candidates : List BridgeCandidate) :
    (init coherenceGraphDef).implicitBridges candidates =
      candidates.filter fun c => !covered coherenceGraphDef c.moduleA c.moduleB := by
  refine List.filter_congr fun c _ => ?_
  cases coherenceGraphDef with
  | none => rfl
  | some graph =>
    have edges := mem_foldl_addEdge graph.edges ∅ (.str c.moduleA) (.str c.moduleB)
    rw [init, covered, Option.any_some, ← decide_not]
    refine decide_eq_decide.mpr (not_congr (edges.trans ?_))
    rw [Joined, or_iff_right (Finset.notMem_empty _)]

/-- What a candidate says of its two modules. -/
structure Describes (perceivedList : List PerceivedText) (c : BridgeCandidate) : Prop where
  ordered : c.moduleA < c.moduleB
  count : c.sharedConceptCount = (sharedConcepts perceivedList c.moduleA c.moduleB).card
  divisor_pos : 0 < min (conceptsOf perceivedList c.moduleA).card (conceptsOf perceivedList c.moduleB).card
  score : c.bridgeScore = roundTo 6 (c.sharedConceptCount /
    (min (conceptsOf perceivedList c.moduleA).card (conceptsOf perceivedList c.moduleB).card : ℕ) : ℚ)
  score_nonneg : 0 ≤ c.bridgeScore
  score_le_one : c.bridgeScore ≤ 1
  representative : c.concept ∈ sharedConcepts perceivedList c.moduleA c.moduleB ∧
    ∀ concept ∈ sharedConcepts perceivedList c.moduleA c.moduleB, c.concept ≤ concept

theorem describes_of_candidateOf {perceivedList : List PerceivedText} {pair : String × String} (before : pair.1 < pair.2)
    {c : BridgeCandidate} (found : candidateOf perceivedList pair = some c) : Describes perceivedList c := by
  rw [candidateOf] at found
  split at found
  · rename_i common
    cases found
    have smaller := smaller_pos common
    have some : (0 : ℚ) < (min (conceptsOf perceivedList pair.1).card (conceptsOf perceivedList pair.2).card : ℕ) := by
      exact_mod_cast smaller
    have few : (sharedConcepts perceivedList pair.1 pair.2).card ≤
        min (conceptsOf perceivedList pair.1).card (conceptsOf perceivedList pair.2).card :=
      le_min (Finset.card_le_card Finset.inter_subset_left) (Finset.card_le_card Finset.inter_subset_right)
    exact {
      ordered := before
      count := rfl
      divisor_pos := smaller
      score := rfl
      score_nonneg := roundTo_nonneg 6 (by positivity)
      score_le_one := roundTo_le_one 6 (div_le_one_of_le₀ (by exact_mod_cast few) some.le)
      representative := ⟨Finset.min'_mem _ common, fun concept member => Finset.min'_le _ _ member⟩ }
  · cases found

theorem describes_detect {visit : ∀ (_ : String) (modules : Finset String), Visit modules}
    {perceivedList : List PerceivedText} {clock : ℕ → ℚ} {c : BridgeCandidate}
    (listed : c ∈ detect (ConceptGraphBuilder.build visit perceivedList) clock) : Describes perceivedList c := by
  have untimed := List.mem_map_of_mem (f := BridgeCandidate.untimed) listed
  rw [detect_untimed, List.mem_mergeSort, List.mem_filterMap] at untimed
  obtain ⟨pair, member, found⟩ := untimed
  have described := describes_of_candidateOf ((mem_modulePairs (moduleIds_ordered _)).mp member).2.2 found
  exact ⟨described.ordered, described.count, described.divisor_pos, described.score, described.score_nonneg,
    described.score_le_one, described.representative⟩

theorem connects_candidateOf {perceivedList : List PerceivedText} {pair : String × String} (ordered : pair.1 < pair.2)
    {a b : String} (before : a < b) :
    ((candidateOf perceivedList pair).map (·.connects a b)).getD false = true ↔
      pair = (a, b) ∧ (sharedConcepts perceivedList a b).Nonempty := by
  have turned : ¬(pair.1 = b ∧ pair.2 = a) := by
    rintro ⟨rfl, rfl⟩
    exact absurd ordered before.asymm
  rw [candidateOf]
  by_cases common : (sharedConcepts perceivedList pair.1 pair.2).Nonempty
  · rw [dif_pos common, Option.map_some, Option.getD_some, BridgeCandidate.connects, decide_eq_true_eq, or_iff_left turned]
    constructor
    · rintro ⟨rfl, rfl⟩
      exact ⟨rfl, common⟩
    · rintro ⟨rfl, _⟩
      exact ⟨rfl, rfl⟩
  · rw [dif_neg common]
    refine iff_of_false (by simp) ?_
    rintro ⟨rfl, there⟩
    exact common there

theorem countP_connects_of_lt (visit : ∀ (_ : String) (modules : Finset String), Visit modules)
    (perceivedList : List PerceivedText) (clock : ℕ → ℚ) {a b : String} (before : a < b) :
    (detect (ConceptGraphBuilder.build visit perceivedList) clock).countP (·.connects a b) =
      if (sharedConcepts perceivedList a b).Nonempty then 1 else 0 := by
  have ordered := moduleIds_ordered (ConceptGraphBuilder.build visit perceivedList)
  have untimed := List.countP_map (p := (·.connects a b)) (f := BridgeCandidate.untimed)
    (l := detect (ConceptGraphBuilder.build visit perceivedList) clock)
  have pairs : ∀ pair ∈ modulePairs (moduleIds (ConceptGraphBuilder.build visit perceivedList)), pair.1 < pair.2 :=
    fun pair member => ((mem_modulePairs ordered).mp member).2.2
  have chosen : (modulePairs (moduleIds (ConceptGraphBuilder.build visit perceivedList))).countP
        (fun pair => ((candidateOf perceivedList pair).map (·.connects a b)).getD false) =
      (modulePairs (moduleIds (ConceptGraphBuilder.build visit perceivedList))).countP
        fun pair => decide (pair = (a, b) ∧ (sharedConcepts perceivedList a b).Nonempty) := by
    refine List.countP_congr fun pair member => ?_
    rw [connects_candidateOf (pairs pair member) before, decide_eq_true_eq]
  rw [detect_untimed, (List.mergeSort_perm _ _).countP_eq, List.countP_filterMap, chosen] at untimed
  refine untimed.symm.trans ?_
  by_cases common : (sharedConcepts perceivedList a b).Nonempty
  · have distinct : (modulePairs (moduleIds (ConceptGraphBuilder.build visit perceivedList))).Nodup := by
      refine (pairwise_modulePairs ordered).imp ?_
      rintro p _ order rfl
      exact not_moduleOrder_self p order
    have once := List.count_eq_one_of_mem distinct (mem_pairs_of_common visit before common)
    rw [if_pos common, ← once, List.count]
    exact List.countP_congr fun pair _ => by simp [common]
  · simp [common]

theorem countP_connects (visit : ∀ (_ : String) (modules : Finset String), Visit modules)
    (perceivedList : List PerceivedText) (clock : ℕ → ℚ) {a b : String} (apart : a ≠ b) :
    (detect (ConceptGraphBuilder.build visit perceivedList) clock).countP (·.connects a b) =
      if (sharedConcepts perceivedList a b).Nonempty then 1 else 0 := by
  rcases lt_or_gt_of_ne apart with before | after
  · exact countP_connects_of_lt visit perceivedList clock before
  · have turned : ∀ c : BridgeCandidate, c.connects a b = c.connects b a := by
      intro c
      rw [BridgeCandidate.connects, BridgeCandidate.connects]
      exact decide_eq_decide.mpr or_comm
    have same : sharedConcepts perceivedList a b = sharedConcepts perceivedList b a := Finset.inter_comm _ _
    simp only [turned]
    rw [same]
    exact countP_connects_of_lt visit perceivedList clock after

/-- By falling score, and in the order of the modules where the scores agree. -/
theorem pairwise_detect (visit : ∀ (_ : String) (modules : Finset String), Visit modules)
    (perceivedList : List PerceivedText) (clock : ℕ → ℚ) :
    (detect (ConceptGraphBuilder.build visit perceivedList) clock).Pairwise fun c d =>
      d.bridgeScore ≤ c.bridgeScore ∧ (c.bridgeScore = d.bridgeScore → InModuleOrder c d) := by
  have stable := StableSort.pairwise_mergeSort_of_pairwise byScore_trans byScore_total
    (nodup_candidates (ConceptGraphBuilder.build visit perceivedList) perceivedList)
    (pairwise_candidates (ConceptGraphBuilder.build visit perceivedList) perceivedList)
  rw [← detect_untimed visit perceivedList clock, List.pairwise_map] at stable
  refine stable.imp fun {c d} order => ⟨of_decide_eq_true order.1, fun tie => ?_⟩
  exact order.2 (decide_eq_true tie.le)

theorem conceptsOf_perm {perceivedList perceivedList' : List PerceivedText} (perm : perceivedList.Perm perceivedList')
    (moduleId : String) : conceptsOf perceivedList moduleId = conceptsOf perceivedList' moduleId :=
  List.toFinset_eq_of_perm _ _ ((perm.filter _).flatMap_right _)

/-- Neither the order of the texts nor that of a set reaches the candidates. -/
theorem detect_untimed_perm (visit visit' : ∀ (_ : String) (modules : Finset String), Visit modules)
    {perceivedList perceivedList' : List PerceivedText} (perm : perceivedList.Perm perceivedList') (clock clock' : ℕ → ℚ) :
    (detect (ConceptGraphBuilder.build visit perceivedList) clock).map BridgeCandidate.untimed =
      (detect (ConceptGraphBuilder.build visit' perceivedList') clock').map BridgeCandidate.untimed := by
  have concepts : conceptsOf perceivedList = conceptsOf perceivedList' := funext (conceptsOf_perm perm)
  have candidates : candidateOf perceivedList = candidateOf perceivedList' := by
    funext pair
    simp only [candidateOf, sharedConcepts, concepts]
    rfl
  have ordered := moduleIds_ordered (ConceptGraphBuilder.build visit perceivedList)
  have ordered' := moduleIds_ordered (ConceptGraphBuilder.build visit' perceivedList')
  have members : (moduleIds (ConceptGraphBuilder.build visit perceivedList)).Perm
      (moduleIds (ConceptGraphBuilder.build visit' perceivedList')) := by
    refine (List.perm_ext_iff_of_nodup (ordered.imp ne_of_lt) (ordered'.imp ne_of_lt)).mpr fun moduleId => ?_
    rw [mem_moduleIds, mem_moduleIds, concepts]
  have modules := members.eq_of_pairwise (fun a b _ _ less more => absurd more less.asymm) ordered ordered'
  rw [detect_untimed, detect_untimed, candidates, modules]

/-- The whole report on the texts of the modules. -/
theorem detect_build (visit : ∀ (_ : String) (modules : Finset String), Visit modules)
    (perceivedList : List PerceivedText) (clock : ℕ → ℚ) (coherenceGraphDef : Option (CoherenceGraphDef (Key ℚ) ℚ)) :
    let candidates := detect (ConceptGraphBuilder.build visit perceivedList) clock
    (∀ a b, a ≠ b →
      candidates.countP (·.connects a b) = if (sharedConcepts perceivedList a b).Nonempty then 1 else 0) ∧
      (∀ c ∈ candidates, Describes perceivedList c) ∧
      (candidates.Pairwise fun c d =>
        d.bridgeScore ≤ c.bridgeScore ∧ (c.bridgeScore = d.bridgeScore → InModuleOrder c d)) ∧
      ((init coherenceGraphDef).implicitBridges candidates =
        candidates.filter fun c => !covered coherenceGraphDef c.moduleA c.moduleB) ∧
      ∀ visit' perceivedList' clock', perceivedList.Perm perceivedList' →
        (detect (ConceptGraphBuilder.build visit' perceivedList') clock').map BridgeCandidate.untimed =
          candidates.map BridgeCandidate.untimed := by
  refine ⟨fun a b apart => countP_connects visit perceivedList clock apart, fun c listed => describes_detect listed,
    pairwise_detect visit perceivedList clock, implicitBridges_init _ _, ?_⟩
  intro visit' perceivedList' clock' perm
  exact (detect_untimed_perm visit visit' perm clock clock').symm

end BridgeDetector

end Centroid
