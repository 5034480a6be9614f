import Centroid.Fusion.BridgeDetector
import Mathlib.Data.Finset.Sort

namespace Centroid

namespace ConceptGraph

/-- `concept in module_index[module_id]`. -/
def Indexed (graph : ConceptGraph) (moduleId concept : String) : Prop :=
  ∃ concepts, graph.moduleIndex.get? moduleId = some concepts ∧ concept ∈ concepts

/-- `concept in nodes and module_id in nodes[concept].modules`. -/
def Noded (graph : ConceptGraph) (moduleId concept : String) : Prop :=
  ∃ node, graph.nodes.get? concept = some node ∧ moduleId ∈ node.modules

/-- The graph whose modules have nothing but concepts with a node. -/
def keptOnly (graph : ConceptGraph) : ConceptGraph :=
  { graph with moduleIndex := graph.moduleIndex.mapValues fun _ concepts => concepts.filter (· ∈ graph.nodes.keys) }

/-- The two indexes agree, and the bridges rest on concepts with a node. -/
structure Consistent (graph : ConceptGraph) : Prop where
  inverse : ∀ moduleId concept, graph.Indexed moduleId concept ↔ graph.Noded moduleId concept
  filtered : ∀ concept, graph.nodes.get? concept = none → ∀ moduleId, ¬graph.Indexed moduleId concept
  bridges : ∀ clock, BridgeDetector.detect graph clock = BridgeDetector.detect graph.keptOnly clock

theorem indexed_iff {graph : ConceptGraph} {moduleId concept : String} :
    graph.Indexed moduleId concept ↔ concept ∈ (graph.moduleIndex.get? moduleId).getD ∅ := by
  rw [Indexed]
  cases graph.moduleIndex.get? moduleId <;> simp

/-- Agreement of the indexes is all that there is to show. -/
theorem consistent_of_inverse {graph : ConceptGraph}
    (inverse : ∀ moduleId concept, graph.Indexed moduleId concept ↔ graph.Noded moduleId concept) :
    graph.Consistent where
  inverse := inverse
  filtered := by
    intro concept absent moduleId indexed
    obtain ⟨node, found, _⟩ := (inverse moduleId concept).mp indexed
    cases absent.symm.trans found
  bridges := by
    intro clock
    have same : graph.keptOnly = graph := by
      have kept : graph.moduleIndex.mapValues (fun _ concepts => concepts.filter (· ∈ graph.nodes.keys)) =
          graph.moduleIndex := by
        refine Dict.mapValues_eq_self fun moduleId concepts found => ?_
        refine Finset.filter_true_of_mem fun concept member => ?_
        obtain ⟨node, noded, _⟩ := (inverse moduleId concept).mp ⟨concepts, found, member⟩
        exact (Dict.mem_keys_iff _ _).mpr ⟨node, noded⟩
      rw [keptOnly, kept]
    rw [same]

end ConceptGraph

namespace ConceptGraphBuilder

/-- How often the texts say a token, in all modules together. -/
def occurrenceCount (perceivedList : List PerceivedText) (token : String) : ℕ :=
  (perceivedList.flatMap fun perceived => tokenize perceived.content).count token

theorem length_sources (perceivedList : List PerceivedText) (token : String) :
    (sources perceivedList token).length = occurrenceCount perceivedList token := by
  have tokens : (mentions perceivedList).map Prod.fst =
      perceivedList.flatMap fun perceived => tokenize perceived.content := by
    rw [mentions, List.map_flatMap]
    congr 1
    funext perceived
    rw [List.map_map]
    exact List.map_id _
  rw [occurrenceCount, ← tokens, List.count, List.countP_map, List.countP_eq_length_filter, sources, List.length_map]
  rfl

theorem noded_build {visit : ∀ (_ : String) (modules : Finset String), Visit modules}
    {perceivedList : List PerceivedText} {moduleId concept : String} :
    (build visit perceivedList).Noded moduleId concept ↔
      2 ≤ (sources perceivedList concept).length ∧ moduleId ∈ sources perceivedList concept := by
  rw [ConceptGraph.Noded, get?_nodes]
  by_cases often : 2 ≤ (sources perceivedList concept).length
  · simp [often]
  · simp [often]

/-- The index of the modules is built before the filter: it is right when there
is nothing to filter. -/
theorem build_consistent_iff (visit : ∀ (_ : String) (modules : Finset String), Visit modules)
    (perceivedList : List PerceivedText) :
    (build visit perceivedList).Consistent ↔ ∀ token, occurrenceCount perceivedList token ≠ 1 := by
  constructor
  · intro consistent token once
    have single : (sources perceivedList token).length = 1 := (length_sources _ _).trans once
    obtain ⟨moduleId, only⟩ := List.length_eq_one_iff.mp single
    have indexed : (build visit perceivedList).Indexed moduleId token :=
      ConceptGraph.indexed_iff.mpr (mem_moduleIndex.mpr (by rw [only]; exact List.mem_singleton_self _))
    have often := (noded_build.mp ((consistent.inverse moduleId token).mp indexed)).1
    omega
  · intro repeated
    refine ConceptGraph.consistent_of_inverse fun moduleId concept => ?_
    rw [ConceptGraph.indexed_iff, mem_moduleIndex, noded_build]
    refine ⟨fun member => ⟨?_, member⟩, And.right⟩
    have positive : 0 < (sources perceivedList concept).length := List.length_pos_of_mem member
    have notOnce := repeated concept
    rw [← length_sources] at notOnce
    omega

def sortedVisit (_ : String) (modules : Finset String) : Visit modules :=
  ⟨modules.sort, Finset.sort_nodup _ _, fun _ => Finset.mem_sort _⟩

/-- Two modules with one concept in common and one of their own. -/
def twoTexts : List PerceivedText := [⟨"shared alpha", "module_a"⟩, ⟨"shared beta", "module_b"⟩]

theorem filtered_concept_indexed :
    (build sortedVisit twoTexts).Indexed "module_a" "alpha" ∧ (build sortedVisit twoTexts).nodes.get? "alpha" = none := by
  have once : sources twoTexts "alpha" = ["module_a"] := by decide +kernel
  refine ⟨ConceptGraph.indexed_iff.mpr (mem_moduleIndex.mpr ?_), ?_⟩
  · rw [once]
    exact List.mem_singleton_self _
  · rw [get?_nodes, once]
    rfl

end ConceptGraphBuilder

end Centroid
