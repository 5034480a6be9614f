import Centroid.Coherence.GraphLoader
import Centroid.Fusion.ConceptGraph
import Centroid.Lib.Rounding
import Mathlib.Data.Finset.Max
import Mathlib.Data.String.Basic

namespace Centroid

open Rounding

/-- A cross-module bridge found via shared concepts. -/
structure BridgeCandidate where
  concept : String
  moduleA : String
  moduleB : String
  sharedConceptCount : ℕ
  bridgeScore : ℚ
  detectedAt : ℚ

namespace BridgeDetector

/-- The two loops over the sorted modules. -/
def modulePairs (moduleIds : List String) : List (String × String) :=
  moduleIds.zipIdx.flatMap fun entry => (moduleIds.drop (entry.2 + 1)).map fun modB => (entry.1, modB)

/-- One turn of the loops; `clock` gives the time of every reading. The score is
an exact quotient, so its last digit may differ from the code's where the
rounding meets a tie. -/
def detectPair (conceptGraph : ConceptGraph) (clock : ℕ → ℚ) (candidates : List BridgeCandidate)
    (pair : String × String) : List BridgeCandidate :=
  let conceptsA := (conceptGraph.moduleIndex.get? pair.1).getD ∅
  let conceptsB := (conceptGraph.moduleIndex.get? pair.2).getD ∅
  let shared := conceptsA ∩ conceptsB
  if some : shared.Nonempty then
    let maxPossible := min conceptsA.card conceptsB.card
    let bridgeScore := if 0 < maxPossible then (shared.card : ℚ) / maxPossible else 0
    candidates ++
      [⟨shared.min' some, pair.1, pair.2, shared.card, roundTo 6 bridgeScore, clock candidates.length⟩]
  else candidates

/-- Find all module pairs that share concepts. -/
def detect (conceptGraph : ConceptGraph) (clock : ℕ → ℚ) : List BridgeCandidate :=
  let moduleIds := conceptGraph.moduleIndex.keys.mergeSort fun a b => decide (a ≤ b)
  let candidates := (modulePairs moduleIds).foldl (detectPair conceptGraph clock) []
  candidates.mergeSort fun c d => decide (d.bridgeScore ≤ c.bridgeScore)

end BridgeDetector

/-- The pairs of nodes that an edge joins, both ways round. -/
structure BridgeDetector where
  coherenceGraph : Option (CoherenceGraphDef (Key ℚ) ℚ)
  edgePairs : Finset (Key ℚ × Key ℚ)

namespace BridgeDetector

def addEdge (edgePairs : Finset (Key ℚ × Key ℚ)) (edge : EdgeDef (Key ℚ) ℚ) : Finset (Key ℚ × Key ℚ) :=
  insert (edge.toNode, edge.fromNode) (insert (edge.fromNode, edge.toNode) edgePairs)

def init (coherenceGraphDef : Option (CoherenceGraphDef (Key ℚ) ℚ)) : BridgeDetector :=
  match coherenceGraphDef with
  | none => ⟨none, ∅⟩
  | some graph => ⟨some graph, graph.edges.foldl addEdge ∅⟩

/-- Filter to bridges that no edge covers. -/
def implicitBridges (self : BridgeDetector) (candidates : List BridgeCandidate) : List BridgeCandidate :=
  candidates.filter fun c => (Key.str c.moduleA, Key.str c.moduleB) ∉ self.edgePairs

end BridgeDetector

end Centroid
