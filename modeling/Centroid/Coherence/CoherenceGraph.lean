import Centroid.Coherence.CoherenceIndex
import Centroid.Coherence.DoOperator
import Centroid.Lib.Files

namespace Centroid

/-- The orchestrator over one loaded graph. Its propagators enumerate the
identifier set of the graph, which a process does always in the same order. -/
structure CoherenceGraph where
  snapshotPath : String
  graphDef : CoherenceGraphDef (Key ℚ) ℚ
  nodeIds : SetOrder graphDef.nodeIds
  propagator : TopologicalPropagator (Key ℚ)
  calculator : CoherenceIndexCalculator

/-- How the constructor of the orchestrator fails. -/
inductive GraphInitError where
  | load (error : LoadError ℚ)
  | sort (fault : KahnFault)

namespace CoherenceGraph

/-- The constructor, once the enumeration order of each identifier set is given. -/
def init (config : Option (Value ℚ)) (snapshotPath : String)
    (enumerate : ∀ g : CoherenceGraphDef (Key ℚ) ℚ, SetOrder g.nodeIds) : Except GraphInitError CoherenceGraph :=
  match loadGraph config with
  | .error error => .error (.load error)
  | .ok graphDef =>
    match TopologicalPropagator.init graphDef (enumerate graphDef) with
    | .error fault => .error (.sort fault)
    | .ok propagator => .ok ⟨snapshotPath, graphDef, enumerate graphDef, propagator, ⟨propagator.inboundWeightSum⟩⟩

section Seeds

variable (floatOfText : String → Option ℚ)

/-- `float`, from what it makes of a text; `none` where it raises. -/
def floatOf : Value ℚ → Option ℚ
  | .str s => floatOfText s
  | v => v.num?

/-- `_read_seed_values`: the health scores of the snapshot, none at all when
the file cannot be read or one score is not a number. -/
def readSeedValues (self : CoherenceGraph) (disk : Disk ℚ) : Dict (Key ℚ) ℚ :=
  match disk self.snapshotPath with
  | .object data =>
    match (Assoc.get? data (.str "node_health")).getD (.dict []) with
    | .dict nodeHealth =>
      match nodeHealth.mapM fun entry => (floatOf floatOfText entry.2).map (Prod.mk entry.1) with
      | some seeds => .ofList seeds
      | none => ∅
    | _ => ∅
  | _ => ∅

/-- `simulate`, `none` where it raises: when the comparison cannot sort the nodes. -/
def simulate (self : CoherenceGraph) (disk : Disk ℚ) (intervention : DoIntervention (Key ℚ)) (now : ℚ) :
    Option (CoherenceReport × Dict (Key ℚ) ℚ) :=
  let seedValues := self.readSeedValues floatOfText disk
  let baseline := self.propagator.propagate seedValues
  match DoOperator.apply self.graphDef self.nodeIds seedValues intervention with
  | .error _ => none
  | .ok intervened =>
    match DoOperator.compare baseline intervened with
    | none => none
    | some delta => some (self.calculator.compute intervened now, delta)

end Seeds

end CoherenceGraph

end Centroid
