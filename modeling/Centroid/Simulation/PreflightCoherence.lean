import Centroid.Coherence.Simulate
import Centroid.Simulation.SafetyPreflight

namespace Centroid

open Rounding

theorem scoresValue_inj {a b : Dict (Key ℚ) ℚ} (same : scoresValue a = scoresValue b) : a = b := by
  have pairing : Function.Injective fun entry : Key ℚ × ℚ => (entry.1, Value.num entry.2) := by
    intro x y equal
    simp only [Prod.mk.injEq, Value.num.injEq] at equal
    exact Prod.ext equal.1 equal.2
  obtain ⟨entries, distinct⟩ := a
  obtain ⟨entries', distinct'⟩ := b
  simp only [scoresValue, Value.dict.injEq] at same
  cases pairing.list_map same
  rfl

theorem splitDots_dotted {top : String} (plain : '.' ∉ top.toList) (rest : String) :
    splitDots (top ++ "." ++ rest) = top :: splitDots rest := by
  have dot : ".".toList = ['.'] := rfl
  rw [splitDots, String.toList_append, String.toList_append, dot, List.append_assoc, List.singleton_append,
    List.splitOn_append_cons_self_of_not_mem plain, List.map_cons, String.ofList_toList, splitDots]

namespace SafetyPreflight

/-- The twin holds what the counterfactual of the intervention reports. -/
def Reflects (floatOfText : String → Option ℚ) (graph : CoherenceGraph) (disk : Disk ℚ)
    (intervention : DoIntervention (Key ℚ)) (now : ℚ) (twin : TwinState) : Prop :=
  ∃ report delta, graph.simulate floatOfText disk intervention now = some (report, delta) ∧
    Assoc.get? twin.snapshot (.str "node_health") = some (scoresValue report.nodeScores) ∧
    Assoc.get? twin.snapshot (.str "coherence_index") = some (.num report.coherenceIndex)

theorem get?_propagateTwin {floatOfText : String → Option ℚ} {graph : CoherenceGraph} {disk : Disk ℚ}
    (intervention : Intervention) {now : ℚ} (twin : TwinState) {top : String} {rest : List String}
    (parts : splitDots intervention.targetField = top :: rest) {v : ℚ} (proposed : intervention.proposedValue = .num v)
    {report : CoherenceReport} {delta : Dict (Key ℚ) ℚ}
    (simulated : graph.simulate floatOfText disk ⟨.str top, v⟩ now = some (report, delta)) :
    let snapshot := (propagateTwin floatOfText graph disk intervention now twin).snapshot
    Assoc.get? snapshot (.str "node_health") = some (scoresValue report.nodeScores) ∧
      Assoc.get? snapshot (.str "coherence_index") = some (.num report.coherenceIndex) := by
  simp only [propagateTwin, parts, List.headD_cons, proposed, Value.num?, Option.getD_some, simulated]
  exact ⟨by rw [Assoc.get?_set, if_neg (by decide), Assoc.get?_set, if_pos rfl], by rw [Assoc.get?_set, if_pos rfl]⟩

/-- The propagation step forces the node that is called like the top-level
key. A dotted target therefore reflects the intervention on its own node when
the two counterfactuals agree, and on a graph without a node of that name when
there is nothing to reflect. -/
theorem simulatedTwin_reflects_iff (floatOfText : String → Option ℚ) {config : Option (Value ℚ)} {snapshotPath : String}
    {enumerate : ∀ g : CoherenceGraphDef (Key ℚ) ℚ, SetOrder g.nodeIds} {graph : CoherenceGraph}
    (built : CoherenceGraph.init config snapshotPath enumerate = .ok graph) {self : SafetyPreflight}
    (wired : self.coherenceGraph = some graph) (samePath : self.twinBuffer.path = snapshotPath) {disk : Disk ℚ}
    {snapshot : List (Key ℚ × Value ℚ)} (atPath : disk snapshotPath = .object snapshot) {node : String}
    (declared : .str node ∈ graph.graphDef.nodeIds) {v : ℚ} (lower : 0 ≤ v) (upper : v ≤ 1) {intervention : Intervention}
    (target : intervention.targetField = "node_health" ++ "." ++ node) (proposed : intervention.proposedValue = .num v)
    (forkId : String) (now : ℚ) :
    ((∃ twin, self.simulatedTwin floatOfText disk intervention forkId now = .ok twin ∧
        Reflects floatOfText graph disk ⟨.str node, v⟩ now twin) ↔
      (∃ w, valueAt snapshot (splitDots intervention.targetField) = some w) ∧
        Key.sortable graph.nodeIds.ids = true ∧
        DoOperator.apply graph.graphDef graph.nodeIds (graph.readSeedValues floatOfText disk) ⟨.str node, v⟩ =
          DoOperator.apply graph.graphDef graph.nodeIds (graph.readSeedValues floatOfText disk)
            ⟨.str "node_health", v⟩) ∧
    (.str "node_health" ∉ graph.graphDef.nodeIds →
      (∃ twin, self.simulatedTwin floatOfText disk intervention forkId now = .ok twin ∧
        Reflects floatOfText graph disk ⟨.str node, v⟩ now twin) →
      (graph.propagator.propagate (graph.readSeedValues floatOfText disk)).get? (.str node) = some (roundTo 6 v)) := by
  have parts : splitDots intervention.targetField = "node_health" :: splitDots node := by
    rw [target]
    exact splitDots_dotted (by decide) node
  obtain ⟨valid, _, sorted⟩ := CoherenceGraph.init_spec built
  obtain ⟨forced, _, runForced, simForced⟩ := CoherenceGraph.simulate_eq floatOfText built disk (.str node) v now
  obtain ⟨actual, _, runActual, simActual⟩ := CoherenceGraph.simulate_eq floatOfText built disk (.str "node_health") v now
  have cases := simulatedTwin_cases floatOfText (samePath ▸ atPath) intervention forkId now
  have characterised : (∃ twin, self.simulatedTwin floatOfText disk intervention forkId now = .ok twin ∧
        Reflects floatOfText graph disk ⟨.str node, v⟩ now twin) ↔
      (∃ w, valueAt snapshot (splitDots intervention.targetField) = some w) ∧
        Key.sortable graph.nodeIds.ids = true ∧ forced = actual := by
    constructor
    · intro ⟨twin, simulated, report, delta, reported, scores, _⟩
      rcases cases with ⟨e, _, failed⟩ | ⟨w, changed, found, _, _, throughGraph⟩
      · rw [failed] at simulated
        cases simulated
      · by_cases sortable : Key.sortable graph.nodeIds.ids = true
        · rw [if_pos sortable] at simForced simActual
          obtain ⟨health, _⟩ := get?_propagateTwin intervention changed parts proposed simActual
          have isTwin := simulated.symm.trans (throughGraph graph wired)
          rw [Except.ok.inj isTwin, health] at scores
          have sameReport : graph.calculator.compute forced now = report :=
            congrArg Prod.fst (Option.some.inj (simForced.symm.trans reported))
          have same := scoresValue_inj (Option.some.inj scores)
          rw [← sameReport, CoherenceIndexCalculator.compute_nodeScores,
            CoherenceIndexCalculator.compute_nodeScores] at same
          exact ⟨⟨w, found⟩, sortable, same.symm⟩
        · rw [if_neg sortable] at simForced
          rw [simForced] at reported
          cases reported
    · intro ⟨⟨w, found⟩, sortable, same⟩
      rw [if_pos sortable] at simForced simActual
      rcases cases with ⟨_, absent, _⟩ | ⟨_, changed, _, _, _, throughGraph⟩
      · rw [found] at absent
        cases absent
      · obtain ⟨health, index⟩ := get?_propagateTwin intervention changed parts proposed simActual
        rw [← same] at health index
        exact ⟨_, throughGraph graph wired, _, _, simForced, health, index⟩
  have sameRuns : DoOperator.apply graph.graphDef graph.nodeIds (graph.readSeedValues floatOfText disk) ⟨.str node, v⟩ =
      DoOperator.apply graph.graphDef graph.nodeIds (graph.readSeedValues floatOfText disk) ⟨.str "node_health", v⟩ ↔
        forced = actual := by
    rw [runForced, runActual, Except.ok.injEq]
  refine ⟨by rw [sameRuns, characterised], fun undeclared reflected => ?_⟩
  obtain ⟨_, _, same⟩ := characterised.mp reflected
  obtain ⟨intervened, run, _, atNode⟩ :=
    valid.apply_declared graph.nodeIds (graph.readSeedValues floatOfText disk) (.str node) v
  have isForced : intervened = forced := Except.ok.inj (run.symm.trans runForced)
  have isBaseline := runActual.symm.trans (valid.apply_undeclared sorted _ undeclared v)
  rw [← Except.ok.inj isBaseline, ← same, ← isForced, atNode declared, clampOutput_of_mem lower upper]

/-- The set of identifiers, enumerated in the order of declaration. -/
def declarationOrder (g : CoherenceGraphDef (Key ℚ) ℚ) : SetOrder g.nodeIds :=
  ⟨g.nodeIds.dedup, g.nodeIds.nodup_dedup, fun _ => List.mem_dedup⟩

def chainPropagator : TopologicalPropagator (Key ℚ) := ⟨chainGraph, declarationOrder chainGraph, [.str "a", .str "b"]⟩

/-- The orchestrator over the chain of two nodes. -/
def chainCoherence : CoherenceGraph :=
  ⟨"state/world_snapshot.json", chainGraph, declarationOrder chainGraph, chainPropagator,
    ⟨chainPropagator.inboundWeightSum⟩⟩

theorem init_chainCoherence :
    CoherenceGraph.init (some chainDoc) "state/world_snapshot.json" declarationOrder = .ok chainCoherence := rfl

def chainWorld : List (Key ℚ × Value ℚ) :=
  [(.str "node_health", .dict [(.str "a", .num (1 / 2)), (.str "b", .num (1 / 2))])]

def chainPreflight : SafetyPreflight := { defaultPreflight with coherenceGraph := some chainCoherence }

theorem simulatedTwin_reflects_iff_chain :
    ∃ twin, chainPreflight.simulatedTwin (fun _ => none) (fun _ => .object chainWorld)
        ⟨"route", "node_health.a", .num (1 / 2), "leave the node as it is"⟩ "f0" 0 = .ok twin ∧
      Reflects (fun _ => none) chainCoherence (fun _ => .object chainWorld) ⟨.str "a", 1 / 2⟩ 0 twin :=
  (simulatedTwin_reflects_iff (fun _ => none) init_chainCoherence rfl rfl rfl (show Key.str "a" ∈ chainGraph.nodeIds by decide)
    (v := 1 / 2) (by norm_num) (by norm_num) rfl rfl "f0" 0).1.mpr ⟨⟨_, rfl⟩, by decide, rfl⟩

/-- Forcing a node of the chain to zero leaves it at one half in the twin,
while the counterfactual reports zero. -/
theorem forced_node_erased :
    ∃ twin scores report delta, chainPreflight.simulatedTwin (fun _ => none) (fun _ => .object chainWorld)
        ⟨"route", "node_health.a", .num 0, "zero the node"⟩ "f0" 0 = .ok twin ∧
      Assoc.get? twin.snapshot (.str "node_health") = some (scoresValue scores) ∧
      scores.get? (.str "a") = some (1 / 2) ∧
      chainCoherence.simulate (fun _ => none) (fun _ => .object chainWorld) ⟨.str "a", 0⟩ 0 = some (report, delta) ∧
      report.nodeScores.get? (.str "a") = some 0 := by
  obtain ⟨valid, _, sorted⟩ := CoherenceGraph.init_spec init_chainCoherence
  obtain ⟨forced, delta, runForced, simForced⟩ :=
    CoherenceGraph.simulate_eq (fun _ => none) init_chainCoherence (fun _ => .object chainWorld) (.str "a") 0 0
  obtain ⟨actual, _, runActual, simActual⟩ :=
    CoherenceGraph.simulate_eq (fun _ => none) init_chainCoherence (fun _ => .object chainWorld) (.str "node_health") 0 0
  have sortable : Key.sortable chainCoherence.nodeIds.ids = true := by decide
  rw [if_pos sortable] at simForced simActual
  have isBaseline := runActual.symm.trans (valid.apply_undeclared sorted _ (by decide) 0)
  obtain ⟨intervened, run, _, atNode⟩ := valid.apply_declared chainCoherence.nodeIds
    (chainCoherence.readSeedValues (fun _ => none) fun _ => .object chainWorld) (.str "a") 0
  have isForced : intervened = forced := Except.ok.inj (run.symm.trans runForced)
  have present : valueAt chainWorld (splitDots "node_health.a") = some (.num (1 / 2)) := rfl
  rcases @simulatedTwin_cases chainPreflight (fun _ => .object chainWorld) chainWorld (fun _ => none) rfl
    ⟨"route", "node_health.a", .num 0, "zero the node"⟩ "f0" 0 with ⟨_, absent, _⟩ | ⟨_, changed, _, _, _, throughGraph⟩
  · exact absurd (present.symm.trans absent) (Option.some_ne_none _)
  · have parts : splitDots "node_health.a" = ["node_health", "a"] := rfl
    obtain ⟨health, _⟩ :=
      get?_propagateTwin ⟨"route", "node_health.a", .num 0, "zero the node"⟩ changed parts rfl simActual
    refine ⟨_, _, _, _, throughGraph chainCoherence rfl, health, ?_, simForced, ?_⟩
    · rw [CoherenceIndexCalculator.compute_nodeScores, Except.ok.inj isBaseline]
      decide +kernel
    · rw [CoherenceIndexCalculator.compute_nodeScores, ← isForced, atNode (by decide)]
      decide +kernel

end SafetyPreflight

end Centroid
