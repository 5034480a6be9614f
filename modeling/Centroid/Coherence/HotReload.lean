import Centroid.Coherence.SnapshotTick

namespace Centroid

namespace CoherenceGraph

variable (enumerate : ∀ g : CoherenceGraphDef (Key ℚ) ℚ, SetOrder g.nodeIds)

/-- `reload_config`, with what the file of the graph holds: the parts are replaced
one after the other, up to the one that raises. -/
def reloadConfig (self : CoherenceGraph) (config : Option (Value ℚ)) : CoherenceGraph × Option GraphInitError :=
  match loadGraph config with
  | .error error => (self, some (.load error))
  | .ok graphDef =>
    match TopologicalPropagator.init graphDef (enumerate graphDef) with
    | .error fault => ({ self with graphDef := graphDef, nodeIds := enumerate graphDef }, some (.sort fault))
    | .ok propagator =>
      ({ self with
          graphDef := graphDef
          nodeIds := enumerate graphDef
          propagator := propagator
          calculator := ⟨propagator.inboundWeightSum⟩ }, none)

/-- A call, or a reload while the orchestrator runs. -/
inductive OrchestratorCall where
  | call (next : CoherenceCall)
  | reload (config : Option (Value ℚ))

inductive OrchestratorReply where
  | answer (answer : Option CoherenceAnswer)
  | reloaded (raised : Option GraphInitError)

section

variable (floatOfText : String → Option ℚ) (stateDir : String)

def orchestratorCall (self : CoherenceGraph) (disk : Disk ℚ) :
    OrchestratorCall → CoherenceGraph × Disk ℚ × OrchestratorReply
  | .call next =>
    let (disk, answer) := self.call floatOfText stateDir disk next
    (self, disk, .answer answer)
  | .reload config =>
    let (self, raised) := self.reloadConfig enumerate config
    (self, disk, .reloaded raised)

/-- Calls and reloads one after the other. -/
def orchestrate (self : CoherenceGraph) (disk : Disk ℚ) :
    List OrchestratorCall → CoherenceGraph × Disk ℚ × List OrchestratorReply
  | [] => (self, disk, [])
  | next :: calls =>
    let (self, disk, reply) := self.orchestratorCall enumerate floatOfText stateDir disk next
    let (self, disk, replies) := self.orchestrate disk calls
    (self, disk, reply :: replies)

/-- What a reload leaves as the document of the graph, and what it raises. -/
def kept (config next : Option (Value ℚ)) : Option (Value ℚ) × Option GraphInitError :=
  match loadGraph next with
  | .error error => (config, some (.load error))
  | .ok _ => (next, none)

/-- The same calls, each of them on an orchestrator that is made for it, from the
document that was loaded last. -/
def rebuilt (snapshotPath : String) (config : Option (Value ℚ)) (disk : Disk ℚ) :
    List OrchestratorCall → Option (Value ℚ) × Disk ℚ × List OrchestratorReply
  | [] => (config, disk, [])
  | .call next :: calls =>
    match init config snapshotPath enumerate with
    | .error _ => (config, disk, [])
    | .ok fresh =>
      let (disk, answer) := fresh.call floatOfText stateDir disk next
      let (config, disk, replies) := rebuilt snapshotPath config disk calls
      (config, disk, .answer answer :: replies)
  | .reload next :: calls =>
    let (config, raised) := kept config next
    let (config, disk, replies) := rebuilt snapshotPath config disk calls
    (config, disk, .reloaded raised :: replies)

end

variable {enumerate}

/-- A document that can be loaded can be sorted: a reload changes all parts or none. -/
theorem reloadConfig_spec {graph : CoherenceGraph} {config : Option (Value ℚ)} {snapshotPath : String}
    (built : init config snapshotPath enumerate = .ok graph) (next : Option (Value ℚ)) :
    init (kept config next).1 snapshotPath enumerate = .ok (graph.reloadConfig enumerate next).1 ∧
      (graph.reloadConfig enumerate next).2 = (kept config next).2 := by
  cases loaded : loadGraph next with
  | error error =>
    have unchanged : graph.reloadConfig enumerate next = (graph, some (.load error)) := by
      rw [reloadConfig, loaded]
    rw [kept, loaded, unchanged]
    exact ⟨built, rfl⟩
  | ok graphDef =>
    obtain ⟨topoOrder, sorted, -⟩ := (loadGraph_valid loaded).init_spec (enumerate graphDef)
    obtain ⟨-, samePath, -⟩ := init_spec built
    have replaced : init next snapshotPath enumerate = .ok (graph.reloadConfig enumerate next).1 ∧
        (graph.reloadConfig enumerate next).2 = none := by
      rw [init, reloadConfig, loaded]
      dsimp only
      rw [sorted, samePath]
      exact ⟨rfl, rfl⟩
    rw [kept, loaded]
    exact replaced

/-- An orchestrator that is reloaded while it runs cannot be told from one that is
made anew for each call, from the document that was loaded last. -/
theorem orchestrate_eq_rebuilt (floatOfText : String → Option ℚ) (stateDir : String) {snapshotPath : String}
    {config : Option (Value ℚ)} {graph : CoherenceGraph} (built : init config snapshotPath enumerate = .ok graph)
    (disk : Disk ℚ) (calls : List OrchestratorCall) :
    let final := graph.orchestrate enumerate floatOfText stateDir disk calls
    let expected := rebuilt enumerate floatOfText stateDir snapshotPath config disk calls
    init expected.1 snapshotPath enumerate = .ok final.1 ∧ final.2 = expected.2 := by
  induction calls generalizing graph config disk with
  | nil => exact ⟨built, rfl⟩
  | cons next calls ih =>
    cases next with
    | call next =>
      obtain ⟨later, replies⟩ := ih built (graph.call floatOfText stateDir disk next).1
      dsimp only [orchestrate, orchestratorCall, rebuilt]
      rw [built]
      dsimp only
      obtain ⟨files, answers⟩ := Prod.ext_iff.mp replies
      rw [files, answers]
      exact ⟨later, rfl⟩
    | reload next =>
      obtain ⟨reloaded, raised⟩ := reloadConfig_spec built next
      obtain ⟨later, replies⟩ := ih reloaded disk
      dsimp only [orchestrate, orchestratorCall, rebuilt]
      obtain ⟨files, answers⟩ := Prod.ext_iff.mp replies
      rw [files, answers, raised]
      exact ⟨later, rfl⟩

/-- A reload of a file that is not there, between two ticks. -/
theorem orchestrate_eq_rebuilt_chain :
    let calls : List OrchestratorCall := [.call (.tick 0), .reload none, .call (.tick 1), .reload (some chainDoc)]
    (SafetyPreflight.chainCoherence.orchestrate SafetyPreflight.declarationOrder (fun _ => none) "state"
        (fun _ => .missing) calls).2 =
      (rebuilt SafetyPreflight.declarationOrder (fun _ => none) "state" "state/world_snapshot.json" (some chainDoc)
        (fun _ => .missing) calls).2 :=
  (orchestrate_eq_rebuilt (fun _ => none) "state" SafetyPreflight.init_chainCoherence (fun _ => .missing) _).2

end CoherenceGraph

end Centroid
