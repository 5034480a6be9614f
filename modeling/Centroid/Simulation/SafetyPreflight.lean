import Centroid.Coherence.CoherenceGraph
import Centroid.Simulation.Divergence
import Centroid.Simulation.Intervention

namespace Centroid

/-- A decision of the safety policy. -/
inductive Decision where
  | allow
  | hold
  | deny
  deriving DecidableEq

/-- How permissive a decision is. -/
def Decision.rank : Decision → ℕ
  | .deny => 0
  | .hold => 1
  | .allow => 2

/-- The texts that explain a verdict, with what they quote. -/
inductive PreflightReason where
  | escalated (divergence threshold : ℚ)
  | notDowngrading (divergence threshold : ℚ) (originalDecision : Decision)
  | within (divergence threshold : ℚ) (decision : Decision)

structure PreflightVerdict where
  forkId : String
  actionType : String
  divergence : ℚ
  threshold : ℚ
  escalated : Bool
  originalDecision : Decision
  finalDecision : Decision
  reason : PreflightReason

structure SafetyPreflight where
  twinBuffer : TwinBuffer
  calculator : DivergenceCalculator
  coherenceGraph : Option CoherenceGraph
  threshold : ℚ
  simulationCycles : ℕ

/-- What a preflight can raise. -/
inductive SimulationError where
  | snapshot (error : SnapshotError)
  | keyError (error : KeyPathError)

/-- What is left after a preflight: the files, the preflight with its shared
buffer and calculator, and what the call returns or raises. -/
structure Evaluation where
  disk : Disk ℚ
  preflight : SafetyPreflight
  outcome : Except SimulationError PreflightVerdict

/-- Sampling over the given number of cycles. The file is read afresh in each. -/
def sampleCycles (twinBuffer : TwinBuffer) (disk : Disk ℚ) (twin : TwinState) :
    ℕ → ℕ → DivergenceCalculator → DivergenceCalculator × Except SnapshotError Unit
  | 0, _, calculator => (calculator, .ok ())
  | left + 1, i, calculator =>
    match twinBuffer.actualSnapshot disk with
    | .error e => (calculator, .error e)
    | .ok actual => sampleCycles twinBuffer disk twin left (i + 1) (calculator.sample twin.forkId actual twin.snapshot i).1

/-- A dictionary of scores as plain data. -/
def scoresValue (nodeScores : Dict (Key ℚ) ℚ) : Value ℚ :=
  .dict (nodeScores.entries.map fun entry => (entry.1, .num entry.2))

namespace SafetyPreflight

section

variable (floatOfText : String → Option ℚ)

/-- The step through the coherence graph. The first component of the target
stands for the node; a simulation that raises leaves the twin as it is. -/
def propagateTwin (graph : CoherenceGraph) (disk : Disk ℚ) (intervention : Intervention) (now : ℚ)
    (twin : TwinState) : TwinState :=
  let topKey := (splitDots intervention.targetField).headD ""
  let doInt : DoIntervention (Key ℚ) := ⟨.str topKey, intervention.proposedValue.num?.getD 0⟩
  match graph.simulate floatOfText disk doInt now with
  | none => twin
  | some (report, _) =>
    let snapshot := Assoc.set twin.snapshot (.str "node_health") (scoresValue report.nodeScores)
    { twin with snapshot := Assoc.set snapshot (.str "coherence_index") (.num report.coherenceIndex) }

/-- The first three steps of `evaluate`: the twin that is compared with the
actual state. -/
def simulatedTwin (self : SafetyPreflight) (disk : Disk ℚ) (intervention : Intervention) (forkId : String) (now : ℚ) :
    Except SimulationError TwinState :=
  match self.twinBuffer.fork disk forkId now with
  | .error e => .error (.snapshot e)
  | .ok twin =>
    match InterventionApplicator.apply twin intervention now with
    | (_, .error e) => .error (.keyError e)
    | (twin, .ok _) =>
      match self.coherenceGraph with
      | none => .ok twin
      | some graph => .ok (propagateTwin floatOfText graph disk intervention now twin)

/-- The escalation logic and the verdict. -/
def verdict (self : SafetyPreflight) (forkId actionType : String) (divergence : ℚ) (originalDecision : Decision) :
    PreflightVerdict :=
  if divergence > self.threshold ∧ originalDecision = .allow then
    ⟨forkId, actionType, divergence, self.threshold, true, originalDecision, .hold, .escalated divergence self.threshold⟩
  else if divergence > self.threshold then
    ⟨forkId, actionType, divergence, self.threshold, false, originalDecision, originalDecision,
      .notDowngrading divergence self.threshold originalDecision⟩
  else
    ⟨forkId, actionType, divergence, self.threshold, false, originalDecision, originalDecision,
      .within divergence self.threshold originalDecision⟩

/-- `evaluate`, with the identifier that the fork draws and the time it is at. -/
def evaluate (self : SafetyPreflight) (disk : Disk ℚ) (intervention : Intervention) (originalDecision : Decision)
    (forkId : String) (now : ℚ) : Evaluation :=
  match self.simulatedTwin floatOfText disk intervention forkId now with
  | .error e => ⟨disk, self, .error e⟩
  | .ok twin =>
    match sampleCycles self.twinBuffer disk twin self.simulationCycles 0 self.calculator with
    | (calculator, .error e) => ⟨disk, { self with calculator }, .error (.snapshot e)⟩
    | (calculator, .ok ()) =>
      let divergence := (calculator.compute twin.forkId).weightedDivergence
      let preflight := { self with calculator := calculator.clear twin.forkId, twinBuffer := self.twinBuffer.tick }
      ⟨disk, preflight, .ok (self.verdict twin.forkId intervention.actionType divergence originalDecision)⟩

end

variable {self : SafetyPreflight} {disk : Disk ℚ} {snapshot : List (Key ℚ × Value ℚ)}

/-- Sampling a file that holds an object never fails, and touches the samples
of the twin's own fork only. -/
theorem sampleCycles_frame {twinBuffer : TwinBuffer} (atPath : disk twinBuffer.path = .object snapshot)
    (twin : TwinState) (left i : ℕ) (calculator : DivergenceCalculator) :
    ∃ calculator', sampleCycles twinBuffer disk twin left i calculator = (calculator', .ok ()) ∧
      calculator'.lambda_ = calculator.lambda_ ∧ calculator'.maxSamples = calculator.maxSamples ∧
      ∀ other, other ≠ twin.forkId → calculator'.samples.get? other = calculator.samples.get? other := by
  induction left generalizing i calculator with
  | zero => exact ⟨calculator, rfl, rfl, rfl, fun _ _ => rfl⟩
  | succ left ih =>
    have readable : twinBuffer.actualSnapshot disk = .ok snapshot := by simp only [TwinBuffer.actualSnapshot, atPath]
    obtain ⟨calculator', run, sameLambda, sameMax, frame⟩ :=
      ih (i + 1) (calculator.sample twin.forkId snapshot twin.snapshot i).1
    refine ⟨calculator', by simpa only [sampleCycles, readable] using run, sameLambda, sameMax, ?_⟩
    intro other ne
    rw [frame other ne]
    exact Dict.get?_set_of_ne _ _ (Ne.symm ne)

/-- The twin exists exactly when the target does. It is the changed copy, sent
through the coherence graph where there is one. -/
theorem simulatedTwin_cases (floatOfText : String → Option ℚ) (atPath : disk self.twinBuffer.path = .object snapshot)
    (intervention : Intervention) (forkId : String) (now : ℚ) :
    (∃ e, valueAt snapshot (splitDots intervention.targetField) = none ∧
      self.simulatedTwin floatOfText disk intervention forkId now = .error (.keyError e)) ∨
    ∃ v changed, valueAt snapshot (splitDots intervention.targetField) = some v ∧ changed.forkId = forkId ∧
      (self.coherenceGraph = none → self.simulatedTwin floatOfText disk intervention forkId now = .ok changed) ∧
      ∀ graph, self.coherenceGraph = some graph → self.simulatedTwin floatOfText disk intervention forkId now =
        .ok (propagateTwin floatOfText graph disk intervention now changed) := by
  have forked : self.twinBuffer.fork disk forkId now = .ok ⟨snapshot, now, forkId, self.twinBuffer.cycle⟩ := by
    simp only [TwinBuffer.fork, atPath]
  rcases InterventionApplicator.apply_cases ⟨snapshot, now, forkId, self.twinBuffer.cycle⟩ intervention now with
    ⟨e, absent, failed⟩ | ⟨v, part, rest, new, result, parts, found, applied, _⟩
  · exact Or.inl ⟨e, absent, by simp only [simulatedTwin, forked, failed]⟩
  · refine Or.inr ⟨v, { (⟨snapshot, now, forkId, self.twinBuffer.cycle⟩ : TwinState) with
      snapshot := Assoc.set snapshot (.str part) new }, parts ▸ found, rfl, fun noGraph => ?_, fun graph wired => ?_⟩
    · simp only [simulatedTwin, forked, applied, noGraph]
    · simp only [simulatedTwin, forked, applied, wired]

/-- A preflight that gets past its twin ends with a verdict on the divergence
of the samples, its own samples cleared and the counter one further. -/
theorem evaluate_of_twin {floatOfText : String → Option ℚ} (atPath : disk self.twinBuffer.path = .object snapshot)
    {intervention : Intervention} {forkId : String} {now : ℚ} {twin : TwinState}
    (simulated : self.simulatedTwin floatOfText disk intervention forkId now = .ok twin)
    (originalDecision : Decision) :
    ∃ calculator,
      sampleCycles self.twinBuffer disk twin self.simulationCycles 0 self.calculator = (calculator, .ok ()) ∧
      (∀ other, other ≠ twin.forkId → calculator.samples.get? other = self.calculator.samples.get? other) ∧
      self.evaluate floatOfText disk intervention originalDecision forkId now =
        ⟨disk, { self with calculator := calculator.clear twin.forkId, twinBuffer := self.twinBuffer.tick },
          .ok (self.verdict twin.forkId intervention.actionType (calculator.compute twin.forkId).weightedDivergence
            originalDecision)⟩ := by
  obtain ⟨calculator, run, _, _, frame⟩ := sampleCycles_frame atPath twin self.simulationCycles 0 self.calculator
  exact ⟨calculator, run, frame, by simp only [evaluate, simulated, run]⟩

/-- What a verdict says of the decision it started from. -/
theorem verdict_decision (forkId actionType : String) (divergence : ℚ) (originalDecision : Decision) :
    let verdict := self.verdict forkId actionType divergence originalDecision
    verdict.forkId = forkId ∧ verdict.divergence = divergence ∧ verdict.threshold = self.threshold ∧
    verdict.originalDecision = originalDecision ∧
    verdict.finalDecision = (if originalDecision = .allow ∧ self.threshold < divergence then .hold else originalDecision) ∧
    (verdict.escalated = true ↔ verdict.finalDecision ≠ originalDecision) := by
  unfold verdict
  by_cases above : divergence > self.threshold
  · by_cases allowed : originalDecision = .allow
    · subst allowed
      simp [above]
    · simp [above, allowed]
  · have below : ¬ self.threshold < divergence := above
    simp [below]

/-- A world with one nested score and one score at the top level. -/
def nestedWorld : List (Key ℚ × Value ℚ) :=
  [(.str "node_health", .dict [(.str "safety", .num (9 / 10))]), (.str "system_health_ratio", .num (9 / 10))]

/-- A preflight with the constructor's defaults on a file of its own. -/
def defaultPreflight : SafetyPreflight :=
  ⟨⟨"state/world_snapshot.json", 0⟩, ⟨9 / 10, 20, ∅⟩, none, 1 / 4, 3⟩

end SafetyPreflight

end Centroid
