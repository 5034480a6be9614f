import Centroid.Coherence.SnapshotTick
import Centroid.SelfModel.Registration

namespace Centroid

/-- Which of the two writes of a snapshot raises, if one does. -/
inductive SnapshotFault where
  | none
  | snapshot
  | trends
  deriving DecidableEq

/-- `write`: the files that it leaves, also where it raises. -/
def SnapshotWriter.writeUnder (fault : SnapshotFault) (stateDir : String) (snapshot : RawSnapshot) (disk : Disk ℚ) :
    Disk ℚ :=
  match fault with
  | .none => writeRaw stateDir snapshot disk
  | .snapshot => disk
  | .trends => disk.write (snapshotPath stateDir) snapshot.asDict false

/-- Which appends of one tick to the memory store raise, and which write. -/
structure TickFaults where
  append : ℕ → Bool
  write : SnapshotFault

/-- What a tick leaves: the model and the files, the snapshot that has reached
its file and the one that is returned. -/
structure TickOutcome where
  model : SelfModel
  disk : Disk ℚ
  written : Option WorldSnapshot
  returned : Option WorldSnapshot

namespace SelfModel

section

variable (stdev : List ℚ → ℚ) (fails : ℕ → Bool) (now : ℚ)

/-- The loop over the anomalies of one source, with the number of appends
before it; and whether an append has raised. An anomaly is counted before it is
appended. -/
def appendUnder : List AnomalyEvent → SelfModel → ℕ → SelfModel × ℕ × Bool
  | [], self, n => (self, n, false)
  | ae :: rest, self, n =>
    match self.memoryStore with
    | none => (self, n, false)
    | some events =>
      let counted := { self with anomalyCount := self.anomalyCount + 1 }
      if fails n then (counted, n + 1, true)
      else appendUnder rest { counted with memoryStore := some (events ++ [ae]) } (n + 1)

/-- The loop of `tick` over the collected telemetry, up to the append that
raises. -/
def tickLoop : List (String × Dict String ℚ) → TickState → ℕ → TickState × Bool
  | [], state, _ => (state, false)
  | entry :: rest, state, n =>
    let (scorer, health) := state.model.healthScorer.update entry.1 entry.2 now
    let (detector, anomalies) := state.model.anomalyDetector.update stdev entry.1 entry.2 now
    let (model, n, raised) :=
      appendUnder fails anomalies { state.model with healthScorer := scorer, anomalyDetector := detector } n
    let state : TickState :=
      ⟨model, state.nodeHealthScores.set entry.1 health.score, state.nodeTrends.set entry.1 health.trend⟩
    if raised then (state, true) else tickLoop rest state n

end

/-- `tick`, where appends and writes may raise. -/
def tickUnder (stdev : List ℚ → ℚ) (faults : TickFaults) (self : SelfModel) (read : String → Reading) (disk : Disk ℚ)
    (now : ℚ) : TickOutcome :=
  match tickLoop stdev faults.append now (self.aggregator.collect read).entries ⟨self, ∅, ∅⟩ 0 with
  | (state, true) => ⟨state.model, disk, none, none⟩
  | (state, false) =>
    let snapshot : WorldSnapshot :=
      { timestamp := now
        nodeHealth := state.nodeHealthScores
        nodeTrends := state.nodeTrends
        systemHealthRatio := Rounding.roundTo 4 state.model.healthScorer.systemHealthRatio
        anomalyCount := state.model.anomalyCount
        coherenceIndex := none }
    { model := state.model
      disk := SnapshotWriter.writeUnder faults.write self.stateDir (CoherenceGraph.rawOf snapshot) disk
      written := if faults.write = .snapshot then none else some snapshot
      returned := if faults.write = .none then some snapshot else none }

theorem appendUnder_of_never {fails : ℕ → Bool} (never : ∀ n, fails n = false) (anomalies : List AnomalyEvent)
    (self : SelfModel) (n : ℕ) :
    ∃ m, appendUnder fails anomalies self n = (self.appendAnomalies anomalies, m, false) := by
  induction anomalies generalizing self n with
  | nil =>
    refine ⟨n, ?_⟩
    rw [appendUnder, appendAnomalies]
    split
    · rfl
    · rename_i events stored
      rw [List.append_nil, List.length_nil, Nat.add_zero, ← stored]
  | cons ae rest ih =>
    cases stored : self.memoryStore with
    | none =>
      refine ⟨n, ?_⟩
      simp only [appendUnder, appendAnomalies, stored]
    | some events =>
      obtain ⟨m, more⟩ := ih { self with anomalyCount := self.anomalyCount + 1, memoryStore := some (events ++ [ae]) }
        (n + 1)
      refine ⟨m, ?_⟩
      simp only [appendUnder, appendAnomalies, stored, never n, Bool.false_eq_true, if_false] at more ⊢
      rw [more, List.length_cons, List.append_assoc, List.singleton_append, Nat.add_assoc, Nat.add_comm 1]

theorem tickLoop_of_never {fails : ℕ → Bool} (never : ∀ n, fails n = false) (stdev : List ℚ → ℚ) (now : ℚ)
    (entries : List (String × Dict String ℚ)) (state : TickState) (n : ℕ) :
    tickLoop stdev fails now entries state n = (entries.foldl (tickSource stdev now) state, false) := by
  induction entries generalizing state n with
  | nil => rfl
  | cons entry rest ih =>
    obtain ⟨m, appended⟩ := appendUnder_of_never never
      (state.model.anomalyDetector.update stdev entry.1 entry.2 now).2
      { state.model with
        healthScorer := (state.model.healthScorer.update entry.1 entry.2 now).1
        anomalyDetector := (state.model.anomalyDetector.update stdev entry.1 entry.2 now).1 } n
    rw [tickLoop]
    simp only [appended, Bool.false_eq_true, if_false]
    exact ih _ m

/-- Where nothing raises this is the tick as it stands. -/
theorem tickUnder_of_never (stdev : List ℚ → ℚ) {faults : TickFaults} (never : ∀ n, faults.append n = false)
    (writes : faults.write = .none) (self : SelfModel) (read : String → Reading) (disk : Disk ℚ) (now : ℚ) :
    tickUnder stdev faults self read disk now =
      let (model, disk, snapshot) := self.tick stdev read disk now
      ⟨model, disk, some snapshot, some snapshot⟩ := by
  rw [tickUnder, tickLoop_of_never never]
  simp only [writes, SnapshotWriter.writeUnder]
  rfl

theorem appendUnder_stateDir (fails : ℕ → Bool) (anomalies : List AnomalyEvent) (self : SelfModel) (n : ℕ) :
    (appendUnder fails anomalies self n).1.stateDir = self.stateDir := by
  induction anomalies generalizing self n with
  | nil => rfl
  | cons ae rest ih =>
    rw [appendUnder]
    split
    · rfl
    · split
      · rfl
      · exact ih _ _

theorem tickLoop_stateDir (stdev : List ℚ → ℚ) (fails : ℕ → Bool) (now : ℚ) (entries : List (String × Dict String ℚ))
    (state : TickState) (n : ℕ) : (tickLoop stdev fails now entries state n).1.model.stateDir = state.model.stateDir := by
  induction entries generalizing state n with
  | nil => rfl
  | cons entry rest ih =>
    rw [tickLoop]
    dsimp only
    split
    · exact appendUnder_stateDir fails _ _ _
    · exact (ih _ _).trans (appendUnder_stateDir fails _ _ _)

/-- What a tick can leave: nothing on file and nothing returned, or a snapshot
on file, which is returned unless the write of the trends raises. -/
theorem tickUnder_cases (stdev : List ℚ → ℚ) (faults : TickFaults) (self : SelfModel) (read : String → Reading)
    (disk : Disk ℚ) (now : ℚ) :
    (tickUnder stdev faults self read disk now).model.stateDir = self.stateDir ∧
    (((tickUnder stdev faults self read disk now).disk = disk ∧
        (tickUnder stdev faults self read disk now).written = none ∧
        (tickUnder stdev faults self read disk now).returned = none) ∨
      ∃ snapshot fault, (tickUnder stdev faults self read disk now).written = some snapshot ∧ fault ≠ .snapshot ∧
        snapshot.coherenceIndex = none ∧
        (tickUnder stdev faults self read disk now).disk =
          SnapshotWriter.writeUnder fault self.stateDir (CoherenceGraph.rawOf snapshot) disk ∧
        ∀ other, (tickUnder stdev faults self read disk now).returned = some other → other = snapshot) := by
  have dir := tickLoop_stateDir stdev faults.append now (self.aggregator.collect read).entries ⟨self, ∅, ∅⟩ 0
  rw [tickUnder]
  split
  · rename_i state raised
    rw [raised] at dir
    exact ⟨dir, Or.inl ⟨rfl, rfl, rfl⟩⟩
  · rename_i state done
    rw [done] at dir
    refine ⟨dir, ?_⟩
    by_cases lost : faults.write = .snapshot
    · left
      simp [lost, SnapshotWriter.writeUnder]
    · right
      dsimp only
      rw [if_neg lost]
      refine ⟨_, faults.write, rfl, lost, rfl, rfl, fun other returned => ?_⟩
      split at returned
      · exact (Option.some.inj returned).symm
      · cases returned

end SelfModel

end Centroid
