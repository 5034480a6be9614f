import Centroid.SelfModel.Model

namespace Centroid

open Rounding

/-- The mean of some scores, zero where there are none. -/
def meanScore (scores : List ℚ) : ℚ := if scores = [] then 0 else scores.sum / scores.length

/-- Further scores leave the mean alone when their own mean is the same. -/
theorem meanScore_append_eq_iff (current behind : List ℚ) :
    meanScore (current ++ behind) = meanScore current ↔ behind = [] ∨ meanScore behind = meanScore current := by
  by_cases none : behind = []
  · simp [none]
  by_cases empty : current = []
  · simp [none, empty]
  have some : current ++ behind ≠ [] := by simp [empty]
  have positive : (0 : ℚ) < current.length := by
    exact_mod_cast List.length_pos_of_ne_nil empty
  have behindPositive : (0 : ℚ) < behind.length := by
    exact_mod_cast List.length_pos_of_ne_nil none
  simp only [meanScore, none, empty, some, if_false, false_or, List.sum_append, List.length_append, Nat.cast_add]
  rw [div_eq_div_iff (by linarith) (by linarith), div_eq_div_iff (by linarith) (by linarith)]
  constructor <;> intro same <;> linarith

/-- A call on a self-model; the readings of a tick are those of its moment. -/
inductive ModelCall where
  | register (source : TelemetrySource)
  | unregister (sourceId : String)
  | tick (read : String → Reading) (now : ℚ)

namespace SelfModel

/-- `SelfModel(...)`, with the constants of the components it creates. -/
def init (memoryStore : Option (List AnomalyEvent)) (stateDir : String) (warnThreshold criticalThreshold : ℚ)
    (trendWindow : ℕ) : SelfModel where
  memoryStore := memoryStore
  stateDir := stateDir
  aggregator := ⟨∅⟩
  healthScorer := ⟨20, trendWindow, ∅, ∅⟩
  anomalyDetector := ⟨warnThreshold, criticalThreshold, 5, 20, ∅⟩
  anomalyCount := 0

def registerSource (self : SelfModel) (source : TelemetrySource) : SelfModel :=
  { self with aggregator := self.aggregator.register source }

def unregisterSource (self : SelfModel) (sourceId : String) : SelfModel :=
  { self with aggregator := self.aggregator.unregister sourceId }

def healthRatio (self : SelfModel) : ℚ := self.healthScorer.systemHealthRatio

section

variable (stdev : List ℚ → ℚ)

/-- One call, on the model and its files. -/
def call (state : SelfModel × Disk ℚ) : ModelCall → SelfModel × Disk ℚ
  | .register source => (state.1.registerSource source, state.2)
  | .unregister sourceId => (state.1.unregisterSource sourceId, state.2)
  | .tick read now =>
    let (model, disk, _) := state.1.tick stdev read state.2 now
    (model, disk)

def calls (state : SelfModel × Disk ℚ) (history : List ModelCall) : SelfModel × Disk ℚ :=
  history.foldl (call stdev) state

end

end SelfModel

/-- What a history of calls says of the sources: which are registered, and
how each source read when it was last read. -/
structure SourceLedger where
  registered : List String
  lastScores : Dict String ℚ

namespace SourceLedger

/-- Whether a source is registered does not change where it stands. -/
def record (ledger : SourceLedger) : ModelCall → SourceLedger
  | .register source =>
    { ledger with
      registered := if source.sourceId ∈ ledger.registered then ledger.registered
        else ledger.registered ++ [source.sourceId] }
  | .unregister sourceId => { ledger with registered := ledger.registered.filter (· ≠ sourceId) }
  | .tick read _ =>
    { ledger with
      lastScores := ledger.registered.foldl (fun scores id => scores.set id (SelfModel.readingScore (read id)))
        ledger.lastScores }

def ofHistory (history : List ModelCall) : SourceLedger := history.foldl record ⟨[], ∅⟩

/-- The last scores of the sources that have been read and are registered no
more. -/
def leftBehind (ledger : SourceLedger) : List ℚ :=
  (ledger.lastScores.entries.filter fun entry => entry.1 ∉ ledger.registered).map Prod.snd

end SourceLedger

namespace SelfModel

/-- A model that has gone through the calls of a ledger. -/
structure Tracks (model : SelfModel) (ledger : SourceLedger) : Prop where
  registered : model.aggregator.sourceIds = ledger.registered
  scores : knownScores model.healthScorer = ledger.lastScores

theorem keys_erase (sources : Dict String TelemetrySource) (id : String) :
    (sources.erase id).keys = sources.keys.filter (· ≠ id) := by
  simp only [Dict.keys, Dict.erase, Assoc.erase, List.filter_map]
  rfl

section Tick

variable (stdev : List ℚ → ℚ)

theorem appendAnomalies_aggregator (self : SelfModel) (anomalies : List AnomalyEvent) :
    (self.appendAnomalies anomalies).aggregator = self.aggregator := by
  unfold appendAnomalies
  split <;> rfl

theorem foldl_tickSource_aggregator (now : ℚ) (entries : List (String × Dict String ℚ)) (state : TickState) :
    (entries.foldl (tickSource stdev now) state).model.aggregator = state.model.aggregator := by
  induction entries generalizing state with
  | nil => rfl
  | cons entry entries ih =>
    rw [List.foldl_cons, ih, tickSource, appendAnomalies_aggregator]

/-- A tick scores the registered sources, in the snapshot and in what the
scorer remembers. -/
theorem tick_spec (self : SelfModel) (read : String → Reading) (disk : Disk ℚ) (now : ℚ) :
    let result := self.tick stdev read disk now
    result.1.aggregator = self.aggregator ∧
      result.2.2.nodeHealth =
        self.aggregator.sourceIds.foldl (fun scores id => scores.set id (readingScore (read id))) ∅ ∧
      knownScores result.1.healthScorer =
        self.aggregator.sourceIds.foldl (fun scores id => scores.set id (readingScore (read id)))
          (knownScores self.healthScorer) ∧
      result.2.2.systemHealthRatio = roundTo 4 result.1.healthRatio := by
  obtain ⟨scores, known⟩ := foldl_tickSource stdev read now self.aggregator.sourceIds ⟨self, ∅, ∅⟩
  rw [← entries_collect] at scores known
  exact ⟨foldl_tickSource_aggregator stdev now _ _, scores, known, rfl⟩

theorem Tracks.call {state : SelfModel × Disk ℚ} {ledger : SourceLedger} (tracks : state.1.Tracks ledger)
    (next : ModelCall) : (SelfModel.call stdev state next).1.Tracks (ledger.record next) := by
  obtain ⟨registered, scores⟩ := tracks
  cases next with
  | register source =>
    refine ⟨?_, scores⟩
    have keys := state.1.aggregator.sources.keys_set source.sourceId source
    rw [TelemetryAggregator.sourceIds] at registered
    rw [registered] at keys
    exact keys
  | unregister sourceId =>
    refine ⟨?_, scores⟩
    have keys := keys_erase state.1.aggregator.sources sourceId
    rw [TelemetryAggregator.sourceIds] at registered
    rw [registered] at keys
    exact keys
  | tick read now =>
    obtain ⟨aggregator, -, known, -⟩ := tick_spec stdev state.1 read state.2 now
    rw [registered, scores] at known
    exact ⟨(congrArg TelemetryAggregator.sourceIds aggregator).trans registered, known⟩

theorem tracks_calls (history : List ModelCall) (state : SelfModel × Disk ℚ) {ledger : SourceLedger}
    (tracks : state.1.Tracks ledger) : (calls stdev state history).1.Tracks (history.foldl SourceLedger.record ledger) := by
  induction history generalizing state ledger with
  | nil => exact tracks
  | cons next history ih => exact ih _ (tracks.call stdev next)

end Tick

theorem meanScore_perm {scores other : List ℚ} (perm : scores.Perm other) : meanScore scores = meanScore other := by
  have empty : scores = [] ↔ other = [] := by
    rw [← List.length_eq_zero_iff, ← List.length_eq_zero_iff, perm.length_eq]
  simp only [meanScore, empty, perm.sum_eq, perm.length_eq]

theorem healthRatio_eq (self : SelfModel) : self.healthRatio = meanScore (knownScores self.healthScorer).values :=
  systemHealthRatio_eq self.healthScorer

/-- What a tick promises: its snapshot scores the registered sources, and the
two ratios are the mean of these scores. -/
def TickAgrees (self : SelfModel) (read : String → Reading) (result : SelfModel × Disk ℚ × WorldSnapshot) : Prop :=
  (∀ id score, result.2.2.nodeHealth.get? id = some score ↔
    id ∈ self.aggregator.sourceIds ∧ score = readingScore (read id)) ∧
  result.2.2.systemHealthRatio = roundTo 4 (meanScore result.2.2.nodeHealth.values) ∧
  result.1.healthRatio = meanScore result.2.2.nodeHealth.values

/-- The ratios of a tick are those of the registered sources when the scores
of the others do not change the mean. -/
theorem tick_agrees_iff (stdev : List ℚ → ℚ) {self : SelfModel} {ledger : SourceLedger} (tracks : self.Tracks ledger)
    (read : String → Reading) (disk : Disk ℚ) (now : ℚ) :
    self.TickAgrees read (self.tick stdev read disk now) ↔
      (ledger.record (.tick read now)).leftBehind = [] ∨
        meanScore (ledger.record (.tick read now)).leftBehind =
          meanScore (ledger.registered.map fun id => readingScore (read id)) := by
  obtain ⟨-, nodeHealth, known, ratio⟩ := tick_spec stdev self read disk now
  obtain ⟨registered, scores⟩ := tracks
  have distinct : ledger.registered.Nodup := registered ▸ self.aggregator.sources.distinct
  rw [registered] at nodeHealth known
  rw [scores] at known
  have inSnapshot (id : String) := Dict.get?_foldl_set ledger.registered (fun id => readingScore (read id)) ∅ id
  have inScorer (id : String) := Dict.get?_foldl_set ledger.registered (fun id => readingScore (read id))
    ledger.lastScores id
  rw [← nodeHealth] at inSnapshot
  rw [← known] at inScorer
  have snapshotMean : meanScore (self.tick stdev read disk now).2.2.nodeHealth.values =
      meanScore (ledger.registered.map fun id => readingScore (read id)) := by
    have perm := (self.tick stdev read disk now).2.2.nodeHealth.values_perm distinct fun id listed => by
      rw [inSnapshot, if_pos listed]
    have others : ((self.tick stdev read disk now).2.2.nodeHealth.entries.filter
        fun entry => entry.1 ∉ ledger.registered) = [] := by
      refine List.filter_eq_nil_iff.mpr fun entry member => ?_
      have stored := ((self.tick stdev read disk now).2.2.nodeHealth.mem_entries_iff entry.1 entry.2).mp member
      rw [inSnapshot] at stored
      by_contra outside
      rw [if_neg (of_decide_eq_true outside)] at stored
      cases stored
    rw [others, List.map_nil, List.append_nil] at perm
    exact meanScore_perm perm
  have scorerMean : (self.tick stdev read disk now).1.healthRatio =
      meanScore ((ledger.registered.map fun id => readingScore (read id)) ++
        (ledger.record (.tick read now)).leftBehind) := by
    have perm := (knownScores (self.tick stdev read disk now).1.healthScorer).values_perm distinct fun id listed => by
      rw [inScorer, if_pos listed]
    rw [healthRatio_eq, meanScore_perm perm, known]
    rfl
  rw [TickAgrees, ratio, snapshotMean, scorerMean, ← meanScore_append_eq_iff]
  constructor
  · rintro ⟨-, -, same⟩
    exact same
  · intro same
    refine ⟨fun id score => ?_, by rw [same], same⟩
    rw [inSnapshot, registered]
    by_cases listed : id ∈ ledger.registered
    · rw [if_pos listed, Option.some.injEq]
      exact ⟨fun here => ⟨listed, here.symm⟩, fun here => here.2.symm⟩
    · rw [if_neg listed]
      simp [listed]

theorem tracks_init (memoryStore : Option (List AnomalyEvent)) (stateDir : String) (warnThreshold criticalThreshold : ℚ)
    (trendWindow : ℕ) : (init memoryStore stateDir warnThreshold criticalThreshold trendWindow).Tracks ⟨[], ∅⟩ :=
  ⟨rfl, rfl⟩

/-- Throughout a history of registrations, removals and ticks the ratios are
those of the registered sources, exactly where at each tick no scored source
has been left behind or those left behind have the mean of the registered
ones. -/
theorem calls_agree_iff (stdev : List ℚ → ℚ) (memoryStore : Option (List AnomalyEvent)) (stateDir : String)
    (warnThreshold criticalThreshold : ℚ) (trendWindow : ℕ) (disk : Disk ℚ) (history : List ModelCall) :
    (∀ before read now, before ++ [.tick read now] <+: history →
      let state := calls stdev (init memoryStore stateDir warnThreshold criticalThreshold trendWindow, disk) before
      state.1.TickAgrees read (state.1.tick stdev read state.2 now)) ↔
    ∀ before read now, before ++ [.tick read now] <+: history →
      let ledger := SourceLedger.ofHistory before
      (ledger.record (.tick read now)).leftBehind = [] ∨
        meanScore (ledger.record (.tick read now)).leftBehind =
          meanScore (ledger.registered.map fun id => readingScore (read id)) := by
  have each (before : List ModelCall) (read : String → Reading) (now : ℚ) :=
    let start := tracks_init memoryStore stateDir warnThreshold criticalThreshold trendWindow
    tick_agrees_iff stdev (tracks_calls stdev before (_, disk) start) read
      (calls stdev (init memoryStore stateDir warnThreshold criticalThreshold trendWindow, disk) before).2 now
  constructor
  · intro agrees before read now within
    exact (each before read now).mp (agrees before read now within)
  · intro even before read now within
    exact (each before read now).mpr (even before read now within)

/-- What the sources read in the first tick, and in the second. -/
def gpuDown : String → Reading
  | "gpu" => .metrics (Dict.empty.set "load" 0)
  | _ => .metrics (Dict.empty.set "load" 1)

/-- Two sources are read, the worse of which is then removed. -/
def removedSource : List ModelCall := [.register ⟨"gpu"⟩, .register ⟨"cpu"⟩, .tick gpuDown 0, .unregister "gpu"]

/-- The removed source still halves both ratios of the next tick. -/
theorem removed_source_counts : ¬
    ∀ before read now, before ++ [.tick read now] <+: removedSource ++ [.tick gpuDown 1] →
      let state := calls (fun _ => 0) (init none "state" 2 (7 / 2) 5, fun _ => .missing) before
      state.1.TickAgrees read (state.1.tick (fun _ => 0) read state.2 now) := by
  intro agrees
  obtain ⟨-, ratio, -⟩ := agrees removedSource gpuDown 1 (List.prefix_refl _)
  revert ratio
  decide +kernel

end SelfModel

end Centroid
