import Centroid.SelfModel.Registration
import Centroid.SelfModel.ZScores

namespace Centroid

namespace AnomalyDetector

variable (stdev : List ℚ → ℚ)

/-- What a detector emits over some collected telemetry. -/
def emits (now : ℚ) (self : AnomalyDetector) : List (String × Dict String ℚ) → AnomalyDetector × List AnomalyEvent
  | [] => (self, [])
  | entry :: rest =>
    let (self, anomalies) := self.update stdev entry.1 entry.2 now
    let (self, more) := emits now self rest
    (self, anomalies ++ more)

/-- What some calls of a detector find. -/
def finds (self : AnomalyDetector) : List DetectorCall → List (ScoredEvent ℚ)
  | [] => []
  | c :: rest => (self.updateIn stdev c).2 ++ (self.updateIn stdev c).1.finds rest

theorem finds_append (self : AnomalyDetector) (calls more : List DetectorCall) :
    self.finds stdev (calls ++ more) = self.finds stdev calls ++ (self.afterCalls stdev calls).finds stdev more := by
  induction calls generalizing self with
  | nil => rfl
  | cons c calls ih =>
    rw [List.cons_append, finds, finds, ih, List.append_assoc]
    rfl

/-- No observation of the calls is anomalous in the window of its own pair. -/
def Quiet (self : AnomalyDetector) (calls : List DetectorCall) : Prop :=
  ∀ before c, before ++ [c] <+: calls → ∀ pair v, c.observation pair = some v →
    self.judge stdev ((DetectorCall.observations (before ++ [c]) pair).rtake self.window) v = none

variable (warnThreshold criticalThreshold : ℚ) (minSamples window : ℕ)

/-- A call finds nothing where it finds nothing for any pair. -/
theorem updateIn_eq_nil_iff (calls : List DetectorCall) (c : DetectorCall) :
    (((init warnThreshold criticalThreshold minSamples window).afterCalls stdev calls).updateIn stdev c).2 = [] ↔
      ∀ pair v, c.observation pair = some v → (init warnThreshold criticalThreshold minSamples window).judge stdev
        ((DetectorCall.observations (calls ++ [c]) pair).rtake window) v = none := by
  have byPair : (((init warnThreshold criticalThreshold minSamples window).afterCalls stdev calls).updateIn stdev c).2 = [] ↔
      ∀ pair, (init warnThreshold criticalThreshold minSamples window).found stdev calls c pair = [] := by
    constructor
    · intro none pair
      rw [found, none, List.filter_nil]
    · intro none
      refine List.eq_nil_iff_forall_not_mem.mpr fun e member => ?_
      have here := List.filter_eq_nil_iff.mp (none (e.sourceId, e.field)) e member
      simp at here
  rw [byPair]
  refine forall_congr' fun pair => ?_
  rw [found_eq, DetectorCall.observations_append_singleton]
  cases c.observation pair with
  | none => simp
  | some v =>
    have one : (some v).toList = [v] := rfl
    simp only [one, Option.some.injEq, forall_eq', ← judgeIn_rat, scored, Option.toList_eq_nil_iff,
      Option.map_eq_none_iff]

theorem finds_eq_nil_iff (calls : List DetectorCall) :
    (init warnThreshold criticalThreshold minSamples window).finds stdev calls = [] ↔
      (init warnThreshold criticalThreshold minSamples window).Quiet stdev calls := by
  induction calls using List.reverseRecOn with
  | nil =>
    refine ⟨fun _ before c within => ?_, fun _ => rfl⟩
    have none := List.prefix_nil.mp within
    simp at none
  | append_singleton calls c ih =>
    have last := updateIn_eq_nil_iff stdev warnThreshold criticalThreshold minSamples window calls c
    rw [finds_append, finds, finds, List.append_nil, List.append_eq_nil_iff, ih, last]
    constructor
    · rintro ⟨earlier, here⟩ before other within
      rcases List.prefix_concat_iff.mp within with same | shorter
      · obtain ⟨rfl, rfl⟩ := List.append_inj' same rfl |>.imp_right List.singleton_inj.mp
        exact here
      · exact earlier before other shorter
    · intro quiet
      refine ⟨fun before other within => quiet before other (within.trans (List.prefix_append _ _)), ?_⟩
      exact quiet calls c (List.prefix_refl _)

/-- The telemetry of one tick, as the detector sees it. -/
def callOf (entry : String × Dict String ℚ) : DetectorCall := ⟨entry.1, entry.2⟩

/-- The events come from what is found. -/
theorem emits_spec (now : ℚ) (self : AnomalyDetector) (collected : List (String × Dict String ℚ)) :
    (self.emits stdev now collected).1 = self.afterCalls stdev (collected.map callOf) ∧
      (self.emits stdev now collected).2 = (self.finds stdev (collected.map callOf)).map (·.event now) := by
  induction collected generalizing self with
  | nil => exact ⟨rfl, rfl⟩
  | cons entry rest ih =>
    obtain ⟨after, more⟩ := ih (self.updateIn stdev (callOf entry)).1
    have updated : self.update stdev entry.1 entry.2 now =
        ((self.updateIn stdev (callOf entry)).1, (self.updateIn stdev (callOf entry)).2.map (·.event now)) :=
      update_eq_updateIn stdev self (callOf entry) now
    rw [emits, updated]
    dsimp only
    rw [List.map_cons, finds, List.map_append, after, more]
    exact ⟨rfl, rfl⟩

end AnomalyDetector

/-- The same call at no particular time. -/
def ModelCall.untimed : ModelCall → ModelCall
  | .register source => .register source
  | .unregister sourceId => .unregister sourceId
  | .tick read _ => .tick read 0

/-- What the detector is told in a call. -/
def ModelCall.detectorCalls (registered : List String) : ModelCall → List DetectorCall
  | .tick read _ => registered.map fun id => ⟨id, (read id).collected⟩
  | .register _ | .unregister _ => []

/-- What the detector is told throughout some calls. -/
def SourceLedger.telemetry (ledger : SourceLedger) : List ModelCall → List DetectorCall
  | [] => []
  | call :: rest => call.detectorCalls ledger.registered ++ (ledger.record call).telemetry rest

namespace SelfModel

section

variable (stdev : List ℚ → ℚ)

/-- The events that the detector emits in one call. -/
def callEvents (self : SelfModel) : ModelCall → List AnomalyEvent
  | .tick read now => (self.anomalyDetector.emits stdev now (self.aggregator.collect read).entries).2
  | .register _ | .unregister _ => []

/-- The events that the detector has emitted after some calls. -/
def emitted (state : SelfModel × Disk ℚ) : List ModelCall → List AnomalyEvent
  | [] => []
  | next :: rest => state.1.callEvents stdev next ++ emitted (call stdev state next) rest

/-- With a memory store the events are counted, and without one they are not. -/
theorem foldl_tickSource_anomalies (now : ℚ) (collected : List (String × Dict String ℚ)) (state : TickState) :
    let after := (collected.foldl (tickSource stdev now) state).model
    let emits := state.model.anomalyDetector.emits stdev now collected
    after.anomalyDetector = emits.1 ∧ after.memoryStore.isSome = state.model.memoryStore.isSome ∧
      after.anomalyCount = state.model.anomalyCount + if state.model.memoryStore.isSome then emits.2.length else 0 := by
  induction collected generalizing state with
  | nil => exact ⟨rfl, rfl, by simp [AnomalyDetector.emits]⟩
  | cons entry rest ih =>
    obtain ⟨detector, store, count⟩ := ih (tickSource stdev now state entry)
    have step : (tickSource stdev now state entry).model.anomalyDetector =
        (state.model.anomalyDetector.update stdev entry.1 entry.2 now).1 ∧
        (tickSource stdev now state entry).model.memoryStore.isSome = state.model.memoryStore.isSome ∧
        (tickSource stdev now state entry).model.anomalyCount = state.model.anomalyCount +
          if state.model.memoryStore.isSome then
            (state.model.anomalyDetector.update stdev entry.1 entry.2 now).2.length else 0 := by
      rw [tickSource]
      dsimp only [appendAnomalies]
      cases state.model.memoryStore with
      | none => exact ⟨rfl, rfl, rfl⟩
      | some events => exact ⟨rfl, rfl, rfl⟩
    obtain ⟨stepDetector, stepStore, stepCount⟩ := step
    rw [stepDetector] at detector count
    rw [stepStore] at store count
    refine ⟨detector, store, count.trans ?_⟩
    rw [stepCount, AnomalyDetector.emits]
    dsimp only
    rw [List.length_append]
    split <;> omega

theorem anomalyCount_call (state : SelfModel × Disk ℚ) (next : ModelCall) :
    (call stdev state next).1.memoryStore.isSome = state.1.memoryStore.isSome ∧
      (call stdev state next).1.anomalyCount = state.1.anomalyCount +
        if state.1.memoryStore.isSome then (state.1.callEvents stdev next).length else 0 := by
  cases next with
  | register source => exact ⟨rfl, by simp [call, callEvents, registerSource]⟩
  | unregister sourceId => exact ⟨rfl, by simp [call, callEvents, unregisterSource]⟩
  | tick read now =>
    obtain ⟨-, store, count⟩ := foldl_tickSource_anomalies stdev now (state.1.aggregator.collect read).entries
      ⟨state.1, ∅, ∅⟩
    exact ⟨store, count⟩

/-- Throughout the calls the events are counted where there is a memory store. -/
theorem anomalyCount_calls (history : List ModelCall) (state : SelfModel × Disk ℚ) :
    (calls stdev state history).1.anomalyCount = state.1.anomalyCount +
      if state.1.memoryStore.isSome then (emitted stdev state history).length else 0 := by
  induction history generalizing state with
  | nil => simp [calls, emitted]
  | cons next rest ih =>
    obtain ⟨store, count⟩ := anomalyCount_call stdev state next
    have later := ih (call stdev state next)
    rw [store, count] at later
    refine later.trans ?_
    rw [emitted, List.length_append]
    split <;> omega

/-- What the sources tell in a call is what the detector sees. -/
theorem detector_call {state : SelfModel × Disk ℚ} {ledger : SourceLedger} (tracks : state.1.Tracks ledger)
    (next : ModelCall) :
    (call stdev state next).1.anomalyDetector =
        state.1.anomalyDetector.afterCalls stdev (next.detectorCalls ledger.registered) ∧
      (state.1.callEvents stdev next).length =
        (state.1.anomalyDetector.finds stdev (next.detectorCalls ledger.registered)).length := by
  cases next with
  | register source => exact ⟨rfl, rfl⟩
  | unregister sourceId => exact ⟨rfl, rfl⟩
  | tick read now =>
    have told : (state.1.aggregator.collect read).entries.map AnomalyDetector.callOf =
        (ModelCall.tick read now).detectorCalls ledger.registered := by
      rw [entries_collect, tracks.1, List.map_map]
      rfl
    obtain ⟨detector, -, -⟩ := foldl_tickSource_anomalies stdev now (state.1.aggregator.collect read).entries
      ⟨state.1, ∅, ∅⟩
    obtain ⟨after, events⟩ := state.1.anomalyDetector.emits_spec stdev now (state.1.aggregator.collect read).entries
    rw [told] at after events
    refine ⟨detector.trans after, ?_⟩
    rw [callEvents, events, List.length_map]

theorem length_emitted (history : List ModelCall) {state : SelfModel × Disk ℚ} {ledger : SourceLedger}
    (tracks : state.1.Tracks ledger) :
    (emitted stdev state history).length = (state.1.anomalyDetector.finds stdev (ledger.telemetry history)).length := by
  induction history generalizing state ledger with
  | nil => rfl
  | cons next rest ih =>
    obtain ⟨detector, events⟩ := detector_call stdev tracks next
    have later := ih (tracks.call stdev next)
    rw [detector] at later
    rw [emitted, SourceLedger.telemetry, AnomalyDetector.finds_append, List.length_append, List.length_append, events,
      later]

/-- The detector of a new model, which is told what some calls tell it, finds
nothing. -/
def QuietTelemetry (warnThreshold criticalThreshold : ℚ) (history : List ModelCall) : Prop :=
  (AnomalyDetector.init warnThreshold criticalThreshold 5 20).Quiet stdev (SourceLedger.telemetry ⟨[], ∅⟩ history)

theorem emitted_init_iff (memoryStore : Option (List AnomalyEvent)) (stateDir : String)
    (warnThreshold criticalThreshold : ℚ) (trendWindow : ℕ) (disk : Disk ℚ) (history : List ModelCall) :
    (emitted stdev (init memoryStore stateDir warnThreshold criticalThreshold trendWindow, disk) history).length = 0 ↔
      QuietTelemetry stdev warnThreshold criticalThreshold history := by
  have start := tracks_init memoryStore stateDir warnThreshold criticalThreshold trendWindow
  have same : (init memoryStore stateDir warnThreshold criticalThreshold trendWindow, disk).1.Tracks ⟨[], ∅⟩ := start
  rw [length_emitted stdev history same, List.length_eq_zero_iff]
  exact AnomalyDetector.finds_eq_nil_iff stdev warnThreshold criticalThreshold 5 20 _

end

/-- Two models whose snapshots can differ in their times and counts only. -/
structure Alike (a b : SelfModel) : Prop where
  aggregator : a.aggregator = b.aggregator
  window : a.healthScorer.window = b.healthScorer.window
  trendWindow : a.healthScorer.trendWindow = b.healthScorer.trendWindow
  scoreHistory : a.healthScorer.scoreHistory = b.healthScorer.scoreHistory
  scores : knownScores a.healthScorer = knownScores b.healthScorer

section

variable (stdev : List ℚ → ℚ)

theorem Alike.foldl_tickSource (now now' : ℚ) (collected : List (String × Dict String ℚ)) {state state' : TickState}
    (alike : state.model.Alike state'.model) (scores : state.nodeHealthScores = state'.nodeHealthScores)
    (trends : state.nodeTrends = state'.nodeTrends) :
    let after := collected.foldl (tickSource stdev now) state
    let after' := collected.foldl (tickSource stdev now') state'
    after.model.Alike after'.model ∧ after.nodeHealthScores = after'.nodeHealthScores ∧
      after.nodeTrends = after'.nodeTrends := by
  induction collected generalizing state state' with
  | nil => exact ⟨alike, scores, trends⟩
  | cons entry rest ih =>
    obtain ⟨aggregator, window, trendWindow, scoreHistory, known⟩ := alike
    refine ih ⟨?_, ?_, ?_, ?_, ?_⟩ ?_ ?_
    · simp only [tickSource, appendAnomalies_aggregator, aggregator]
    · simp only [tickSource, appendAnomalies_healthScorer, HealthScorer.update, window]
    · simp only [tickSource, appendAnomalies_healthScorer, HealthScorer.update, trendWindow]
    · simp only [tickSource, appendAnomalies_healthScorer, HealthScorer.update, window, scoreHistory]
    · simp only [tickSource, appendAnomalies_healthScorer, knownScores_update, known]
    · simp only [tickSource, HealthScorer.update, scores]
    · simp only [tickSource, HealthScorer.update, trends, window, trendWindow, scoreHistory]

/-- Alike models stay alike in ticks with the same readings, and so are their
snapshots. -/
theorem Alike.tick {a b : SelfModel} (alike : a.Alike b) (read : String → Reading) (disk disk' : Disk ℚ) (now now' : ℚ) :
    (a.tick stdev read disk now).1.Alike (b.tick stdev read disk' now').1 ∧
      { (b.tick stdev read disk' now').2.2 with
        timestamp := (a.tick stdev read disk now).2.2.timestamp
        anomalyCount := (a.tick stdev read disk now).2.2.anomalyCount } = (a.tick stdev read disk now).2.2 := by
  have start : (TickState.mk a ∅ ∅).model.Alike (TickState.mk b ∅ ∅).model := alike
  obtain ⟨models, scores, trends⟩ := start.foldl_tickSource stdev now now' (a.aggregator.collect read).entries rfl rfl
  rw [SelfModel.tick, SelfModel.tick, ← alike.1]
  refine ⟨models, ?_⟩
  rw [WorldSnapshot.mk.injEq]
  refine ⟨rfl, scores.symm, trends.symm, ?_, rfl, rfl⟩
  dsimp only
  rw [systemHealthRatio_eq, systemHealthRatio_eq, models.5]

/-- Alike models stay alike in calls that differ in their times. -/
theorem Alike.calls {history history' : List ModelCall}
    (same : history.map ModelCall.untimed = history'.map ModelCall.untimed) {state state' : SelfModel × Disk ℚ}
    (alike : state.1.Alike state'.1) : (calls stdev state history).1.Alike (calls stdev state' history').1 := by
  induction history generalizing history' state state' with
  | nil =>
    rw [List.map_nil, eq_comm, List.map_eq_nil_iff] at same
    rw [same]
    exact alike
  | cons next rest ih =>
    cases history' with
    | nil => cases same
    | cons next' rest' =>
      obtain ⟨first, later⟩ := List.cons.inj same
      refine ih later ?_
      cases next <;> cases next' <;> cases first
      · obtain ⟨aggregator, window, trendWindow, scoreHistory, known⟩ := alike
        exact ⟨congrArg (TelemetryAggregator.register · _) aggregator, window, trendWindow, scoreHistory, known⟩
      · obtain ⟨aggregator, window, trendWindow, scoreHistory, known⟩ := alike
        exact ⟨congrArg (TelemetryAggregator.unregister · _) aggregator, window, trendWindow, scoreHistory, known⟩
      · exact (alike.tick stdev _ state.2 state'.2 _ _).1

/-- The snapshot of a tick after some calls. -/
def snapshotAfter (start : SelfModel × Disk ℚ) (history : List ModelCall) (read : String → Reading) (now : ℚ) :
    WorldSnapshot :=
  let state := calls stdev start history
  (state.1.tick stdev read state.2 now).2.2

/-- The count of a snapshot is the total of the events, where they are counted. -/
theorem anomalyCount_snapshotAfter (start : SelfModel × Disk ℚ) (history : List ModelCall) (read : String → Reading)
    (now : ℚ) :
    (snapshotAfter stdev start history read now).anomalyCount = start.1.anomalyCount +
      if start.1.memoryStore.isSome then (emitted stdev start (history ++ [.tick read now])).length else 0 := by
  have counted := anomalyCount_calls stdev (history ++ [.tick read now]) start
  rw [SelfModel.calls, List.foldl_append] at counted
  exact counted

/-- With a memory store the snapshots count every event that the detector has
emitted. Without one they do, and are those of the model that has one, exactly
as long as no observation has been anomalous in the window of its pair. -/
theorem anomalyCount_iff_quiet (events : List AnomalyEvent) (stateDir stateDir' : String)
    (warnThreshold criticalThreshold : ℚ) (trendWindow : ℕ) (disk disk' : Disk ℚ) :
    let stored := (init (some events) stateDir warnThreshold criticalThreshold trendWindow, disk)
    let bare := (init none stateDir' warnThreshold criticalThreshold trendWindow, disk')
    (∀ history read now, (snapshotAfter stdev stored history read now).anomalyCount =
        (emitted stdev stored (history ++ [.tick read now])).length) ∧
      (∀ history read now, (snapshotAfter stdev bare history read now).anomalyCount =
        (emitted stdev bare (history ++ [.tick read now])).length ↔
          QuietTelemetry stdev warnThreshold criticalThreshold (history ++ [.tick read now])) ∧
      ∀ history history' read now now', history.map ModelCall.untimed = history'.map ModelCall.untimed →
        ({ snapshotAfter stdev bare history' read now' with
            timestamp := (snapshotAfter stdev stored history read now).timestamp } =
          snapshotAfter stdev stored history read now ↔
            QuietTelemetry stdev warnThreshold criticalThreshold (history ++ [.tick read now])) := by
  intro stored bare
  have counted (history : List ModelCall) (read : String → Reading) (now : ℚ) :
      (snapshotAfter stdev stored history read now).anomalyCount =
        (emitted stdev stored (history ++ [.tick read now])).length := by
    rw [anomalyCount_snapshotAfter]
    exact Nat.zero_add _
  have uncounted (history : List ModelCall) (read : String → Reading) (now : ℚ) :
      (snapshotAfter stdev bare history read now).anomalyCount = 0 := by
    rw [anomalyCount_snapshotAfter]
    rfl
  refine ⟨counted, fun history read now => ?_, fun history history' read now now' same => ?_⟩
  · rw [uncounted, eq_comm]
    exact emitted_init_iff stdev none stateDir' warnThreshold criticalThreshold trendWindow disk' _
  · have alike : stored.1.Alike bare.1 := ⟨rfl, rfl, rfl, rfl, rfl⟩
    have snapshots := ((alike.calls stdev same).tick stdev read (calls stdev stored history).2
      (calls stdev bare history').2 now now').2
    have total := emitted_init_iff stdev (some events) stateDir warnThreshold criticalThreshold trendWindow disk
      (history ++ [.tick read now])
    rw [← total, ← counted, ← uncounted history' read now']
    constructor
    · intro equal
      exact (congrArg WorldSnapshot.anomalyCount equal).symm
    · intro equal
      refine Eq.trans ?_ snapshots
      rw [WorldSnapshot.mk.injEq]
      exact ⟨rfl, rfl, rfl, rfl, equal.symm, rfl⟩

end

def loadReads (v : ℚ) : String → Reading := fun _ => .metrics (Dict.empty.set "load" v)

/-- One source with four loads that have a deviation of one fifth. -/
def steadyLoads : List ModelCall :=
  [.register ⟨"gpu"⟩, .tick (loadReads (2 / 5)) 0, .tick (loadReads (2 / 5)) 1, .tick (loadReads (2 / 5)) 2,
    .tick (loadReads 0) 3]

/-- A load of four fifths is an event that is not counted without a memory
store, and counted with one. -/
theorem uncounted_anomaly :
    let bare := (init none "state" 2 (7 / 2) 5, fun _ => StateFile.missing)
    let stored := (init (some []) "state" 2 (7 / 2) 5, fun _ => StateFile.missing)
    (emitted (fun _ => 1 / 5) bare (steadyLoads ++ [.tick (loadReads (4 / 5)) 4])).length = 1 ∧
      (snapshotAfter (fun _ => 1 / 5) bare steadyLoads (loadReads (4 / 5)) 4).anomalyCount = 0 ∧
      (snapshotAfter (fun _ => 1 / 5) stored steadyLoads (loadReads (4 / 5)) 4).anomalyCount = 1 := by
  refine ⟨?_, ?_, ?_⟩ <;> decide +kernel

end SelfModel

end Centroid
