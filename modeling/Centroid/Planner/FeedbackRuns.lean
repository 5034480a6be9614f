import Centroid.Planner.FeedbackLoop
import Mathlib.Data.List.Nodup

namespace Centroid

/-- What a sample is a sample of: a forecast, its horizon and a field. -/
def FeedbackResult.tag (r : FeedbackResult) : String × Horizon × String := (r.forecastId, r.horizon, r.field)

/-- The calibration record that a sample goes to. -/
def FeedbackResult.key (r : FeedbackResult) : String := calibrationKey r.field r.horizon.name

/-- The actual value of a result is the observed one, the prediction itself
where the field was not observed. -/
def FeedbackResult.Observed (r : FeedbackResult) (actualValues : Dict String ℚ) : Prop :=
  r.actual = (actualValues.get? r.field).getD r.predicted

/-- The tags of a forecast, one for each field that it predicts. -/
def Forecast.tags (forecastId : String) (forecast : Forecast) : List (String × Horizon × String) :=
  forecast.predictions.keys.map fun field => (forecastId, forecast.horizon, field)

theorem Forecast.tags_nodup (forecastId : String) (forecast : Forecast) : (forecast.tags forecastId).Nodup := by
  refine forecast.predictions.distinct.map fun a b same => ?_
  simpa using same

namespace ForecastFeedbackLoop

/-- Whether a pending forecast is mature at a cycle. -/
def mature (cycle : ℕ) (entry : String × PendingForecast) : Bool :=
  entry.2.forecast.cycleDistance ≤ cycle - entry.2.registeredCycle

section Resolve

variable (faults : WriteFaults) (now : ℚ) (actualValues : Dict String ℚ)

/-- One score is one result and one sample of its calibration record, whether
or not the write succeeds. -/
theorem scoreField_result (forecastId : String) (forecast : Forecast) (state : ResolveState) (entry : String × ℚ) :
    let final := scoreField faults actualValues forecastId forecast state entry
    ∃ result, final.results = state.results ++ [result] ∧ result.tag = (forecastId, forecast.horizon, entry.1) ∧
      result.Observed actualValues ∧
      ∀ key, final.calibration.samplesOf key = state.calibration.samplesOf key + if result.key = key then 1 else 0 :=
  ⟨_, rfl, rfl, rfl, fun key => CalibrationStore.samplesOf_update _ _ _ _ _ state.disk
    (faults.calibration state.calibrationWrites) key⟩

/-- Scoring a forecast appends one result for each of its predictions. -/
theorem foldl_scoreField (forecastId : String) (forecast : Forecast) (entries : List (String × ℚ))
    (state : ResolveState) :
    let final := entries.foldl (scoreField faults actualValues forecastId forecast) state
    final.planTree = state.planTree ∧ final.planTreeWrites = state.planTreeWrites ∧
      final.resolvedIds = state.resolvedIds ∧ ∃ added, final.results = state.results ++ added ∧
        added.map FeedbackResult.tag = entries.map (fun entry => (forecastId, forecast.horizon, entry.1)) ∧
        (∀ r ∈ added, r.Observed actualValues) ∧
        ∀ key, final.calibration.samplesOf key =
          state.calibration.samplesOf key + added.countP (fun r => r.key = key) := by
  induction entries generalizing state with
  | nil => exact ⟨rfl, rfl, rfl, [], by simp, rfl, by simp, fun _ => rfl⟩
  | cons entry rest ih =>
    obtain ⟨result, first, tag, observed, sample⟩ := scoreField_result faults actualValues forecastId forecast state entry
    obtain ⟨sameTree, sameWrites, sameIds, added, results, tags, allObserved, samples⟩ :=
      ih (scoreField faults actualValues forecastId forecast state entry)
    refine ⟨sameTree, sameWrites, sameIds, result :: added, ?_, ?_, List.forall_mem_cons.mpr ⟨observed, allObserved⟩,
      fun key => ?_⟩
    · rw [List.foldl_cons, results, first, List.append_assoc, List.singleton_append]
    · rw [List.map_cons, List.map_cons, tags, tag]
    · rw [List.foldl_cons, samples key, sample key, List.countP_cons]
      simp only [decide_eq_true_eq]
      omega

/-- Refreshing threads touches the plan tree only, and raises nothing as long
as none of its writes fails. -/
theorem refreshThreads_spec (forecastId : String) (forecast : Forecast) (threads : List PlanThread) (state : ResolveState)
    (stored : ∀ thread ∈ threads, thread.threadId ∈ state.planTree.threads.keys) :
    let final := refreshThreads faults now forecastId forecast threads state
    final.1.calibration = state.calibration ∧ final.1.results = state.results ∧
      final.1.resolvedIds = state.resolvedIds ∧ state.planTreeWrites ≤ final.1.planTreeWrites ∧
      ((∀ i < final.1.planTreeWrites, faults.planTree i = false) → final.2 = none) := by
  induction threads generalizing state with
  | nil => exact ⟨rfl, rfl, rfl, le_rfl, fun _ => rfl⟩
  | cons thread rest ih =>
    by_cases linked : forecastId ∈ thread.forecastIds
    · let newConf := ForecastGenerator.confidenceOf (recordedMaes state.calibration forecast)
      obtain ⟨updated, outcome, keys⟩ := state.planTree.updateConfidence_of_mem (stored thread List.mem_cons_self) newConf
        now state.disk (faults.planTree state.planTreeWrites)
      cases fails : faults.planTree state.planTreeWrites with
      | true =>
        rw [fails, if_pos rfl] at outcome
        simp only [refreshThreads, if_pos linked, fails, newConf, outcome, true_and]
        refine ⟨Nat.le_succ _, fun clean => ?_⟩
        have contradiction := clean state.planTreeWrites (Nat.lt_succ_self _)
        rw [fails] at contradiction
        cases contradiction
      | false =>
        rw [fails, if_neg Bool.false_ne_true] at outcome
        rw [fails] at keys
        simp only [refreshThreads, if_pos linked, fails, newConf, outcome]
        obtain ⟨sameCalibration, sameResults, sameIds, more, safe⟩ := ih
          { state with
            planTree := (state.planTree.updateConfidence thread.threadId newConf now state.disk false).1
            disk := (state.planTree.updateConfidence thread.threadId newConf now state.disk false).2.1
            planTreeWrites := state.planTreeWrites + 1 }
          (fun other member => keys ▸ stored other (List.mem_cons_of_mem _ member))
        exact ⟨sameCalibration, sameResults, sameIds, le_trans (Nat.le_succ _) more, safe⟩
    · simp only [refreshThreads, if_neg linked]
      exact ih state fun other member => stored other (List.mem_cons_of_mem _ member)

/-- The loop over the pending forecasts samples what it scores. Without a
failed plan tree write it gets through and scores each mature forecast once. -/
theorem resolvePending_spec (cycle : ℕ) (entries : List (String × PendingForecast)) (state : ResolveState) :
    let final := resolvePending faults now cycle actualValues entries state
    state.planTreeWrites ≤ final.1.planTreeWrites ∧ ∃ added, final.1.results = state.results ++ added ∧
      (∀ r ∈ added, r.Observed actualValues) ∧
      (∀ key, final.1.calibration.samplesOf key =
        state.calibration.samplesOf key + added.countP (fun r => r.key = key)) ∧
      ((∀ i < final.1.planTreeWrites, faults.planTree i = false) → final.2 = none) ∧
      (final.2 = none →
        final.1.resolvedIds = state.resolvedIds ++ (entries.filter (mature cycle)).map Prod.fst ∧
        added.map FeedbackResult.tag = (entries.filter (mature cycle)).flatMap fun e => e.2.forecast.tags e.1) := by
  induction entries generalizing state with
  | nil =>
    exact ⟨le_rfl, [], by simp [resolvePending], by simp, fun _ => rfl, fun _ => rfl, fun _ => by simp [resolvePending]⟩
  | cons entry rest ih =>
    obtain ⟨forecastId, pending⟩ := entry
    by_cases early : cycle - pending.registeredCycle < pending.forecast.cycleDistance
    · have notMature : mature cycle (forecastId, pending) = false := by
        simp only [mature, decide_eq_false_iff_not]
        omega
      simp only [resolvePending, if_pos early, List.filter_cons, notMature, Bool.false_eq_true, if_false]
      exact ih state
    · have isMature : mature cycle (forecastId, pending) = true := by
        simp only [mature, decide_eq_true_eq]
        omega
      obtain ⟨sameTree, sameWrites, sameIds, scored, scoredResults, scoredTags, scoredObserved, scoredSamples⟩ :=
        foldl_scoreField faults actualValues forecastId pending.forecast pending.forecast.predictions.entries state
      have stored : ∀ thread ∈ (pending.forecast.predictions.entries.foldl
          (scoreField faults actualValues forecastId pending.forecast) state).planTree.activeThreads,
          thread.threadId ∈ (pending.forecast.predictions.entries.foldl
            (scoreField faults actualValues forecastId pending.forecast) state).planTree.threads.keys :=
        fun thread active => PlanTree.mem_keys_of_active _ active
      obtain ⟨sameCalibration, sameResults, sameResolved, more, safe⟩ := refreshThreads_spec faults now forecastId
        pending.forecast _ _ stored
      rw [resolvePending, if_neg early]
      dsimp only
      generalize refreshThreads faults now forecastId pending.forecast _ _ = refreshed at *
      obtain ⟨refreshedState, raised⟩ := refreshed
      dsimp only at *
      have start : ∀ key, refreshedState.calibration.samplesOf key =
          state.calibration.samplesOf key + scored.countP (fun r => r.key = key) := by
        intro key
        rw [sameCalibration, scoredSamples key]
      have tagsHere : scored.map FeedbackResult.tag = pending.forecast.tags forecastId := by
        rw [scoredTags, Forecast.tags, Dict.keys, List.map_map]
        rfl
      cases raised with
      | some e =>
        dsimp only
        refine ⟨by omega, scored, by rw [sameResults, scoredResults], scoredObserved, start, safe, fun none => ?_⟩
        cases none
      | none =>
        dsimp only
        obtain ⟨grows, added, results, observed, samples, gets, resolved⟩ :=
          ih { refreshedState with resolvedIds := refreshedState.resolvedIds ++ [forecastId] }
        dsimp only at grows results samples
        refine ⟨by omega, scored ++ added, ?_, List.forall_mem_append.mpr ⟨scoredObserved, observed⟩, fun key => ?_, gets,
          fun done => ?_⟩
        · rw [results, sameResults, scoredResults, List.append_assoc]
        · rw [samples key, start key, List.countP_append, Nat.add_assoc]
        · obtain ⟨ids, tags⟩ := resolved done
          rw [ids, sameResolved, sameIds, List.map_append, tags, tagsHere]
          simp only [List.filter_cons, isMature, if_true, List.map_cons, List.flatMap_cons, List.append_assoc,
            List.singleton_append, and_self]

theorem resolve_calibration (self : ForecastFeedbackLoop) (disk : Disk ℚ) :
    (self.resolve faults now actualValues disk).1.calibration =
      (self.resolveLoop faults now actualValues disk).1.calibration :=
  (self.resolve_stores faults now actualValues disk).1

theorem resolve_cycle (self : ForecastFeedbackLoop) (disk : Disk ℚ) :
    (self.resolve faults now actualValues disk).1.cycle = self.cycle + 1 := by
  unfold resolve
  rcases self.resolveLoop faults now actualValues disk with ⟨state, _ | e⟩ <;> rfl

variable {faults now actualValues}

theorem resolve_pending {self : ForecastFeedbackLoop} {disk : Disk ℚ}
    (done : (self.resolveLoop faults now actualValues disk).2 = none) :
    (self.resolve faults now actualValues disk).1.pending =
      (self.resolveLoop faults now actualValues disk).1.resolvedIds.foldl Dict.erase self.pending := by
  revert done
  unfold resolve
  rcases self.resolveLoop faults now actualValues disk with ⟨state, _ | e⟩
  · exact fun _ => rfl
  · exact fun raised => nomatch raised

end Resolve

end ForecastFeedbackLoop

/-- What happens to a loop: a call on it, or a change of the shared plan tree
between the calls. -/
inductive LoopCall where
  | register (forecast : Forecast)
  | resolve (actualValues : Dict String ℚ) (faults : WriteFaults) (now : ℚ)
  | replan (planTree : PlanTree)

/-- A run so far, with the forecasts registered in it and the samples that its
resolutions have given to the calibration, aborted resolutions included. -/
structure LoopRun where
  loop : ForecastFeedbackLoop
  disk : Disk ℚ
  registered : List Forecast
  samples : List FeedbackResult

namespace LoopRun

open ForecastFeedbackLoop

def start (calibration : CalibrationStore) (planTree : PlanTree) (disk : Disk ℚ) : LoopRun :=
  ⟨.init calibration planTree, disk, [], []⟩

def step (run : LoopRun) : LoopCall → LoopRun
  | .register forecast => { run with loop := run.loop.register forecast, registered := run.registered ++ [forecast] }
  | .resolve actualValues faults now =>
    let (loop, disk, _) := run.loop.resolve faults now actualValues run.disk
    { run with
      loop := loop
      disk := disk
      samples := run.samples ++ (run.loop.resolveLoop faults now actualValues run.disk).1.results }
  | .replan planTree => { run with loop := { run.loop with planTree := planTree } }

/-- No write of the plan tree fails in the call. Calibration writes may. -/
def Quiet (run : LoopRun) : LoopCall → Prop
  | .register _ => True
  | .resolve actualValues faults now =>
    ∀ i < (run.loop.resolveLoop faults now actualValues run.disk).1.planTreeWrites, faults.planTree i = false
  | .replan _ => True

/-- The states of the runs in which every call is quiet. -/
inductive QuietReach (calibration : CalibrationStore) (planTree : PlanTree) (disk : Disk ℚ) : LoopRun → Prop
  | start : QuietReach calibration planTree disk (start calibration planTree disk)
  | next {run : LoopRun} {call : LoopCall} :
      QuietReach calibration planTree disk run → run.Quiet call → QuietReach calibration planTree disk (run.step call)

/-- Each registration of a forecast pays for one sample of each of its fields,
and a forecast that is still pending has not been sampled for its last one. -/
def Paid (run : LoopRun) : Prop :=
  ∀ id horizon field,
    run.samples.countP (fun r => r.tag = (id, horizon, field)) + (run.loop.pending.get? id).isSome.toNat ≤
      run.registered.countP (fun forecast => forecast.forecastId = id)

/-- The tags of distinct forecasts are distinct. -/
theorem nodup_flatMap_tags {entries : List (String × PendingForecast)} (distinct : (entries.map Prod.fst).Nodup) :
    (entries.flatMap fun e => e.2.forecast.tags e.1).Nodup := by
  refine List.nodup_flatMap.mpr ⟨fun e _ => Forecast.tags_nodup e.1 e.2.forecast, ?_⟩
  have apart : entries.Pairwise (fun a b => a.1 ≠ b.1) := List.pairwise_map.mp distinct
  refine apart.imp fun {a b} ne => ?_
  intro tag inA inB
  obtain ⟨_, _, rfl⟩ := List.mem_map.mp inA
  obtain ⟨_, _, same⟩ := List.mem_map.mp inB
  exact ne (congrArg Prod.fst same).symm

theorem Paid.register {run : LoopRun} (paid : run.Paid) (forecast : Forecast) : (run.step (.register forecast)).Paid := by
  intro id horizon field
  have before := paid id horizon field
  simp only [step, ForecastFeedbackLoop.register, List.countP_append, List.countP_singleton, decide_eq_true_eq,
    Dict.get?_set]
  split
  · simp only [Option.isSome_some, Bool.toNat_true]
    omega
  · omega

/-- A quiet resolution samples the mature forecasts and removes them. -/
theorem resolve_quiet {run : LoopRun} {actualValues : Dict String ℚ} {faults : WriteFaults} {now : ℚ}
    (quiet : run.Quiet (.resolve actualValues faults now)) :
    ∃ added, (run.step (.resolve actualValues faults now)).samples = run.samples ++ added ∧
      added.map FeedbackResult.tag = (run.loop.pending.entries.filter (mature (run.loop.cycle + 1))).flatMap
        (fun e => e.2.forecast.tags e.1) ∧
      (run.step (.resolve actualValues faults now)).loop.pending =
        ((run.loop.pending.entries.filter (mature (run.loop.cycle + 1))).map Prod.fst).foldl Dict.erase
          run.loop.pending := by
  obtain ⟨_, added, results, _, _, safe, resolved⟩ := resolvePending_spec faults now actualValues (run.loop.cycle + 1)
    run.loop.pending.entries ⟨run.loop.calibration, run.loop.planTree, run.disk, 0, 0, [], []⟩
  obtain ⟨ids, tags⟩ := resolved (safe quiet)
  have raised : (run.loop.resolveLoop faults now actualValues run.disk).2 = none := safe quiet
  refine ⟨added, ?_, tags, ?_⟩
  · simp only [step, resolveLoop, results, List.nil_append]
  · rw [List.nil_append] at ids
    rw [← ids]
    exact resolve_pending raised

theorem Paid.resolve {run : LoopRun} (paid : run.Paid) {actualValues : Dict String ℚ} {faults : WriteFaults} {now : ℚ}
    (quiet : run.Quiet (.resolve actualValues faults now)) : (run.step (.resolve actualValues faults now)).Paid := by
  intro id horizon field
  obtain ⟨added, samples, tags, pending⟩ := resolve_quiet quiet
  have before := paid id horizon field
  have registered : (run.step (.resolve actualValues faults now)).registered = run.registered := rfl
  have distinct := run.loop.pending.distinct.sublist
    ((List.filter_sublist (p := mature (run.loop.cycle + 1)) (l := run.loop.pending.entries)).map Prod.fst)
  have counted : added.countP (fun r => r.tag = (id, horizon, field)) =
      (added.map FeedbackResult.tag).count (id, horizon, field) := by
    rw [List.count, List.countP_map]
    exact List.countP_congr fun r _ => by simp
  have atMostOne := List.nodup_iff_count_le_one.mp (nodup_flatMap_tags distinct) (id, horizon, field)
  rw [samples, pending, registered, List.countP_append, counted, tags, Dict.get?_foldl_erase]
  by_cases isMature : id ∈ (run.loop.pending.entries.filter (mature (run.loop.cycle + 1))).map Prod.fst
  · obtain ⟨⟨key, value⟩, entry, rfl⟩ := List.mem_map.mp isMature
    have stored := (run.loop.pending.mem_entries_iff key value).mp (List.mem_filter.mp entry).1
    rw [stored] at before
    rw [if_pos isMature]
    dsimp only at atMostOne
    simp only [Option.isSome_some, Bool.toNat_true, Option.isSome_none, Bool.toNat_false] at before ⊢
    omega
  · have untagged : (id, horizon, field) ∉ (run.loop.pending.entries.filter (mature (run.loop.cycle + 1))).flatMap
        fun e => e.2.forecast.tags e.1 := by
      intro member
      obtain ⟨e, entry, tag⟩ := List.mem_flatMap.mp member
      obtain ⟨_, _, same⟩ := List.mem_map.mp tag
      exact isMature (List.mem_map.mpr ⟨e, entry, congrArg Prod.fst same⟩)
    rw [if_neg isMature, List.count_eq_zero.mpr untagged]
    omega

/-- Every sample of a run is counted by its calibration record. -/
theorem samplesOf_step (run : LoopRun) (call : LoopCall) :
    ∃ added, (run.step call).samples = run.samples ++ added ∧ ∀ key, (run.step call).loop.calibration.samplesOf key =
      run.loop.calibration.samplesOf key + added.countP (fun r => r.key = key) := by
  cases call with
  | register forecast => exact ⟨[], by simp [step], fun _ => rfl⟩
  | replan planTree => exact ⟨[], by simp [step], fun _ => rfl⟩
  | resolve actualValues faults now =>
    obtain ⟨_, added, results, _, samples, _⟩ := resolvePending_spec faults now actualValues (run.loop.cycle + 1)
      run.loop.pending.entries ⟨run.loop.calibration, run.loop.planTree, run.disk, 0, 0, [], []⟩
    refine ⟨added, by simp only [step, resolveLoop, results, List.nil_append], fun key => ?_⟩
    rw [← samples key]
    exact congrArg (·.samplesOf key) (resolve_calibration faults now actualValues run.loop run.disk)

/-- In a run in which no write of the plan tree fails, no registration of a
forecast gives a calibration record more than one sample of a field. -/
theorem QuietReach.samples_at_most_once {calibration : CalibrationStore} {planTree : PlanTree} {disk : Disk ℚ}
    {run : LoopRun} (reach : QuietReach calibration planTree disk run) :
    (∀ id horizon field, run.samples.countP (fun r => r.tag = (id, horizon, field)) ≤
      run.registered.countP (fun forecast => forecast.forecastId = id)) ∧
    ∀ key, run.loop.calibration.samplesOf key = calibration.samplesOf key + run.samples.countP (fun r => r.key = key) := by
  have both : run.Paid ∧ ∀ key, run.loop.calibration.samplesOf key =
      calibration.samplesOf key + run.samples.countP (fun r => r.key = key) := by
    induction reach with
    | start => exact ⟨fun _ _ _ => le_rfl, fun _ => rfl⟩
    | @next run call _ quiet ih =>
      obtain ⟨paid, counted⟩ := ih
      refine ⟨?_, fun key => ?_⟩
      · cases call with
        | register forecast => exact paid.register forecast
        | resolve actualValues faults now => exact paid.resolve quiet
        | replan planTree => exact paid
      · obtain ⟨added, samples, more⟩ := run.samplesOf_step call
        rw [more key, counted key, samples, List.countP_append, Nat.add_assoc]
  exact ⟨fun id horizon field => le_trans (Nat.le_add_right _ _) (both.1 id horizon field), both.2⟩

/-- A plan with one active thread, linked to a forecast. -/
def linkedThread : PlanThread := ⟨"t0", "keep the load low", [], .active, 9 / 10, 0, 0, ["f0"]⟩

def linkedPlan : PlanTree := (⟨1 / 5, "state/plan_tree.json", ∅, PlanTree.keyed_empty⟩ : PlanTree).setThread linkedThread

def emptyCalibration : CalibrationStore := ⟨"state/calibration.json", ∅⟩

def shortForecast : Forecast := ⟨.short, 1, Dict.empty.set "load" (1 / 2), 1 / 2, 0, "f0"⟩

theorem samples_at_most_once_linked :
    let run := ((start emptyCalibration linkedPlan fun _ => .missing).step (.register shortForecast)).step
      (.resolve (Dict.empty.set "load" (3 / 4)) ⟨fun _ => true, fun _ => false⟩ 0)
    run.samples.countP (fun r => r.tag = ("f0", Horizon.short, "load")) ≤
      run.registered.countP (fun forecast => forecast.forecastId = "f0") := by
  have registered : QuietReach emptyCalibration linkedPlan (fun _ => .missing)
      ((start emptyCalibration linkedPlan fun _ => .missing).step (.register shortForecast)) :=
    @QuietReach.next _ _ _ _ (.register shortForecast) .start trivial
  have resolved := @QuietReach.next _ _ _ _
    (.resolve (Dict.empty.set "load" (3 / 4)) ⟨fun _ => true, fun _ => false⟩ 0) registered fun _ _ => rfl
  exact resolved.samples_at_most_once.1 "f0" .short "load"

/-- The write of the linked thread fails once. The forecast stays pending and
is sampled again in the next cycle. -/
theorem failed_write_samples_twice :
    let run := (((start emptyCalibration linkedPlan fun _ => .missing).step (.register shortForecast)).step
      (.resolve (Dict.empty.set "load" (3 / 4)) ⟨fun _ => false, fun _ => true⟩ 0)).step
      (.resolve (Dict.empty.set "load" (3 / 4)) .none 0)
    run.registered.countP (fun forecast => forecast.forecastId = "f0") = 1 ∧
      run.samples.countP (fun r => r.tag = ("f0", Horizon.short, "load")) = 2 ∧
      run.loop.calibration.samplesOf "load:short" = 2 := by
  refine ⟨rfl, ?_, ?_⟩ <;> decide +kernel

end LoopRun

end Centroid
