import Centroid.Daemon.CentroidDaemon
import Centroid.Daemon.ForecastTiming
import Centroid.Planner.ResolutionTiming

namespace Centroid

theorem countP_range_ge (m k : ℕ) : (List.range m).countP (fun c => k ≤ c) = m - k := by
  induction m with
  | zero => exact (Nat.zero_sub k).symm
  | succ m ih =>
    rw [List.range_succ, List.countP_append, ih, List.countP_singleton]
    split
    · rename_i late
      have := of_decide_eq_true late
      omega
    · rename_i early
      have := of_decide_eq_false (Bool.not_eq_true _ ▸ early)
      omega

theorem countP_range_lt (m k : ℕ) : (List.range m).countP (fun c => c < k) = min m k := by
  induction m with
  | zero => exact (Nat.zero_min k).symm
  | succ m ih =>
    rw [List.range_succ, List.countP_append, ih, List.countP_singleton]
    split
    · rename_i early
      have := of_decide_eq_true early
      omega
    · rename_i late
      have := of_decide_eq_false (Bool.not_eq_true _ ▸ late)
      omega

namespace LoopLog

theorem registrations_foldl_prefix (calls : List LoopCall) (log : LoopLog) :
    log.registrations <+: (calls.foldl record log).registrations := by
  induction calls generalizing log with
  | nil => exact List.prefix_refl _
  | cons call calls ih =>
    refine List.IsPrefix.trans ?_ (ih (log.record call))
    cases call with
    | register forecast => exact List.prefix_append _ _
    | resolve _ _ _ | replan _ => exact List.prefix_refl _

/-- The log of a loop that a runner has taken through `n` cycles: in each of
them one forecast for each horizon, then one resolution. -/
structure Cycles (log : LoopLog) (ids : IdSource) (drawn : ℕ) (fields : List String) (n : ℕ) : Prop where
  resolves : log.resolves = n
  ids : log.registrations.map (·.forecast.forecastId) = (List.range' drawn (3 * n)).map ids.draw
  rows : log.registrations.map (fun reg => (reg.after, reg.forecast.horizon, reg.forecast.cycleDistance)) =
    (List.range n).flatMap fun c => horizons.map (Prod.mk c)
  predicts : ∀ reg ∈ log.registrations, ∀ field, field ∈ reg.forecast.predictions.keys ↔ field ∈ fields

section Cycles

variable {log : LoopLog} {ids : IdSource} {drawn : ℕ} {fields : List String} {n : ℕ}

theorem Cycles.row_mem (cycles : log.Cycles ids drawn fields n) {reg : Registration} (member : reg ∈ log.registrations) :
    (reg.forecast.horizon, reg.forecast.cycleDistance) ∈ horizons := by
  have row : (reg.after, reg.forecast.horizon, reg.forecast.cycleDistance) ∈
      (List.range n).flatMap fun c => horizons.map (Prod.mk c) := cycles.rows ▸ List.mem_map.mpr ⟨reg, member, rfl⟩
  obtain ⟨c, -, inside⟩ := List.mem_flatMap.mp row
  obtain ⟨entry, listed, same⟩ := List.mem_map.mp inside
  rw [← (Prod.mk.inj same).2]
  exact listed

theorem Cycles.proper (cycles : log.Cycles ids drawn fields n) : log.Proper := by
  constructor
  · rw [cycles.ids]
    exact List.Nodup.map ids.injective List.nodup_range'
  · intro reg member
    have row := cycles.row_mem member
    simp only [horizons, List.mem_cons, Prod.mk.injEq, List.not_mem_nil, or_false] at row
    omega

/-- What holds of some registrations is counted by their rows. -/
theorem Cycles.countP_rows (cycles : log.Cycles ids drawn fields n) {p : Registration → Bool} {q : ℕ × Horizon × ℕ → Bool}
    (same : ∀ reg ∈ log.registrations, p reg = q (reg.after, reg.forecast.horizon, reg.forecast.cycleDistance)) :
    log.registrations.countP p =
      ((List.range n).map fun c => horizons.countP fun row => q (c, row)).sum := by
  have byRow : log.registrations.countP p =
      (log.registrations.map fun reg => (reg.after, reg.forecast.horizon, reg.forecast.cycleDistance)).countP q := by
    rw [List.countP_map]
    refine List.countP_congr fun reg member => ?_
    rw [same reg member]
    exact Iff.rfl
  rw [byRow, cycles.rows, List.countP_flatMap]
  refine congrArg List.sum (List.map_congr_left fun c _ => ?_)
  rw [Function.comp_apply, List.countP_map]
  rfl

theorem sum_map_toNat (p : ℕ → Bool) (l : List ℕ) : (l.map fun c => (p c).toNat).sum = l.countP p := by
  induction l with
  | nil => rfl
  | cons c l ih =>
    rw [List.map_cons, List.sum_cons, ih, List.countP_cons]
    cases p c <;> simp [Nat.add_comm]

/-- The forecasts that wait are those of the last cycles, fewer for a horizon
than it looks ahead. -/
theorem Cycles.length_pending (cycles : log.Cycles ids drawn fields n) :
    log.pending.length = (horizons.map fun row => min n (row.2 - 1)).sum := by
  have counted := cycles.countP_rows (p := fun reg => decide (log.resolves < reg.due))
    (q := fun row => decide (n < row.1 + row.2.2)) fun reg _ => by rw [cycles.resolves, Registration.due]
  rw [pending, ← List.countP_eq_length_filter, counted]
  have split : ∀ c, (horizons.countP fun row => decide (n < (c, row).1 + (c, row).2.2)) =
      (decide (n < c + 1)).toNat + ((decide (n < c + 5)).toNat + (decide (n < c + 20)).toNat) := by
    intro c
    simp only [horizons, List.countP_cons, List.countP_nil]
    cases decide (n < c + 1) <;> cases decide (n < c + 5) <;> cases decide (n < c + 20) <;> rfl
  have late (d : ℕ) : (List.range n).countP (fun c => decide (n < c + d)) = n - (n + 1 - d) := by
    rw [← countP_range_ge]
    refine List.countP_congr fun c _ => ?_
    rw [decide_eq_true_iff, decide_eq_true_iff]
    omega
  rw [List.map_congr_left fun c _ => split c, List.sum_map_add, List.sum_map_add]
  simp only [sum_map_toNat, late, horizons, List.map_cons, List.map_nil, List.sum_cons, List.sum_nil]
  omega

/-- Each horizon has been resolved once in every cycle but the first ones. -/
theorem Cycles.countP_resolved (cycles : log.Cycles ids drawn fields n) {horizon : Horizon} {distance : ℕ}
    (row : (horizon, distance) ∈ horizons) {field : String} (predicted : field ∈ fields) :
    log.resolved.countP (·.Predicts horizon field) = n + 1 - distance := by
  have counted := cycles.countP_rows
    (p := fun reg => decide (reg.Predicts horizon field) && decide (reg.due ≤ log.resolves))
    (q := fun row => decide (row.2.1 = horizon) && decide (row.1 + row.2.2 ≤ n)) (by
      intro reg member
      rw [cycles.resolves, Registration.due]
      refine congrArg (· && _) (decide_eq_decide.mpr ?_)
      rw [Registration.Predicts, cycles.predicts reg member, and_iff_left predicted])
  rw [resolved, List.countP_filter, counted]
  have early : (List.range n).countP (fun c => decide (c + distance ≤ n)) = n + 1 - distance := by
    have bound : (List.range n).countP (fun c => decide (c + distance ≤ n)) =
        (List.range n).countP fun c => decide (c < n + 1 - distance) := by
      refine List.countP_congr fun c _ => ?_
      rw [decide_eq_true_iff, decide_eq_true_iff]
      omega
    rw [bound, countP_range_lt]
    simp only [horizons, List.mem_cons, Prod.mk.injEq, List.not_mem_nil, or_false] at row
    omega
  have one : ∀ c, (horizons.countP fun row => decide ((c, row).2.1 = horizon) && decide ((c, row).1 + (c, row).2.2 ≤ n)) =
      (decide (c + distance ≤ n)).toNat := by
    intro c
    simp only [horizons, List.mem_cons, Prod.mk.injEq, List.not_mem_nil, or_false] at row
    rcases row with ⟨rfl, rfl⟩ | ⟨rfl, rfl⟩ | ⟨rfl, rfl⟩
    all_goals simp only [horizons, List.countP_cons, List.countP_nil]
    · cases decide (c + 1 ≤ n) <;> rfl
    · cases decide (c + 5 ≤ n) <;> rfl
    · cases decide (c + 20 ≤ n) <;> rfl
  rw [List.map_congr_left fun c _ => one c, sum_map_toNat, early]

theorem Cycles.countP_resolved_of_notMem (cycles : log.Cycles ids drawn fields n) (horizon : Horizon) {field : String}
    (other : field ∉ fields) : log.resolved.countP (·.Predicts horizon field) = 0 := by
  rw [List.countP_eq_zero]
  intro reg member predicts
  have inside := (of_decide_eq_true predicts).2
  exact other ((cycles.predicts reg (List.mem_filter.mp member).1 field).mp inside)

/-- One cycle more. -/
theorem Cycles.next (cycles : log.Cycles ids drawn fields n) {forecasts : List Forecast}
    (drawnIds : forecasts.map Forecast.forecastId = (List.range' (drawn + 3 * n) 3).map ids.draw)
    (rows : forecasts.map (fun f => (f.horizon, f.cycleDistance)) = horizons)
    (predicted : ∀ f ∈ forecasts, ∀ field, field ∈ f.predictions.keys ↔ field ∈ fields) :
    Cycles ⟨log.resolves + 1, log.registrations ++ forecasts.map fun f => ⟨f, log.resolves⟩⟩ ids drawn fields (n + 1) := by
  obtain ⟨resolves, oldIds, oldRows, oldPredicts⟩ := cycles
  refine ⟨congrArg (· + 1) resolves, ?_, ?_, fun reg member => ?_⟩
  · have more : forecasts.map Forecast.forecastId =
        (forecasts.map fun f => (⟨f, log.resolves⟩ : Registration)).map (·.forecast.forecastId) := by
      rw [List.map_map]
      rfl
    rw [List.map_append, oldIds, ← more, drawnIds, ← List.map_append, List.range'_append_1, Nat.mul_succ]
  · have more : horizons.map (Prod.mk n) = (forecasts.map fun f => (⟨f, log.resolves⟩ : Registration)).map fun reg =>
        (reg.after, reg.forecast.horizon, reg.forecast.cycleDistance) := by
      rw [← rows, List.map_map, List.map_map, resolves]
      rfl
    rw [List.map_append, oldRows, ← more, List.range_succ, List.flatMap_append, List.flatMap_singleton]
  · rcases List.mem_append.mp member with old | new
    · exact oldPredicts reg old
    · obtain ⟨f, made, rfl⟩ := List.mem_map.mp new
      exact predicted f made

end Cycles

end LoopLog

namespace LoopRun

open ForecastFeedbackLoop

/-- The calls of one cycle on its loop. -/
def cycleCalls (forecasts : List Forecast) (actualValues : Dict String ℚ) (faults : WriteFaults) (now : ℚ) :
    List LoopCall := forecasts.map .register ++ [.resolve actualValues faults now]

theorem after_registers (forecasts : List Forecast) (run : LoopRun) :
    run.after (forecasts.map .register) =
      { run with loop := forecasts.foldl register run.loop, registered := run.registered ++ forecasts } := by
  induction forecasts generalizing run with
  | nil => rw [List.append_nil]; rfl
  | cons f forecasts ih =>
    refine (ih (run.step (.register f))).trans ?_
    rw [step, List.append_assoc]
    rfl

theorem after_cycleCalls (forecasts : List Forecast) (actualValues : Dict String ℚ) (faults : WriteFaults) (now : ℚ)
    (run : LoopRun) :
    let resolved := (forecasts.foldl register run.loop).resolve faults now actualValues run.disk
    (run.after (cycleCalls forecasts actualValues faults now)).loop = resolved.1 ∧
      (run.after (cycleCalls forecasts actualValues faults now)).disk = resolved.2.1 := by
  have registered := after_registers forecasts run
  rw [after] at registered
  rw [after, cycleCalls, List.foldl_append, registered]
  exact ⟨rfl, rfl⟩

theorem log_cycleCalls (forecasts : List Forecast) (actualValues : Dict String ℚ) (faults : WriteFaults) (now : ℚ)
    (log : LoopLog) : (cycleCalls forecasts actualValues faults now).foldl LoopLog.record log =
      ⟨log.resolves + 1, log.registrations ++ forecasts.map fun f => ⟨f, log.resolves⟩⟩ := by
  have registered : (forecasts.map LoopCall.register).foldl LoopLog.record log =
      ⟨log.resolves, log.registrations ++ forecasts.map fun f => ⟨f, log.resolves⟩⟩ := by
    induction forecasts generalizing log with
    | nil => rw [List.map_nil, List.map_nil, List.append_nil]; rfl
    | cons f forecasts ih =>
      rw [List.map_cons, List.foldl_cons, ih, LoopLog.record, List.append_assoc]
      rfl
  rw [cycleCalls, List.foldl_append, registered]
  rfl

/-- Calls without a failed write of the plan tree keep a loop in step with its
log. -/
theorem Follows.after {run : LoopRun} {log : LoopLog} {calibration : CalibrationStore}
    (follows : run.Follows log calibration) {calls : List LoopCall} (proper : (calls.foldl LoopLog.record log).Proper)
    (persists : ∀ call ∈ calls, call.Persists) :
    (run.after calls).Follows (calls.foldl LoopLog.record log) calibration := by
  induction calls generalizing run log with
  | nil => exact follows
  | cons call calls ih =>
    have within : ∀ other : LoopLog, other.registrations <+: (calls.foldl LoopLog.record (log.record call)).registrations →
        other.Proper := fun other registered =>
      ⟨proper.distinct.sublist (registered.sublist.map _), fun reg member => proper.ahead reg (registered.mem member)⟩
    have properNext := within _ (LoopLog.registrations_foldl_prefix calls (log.record call))
    have properBefore := LoopLog.registrations_foldl_prefix (call :: calls) log
    have later := fun c member => persists c (List.mem_cons_of_mem call member)
    cases call with
    | register forecast => exact ih (follows.register properNext) proper later
    | resolve actualValues faults now =>
      exact ih (follows.resolve (within log properBefore) (quiet_of_persists (persists _ List.mem_cons_self))) proper later
    | replan planTree => exact ih ⟨follows.cycle, follows.past, follows.pending, follows.samples⟩ proper later

end LoopRun

namespace CycleRunner

open ForecastFeedbackLoop

/-- A runner whose generator and loop have gone through `n` cycles of it. -/
structure Looped (runner : CycleRunner) (ids : IdSource) (fields : List String) (calibration : CalibrationStore)
    (drawn n : ℕ) : Prop where
  generator : ∃ generator, runner.forecastGenerator = some generator ∧ generator.fields = fields
  store : runner.calibrationStore = .ofLoop
  counted : runner.drawn = drawn + 3 * n
  loop : ∃ run log, runner.feedbackLoop = some run.loop ∧ LoopRun.Follows run log calibration ∧
    log.Cycles ids drawn fields n

section Step

variable {self : CycleRunner} {generator : ForecastGenerator} {loop : ForecastFeedbackLoop}

/-- With the store of its loop a runner always generates. -/
theorem forecastStep_of_loop (generates : self.forecastGenerator = some generator) (loops : self.feedbackLoop = some loop)
    (store : self.calibrationStore = .ofLoop) (ids : IdSource) (values : Dict String ℚ) (now : ℚ) :
    self.forecastStep ids values now =
      let made := generator.generate values loop.calibration ids self.drawn now
      ({ self with
          forecastGenerator := some made.1
          feedbackLoop := some (made.2.foldl register loop)
          drawn := self.drawn + made.2.length }, some made.2, []) := by
  have calibrated : self.calibration? = some loop.calibration := by
    rw [calibration?, store, loops]
    rfl
  simp only [forecastStep, generates, calibrated, generate, loops, Option.map_some, Option.getD_some]

theorem feedbackStep_of_loop (loops : self.feedbackLoop = some loop) (values : Dict String ℚ) (faults : WriteFaults)
    (now : ℚ) (disk : Disk ℚ) :
    (self.feedbackStep values faults now disk).1 =
        { self with feedbackLoop := some (loop.resolve faults now values disk).1 } ∧
      (self.feedbackStep values faults now disk).2.1 = (loop.resolve faults now values disk).2.1 := by
  rcases outcome : loop.resolve faults now values disk with ⟨loop', disk', e | results⟩
  · simp only [feedbackStep, loops, outcome, and_self]
  · simp only [feedbackStep, loops, outcome, and_self]

/-- The cycle of a runner that has a generator and a loop, as far as these two
and their files go. Whatever else raises makes no difference. -/
theorem run_of_loop (generates : self.forecastGenerator = some generator) (loops : self.feedbackLoop = some loop)
    (store : self.calibrationStore = .ofLoop) (ids : IdSource) (c : ℕ) (env : CycleEnvironment) (disk : Disk ℚ) :
    let values := currentValues (guarded self.selfModel env.selfModelTick .selfModel).1
    let made := generator.generate values loop.calibration ids self.drawn env.startedAt
    let resolved := (made.2.foldl register loop).resolve env.faults env.startedAt values disk
    (self.run ids c env disk).1.forecastGenerator = some made.1 ∧
      (self.run ids c env disk).1.feedbackLoop = some resolved.1 ∧
      (self.run ids c env disk).1.calibrationStore = .ofLoop ∧
      (self.run ids c env disk).1.drawn = self.drawn + made.2.length ∧
      (self.run ids c env disk).2.1 = resolved.2.1 := by
  intro values made resolved
  have forecasted := forecastStep_of_loop generates loops store ids values env.startedAt
  let registered : CycleRunner :=
    { self with
      forecastGenerator := some made.1
      feedbackLoop := some (made.2.foldl register loop)
      drawn := self.drawn + made.2.length }
  have looped : registered.feedbackLoop = some (made.2.foldl register loop) := rfl
  obtain ⟨after, files⟩ := feedbackStep_of_loop looped values env.faults env.startedAt disk
  have next : ∃ store', (self.run ids c env disk).1 =
      { (self.forecastStep ids values env.startedAt).1.feedbackStep values env.faults env.startedAt disk |>.1 with
        memoryStore := store' } := ⟨_, rfl⟩
  obtain ⟨store', isNext⟩ := next
  rw [isNext, forecasted]
  dsimp only
  rw [after]
  refine ⟨rfl, rfl, store, rfl, ?_⟩
  have onFile : (self.run ids c env disk).2.1 =
      ((self.forecastStep ids values env.startedAt).1.feedbackStep values env.faults env.startedAt disk).2.1 := rfl
  rw [onFile, forecasted]
  exact files

/-- A cycle without a failed write of the plan tree takes them one cycle
further. -/
theorem Looped.next {ids : IdSource} {fields : List String} {calibration : CalibrationStore} {drawn n : ℕ}
    (looped : self.Looped ids fields calibration drawn n) (c : ℕ) {env : CycleEnvironment}
    (persists : ∀ i, env.faults.planTree i = false) (disk : Disk ℚ) :
    (self.run ids c env disk).1.Looped ids fields calibration drawn (n + 1) := by
  obtain ⟨⟨generator, generates, isFields⟩, store, isDrawn, run, log, loops, follows, cycles⟩ := looped
  obtain ⟨generates', loops', store', drawn', -⟩ := run_of_loop generates loops store ids c env disk
  generalize currentValues (guarded self.selfModel env.selfModelTick .selfModel).1 = values at *
  obtain ⟨sameFields, drawnIds, rows, predicted⟩ := ForecastGenerator.generateFrom_spec values run.loop.calibration ids
    env.startedAt horizons self.drawn generator
  rw [← ForecastGenerator.generate] at sameFields drawnIds rows predicted
  generalize generator.generate values run.loop.calibration ids self.drawn env.startedAt = made at *
  rw [isFields] at sameFields predicted
  rw [isDrawn] at drawnIds
  have later := cycles.next drawnIds rows predicted
  have calls := LoopRun.log_cycleCalls made.2 values env.faults env.startedAt log
  have proper := later.proper
  rw [← calls] at later proper
  have after := (LoopRun.after_cycleCalls made.2 values env.faults env.startedAt { run with disk := disk }).1
  have three : made.2.length = 3 := by
    have lengths := congrArg List.length rows
    rwa [List.length_map] at lengths
  have following : LoopRun.Follows { run with disk := disk } log calibration :=
    ⟨follows.cycle, follows.past, follows.pending, follows.samples⟩
  refine ⟨⟨made.1, generates', sameFields⟩, store', by omega, _, _, loops'.trans (congrArg some after.symm),
    following.after proper ?_, later⟩
  intro call member
  rcases List.mem_append.mp member with register | resolve
  · obtain ⟨f, -, rfl⟩ := List.mem_map.mp register
    trivial
  · rw [List.mem_singleton.mp resolve]
    exact persists

/-- What waits in the loop and what its records have taken after `n` cycles. -/
theorem Looped.counts {ids : IdSource} {fields : List String} {calibration : CalibrationStore} {drawn n : ℕ}
    (looped : self.Looped ids fields calibration drawn n) :
    ∃ loop, self.feedbackLoop = some loop ∧ loop.cycle = n ∧
      loop.pendingCount = (horizons.map fun row => min n (row.2 - 1)).sum ∧
      (∀ row ∈ horizons, ∀ field ∈ fields, loop.calibration.samplesOf (calibrationKey field row.1.name) =
        calibration.samplesOf (calibrationKey field row.1.name) + (n + 1 - row.2)) ∧
      ∀ horizon : Horizon, ∀ field, field ∉ fields → loop.calibration.samplesOf (calibrationKey field horizon.name) =
        calibration.samplesOf (calibrationKey field horizon.name) := by
  obtain ⟨run, log, loops, follows, cycles⟩ := looped.loop
  refine ⟨run.loop, loops, follows.cycle.trans cycles.resolves, ?_, fun row member field predicted => ?_,
    fun horizon field other => ?_⟩
  · rw [pendingCount, Dict.size, follows.pending, List.length_map, cycles.length_pending]
  · rw [follows.samples, cycles.countP_resolved member predicted]
  · rw [follows.samples, cycles.countP_resolved_of_notMem horizon other, Nat.add_zero]

end Step

end CycleRunner

end Centroid
