import Centroid.Planner.FeedbackRuns

namespace Centroid

theorem Horizon.colon_notMem (horizon : Horizon) : ':' ∉ horizon.name.toList := by
  cases horizon <;> decide

theorem Horizon.name_injective : Function.Injective Horizon.name := by
  intro horizon other same
  revert same
  cases horizon <;> cases other <;> decide

/-- What stands before and after the last occurrence of a letter. -/
theorem append_cons_inj_of_notMem_tail {α : Type} {a : α} {before before' tail tail' : List α} (last : a ∉ tail)
    (last' : a ∉ tail') (same : before ++ a :: tail = before' ++ a :: tail') : before = before' ∧ tail = tail' := by
  rcases List.append_eq_append_iff.mp same with ⟨more, longer, rest⟩ | ⟨more, longer, rest⟩
  · cases more with
    | nil =>
      rw [List.nil_append] at rest
      exact ⟨by rw [longer, List.append_nil], (List.cons.inj rest).2⟩
    | cons b more =>
      rw [List.cons_append] at rest
      exact absurd (by rw [(List.cons.inj rest).2]; simp) last
  · cases more with
    | nil =>
      rw [List.nil_append] at rest
      exact ⟨by rw [longer, List.append_nil], (List.cons.inj rest).2.symm⟩
    | cons b more =>
      rw [List.cons_append] at rest
      exact absurd (by rw [(List.cons.inj rest).2]; simp) last'

/-- A record belongs to one pair of field and horizon: the last colon of its
key stands between them. -/
theorem calibrationKey_inj {field field' : String} {horizon horizon' : Horizon}
    (same : calibrationKey field horizon.name = calibrationKey field' horizon'.name) :
    field = field' ∧ horizon = horizon' := by
  have spelled (f : String) (h : Horizon) :
      (calibrationKey f h.name).toList = f.toList ++ ':' :: h.name.toList := by
    rw [calibrationKey, String.toList_append, String.toList_append, List.append_assoc]
    rfl
  have lists := congrArg String.toList same
  rw [spelled, spelled] at lists
  obtain ⟨fields, horizons⟩ := append_cons_inj_of_notMem_tail horizon.colon_notMem horizon'.colon_notMem lists
  exact ⟨String.toList_inj.mp fields, Horizon.name_injective (String.toList_inj.mp horizons)⟩

/-- A sample goes to the record of its field and horizon. -/
theorem FeedbackResult.key_eq_iff (r : FeedbackResult) (field : String) (horizon : Horizon) :
    r.key = calibrationKey field horizon.name ↔ r.tag.2 = (horizon, field) := by
  rw [FeedbackResult.key, FeedbackResult.tag]
  constructor
  · intro same
    obtain ⟨sameField, sameHorizon⟩ := calibrationKey_inj same
    rw [sameField, sameHorizon]
  · intro same
    obtain ⟨sameHorizon, sameField⟩ := Prod.mk.inj same
    rw [sameHorizon, sameField]

/-- One forecast has one sample of each field that it predicts. -/
theorem Forecast.countP_tags (forecast : Forecast) (forecastId : String) (horizon : Horizon) (field : String) :
    (forecast.tags forecastId).countP (fun tag => tag.2 = (horizon, field)) =
      if forecast.horizon = horizon ∧ field ∈ forecast.predictions.keys then 1 else 0 := by
  have distinct : forecast.predictions.keys.Nodup := forecast.predictions.distinct
  rw [Forecast.tags, List.countP_map]
  by_cases same : forecast.horizon = horizon
  · have counted : forecast.predictions.keys.countP
        ((fun tag : String × Horizon × String => decide (tag.2 = (horizon, field))) ∘
          fun f => (forecastId, forecast.horizon, f)) = forecast.predictions.keys.count field := by
      rw [List.count]
      refine List.countP_congr fun f _ => ?_
      simp [same]
    rw [counted, List.Nodup.count distinct]
    simp [same]
  · rw [if_neg fun predicts => same predicts.1, List.countP_eq_zero]
    intro f _
    simp [same]

theorem ForecastFeedbackLoop.countP_flatMap_tags (entries : List (String × PendingForecast)) (horizon : Horizon)
    (field : String) :
    (entries.flatMap fun e => e.2.forecast.tags e.1).countP (fun tag => tag.2 = (horizon, field)) =
      entries.countP fun e => e.2.forecast.horizon = horizon ∧ field ∈ e.2.forecast.predictions.keys := by
  induction entries with
  | nil => rfl
  | cons entry rest ih =>
    rw [List.flatMap_cons, List.countP_append, ih, Forecast.countP_tags, List.countP_cons]
    simp only [decide_eq_true_eq]
    omega

/-- A registration: the forecast and how many resolutions came before it. -/
structure Registration where
  forecast : Forecast
  after : ℕ

namespace Registration

/-- The number of the resolution that the forecast is meant for. -/
def due (reg : Registration) : ℕ := reg.after + reg.forecast.cycleDistance

/-- The samples that the forecast stands for, one for each predicted field. -/
def tags (reg : Registration) : List (String × Horizon × String) := reg.forecast.tags reg.forecast.forecastId

def entry (reg : Registration) : String × PendingForecast := (reg.forecast.forecastId, ⟨reg.forecast, reg.after⟩)

def Predicts (reg : Registration) (horizon : Horizon) (field : String) : Prop :=
  reg.forecast.horizon = horizon ∧ field ∈ reg.forecast.predictions.keys

instance (reg : Registration) (horizon : Horizon) (field : String) : Decidable (reg.Predicts horizon field) :=
  inferInstanceAs (Decidable (_ ∧ _))

end Registration

/-- What a history of calls says of a loop: how many resolutions there were and
which forecasts were registered when. -/
structure LoopLog where
  resolves : ℕ
  registrations : List Registration

namespace LoopLog

def record (log : LoopLog) : LoopCall → LoopLog
  | .register forecast => { log with registrations := log.registrations ++ [⟨forecast, log.resolves⟩] }
  | .resolve _ _ _ => { log with resolves := log.resolves + 1 }
  | .replan _ => log

def ofHistory (history : List LoopCall) : LoopLog := history.foldl record ⟨0, []⟩

/-- The registrations whose resolution has come. -/
def resolved (log : LoopLog) : List Registration := log.registrations.filter (·.due ≤ log.resolves)

def pending (log : LoopLog) : List Registration := log.registrations.filter (log.resolves < ·.due)

/-- Distinct forecasts, each of which looks at least one cycle ahead. -/
structure Proper (log : LoopLog) : Prop where
  distinct : (log.registrations.map (·.forecast.forecastId)).Nodup
  ahead : ∀ reg ∈ log.registrations, 1 ≤ reg.forecast.cycleDistance

end LoopLog

/-- A call in which no write of the plan tree fails. -/
def LoopCall.Persists : LoopCall → Prop
  | .resolve _ faults _ => ∀ i, faults.planTree i = false
  | .register _ | .replan _ => True

namespace LoopLog

/-- The registrations that the next resolution is meant for. -/
def dueNext (log : LoopLog) : List Registration := log.registrations.filter (·.due = log.resolves + 1)

theorem length_pending_add_resolved (log : LoopLog) :
    log.pending.length + log.resolved.length = log.registrations.length := by
  have split := List.length_eq_length_filter_add (l := log.registrations) fun reg => decide (log.resolves < reg.due)
  have others : log.resolved = log.registrations.filter fun reg => !decide (log.resolves < reg.due) := by
    refine List.filter_congr fun reg _ => ?_
    rw [← decide_not]
    exact decide_eq_decide.mpr Nat.not_lt.symm
  rw [others, pending, split]

/-- With one resolution more, those it was meant for are resolved as well. -/
theorem countP_resolved_succ (registrations : List Registration) (n : ℕ) (p : Registration → Bool) :
    (registrations.filter (·.due ≤ n + 1)).countP p =
      (registrations.filter (·.due ≤ n)).countP p + (registrations.filter (·.due = n + 1)).countP p := by
  induction registrations with
  | nil => rfl
  | cons reg rest ih =>
    have head : (if p reg && decide (reg.due ≤ n + 1) then 1 else 0) =
        (if p reg && decide (reg.due ≤ n) then 1 else 0) + if p reg && decide (reg.due = n + 1) then 1 else 0 := by
      cases p reg with
      | false => rfl
      | true =>
        simp only [Bool.true_and, decide_eq_true_eq]
        split <;> split <;> split <;> omega
    simp only [List.countP_filter, List.countP_cons] at ih ⊢
    rw [ih, head]
    omega

theorem countP_flatMap_tags (registrations : List Registration) (horizon : Horizon) (field : String) :
    (registrations.flatMap Registration.tags).countP (fun tag => tag.2 = (horizon, field)) =
      registrations.countP (·.Predicts horizon field) := by
  have counted := ForecastFeedbackLoop.countP_flatMap_tags (registrations.map Registration.entry) horizon field
  rw [List.flatMap_map, List.countP_map] at counted
  exact counted

theorem registrations_prefix {before history : List LoopCall} (within : before <+: history) :
    (ofHistory before).registrations <+: (ofHistory history).registrations := by
  obtain ⟨rest, rfl⟩ := within
  rw [ofHistory, ofHistory, List.foldl_append]
  generalize before.foldl record ⟨0, []⟩ = log
  induction rest generalizing log with
  | nil => exact List.prefix_refl _
  | cons call rest ih =>
    refine List.IsPrefix.trans ?_ (ih (log.record call))
    cases call with
    | register forecast => exact List.prefix_append _ _
    | resolve _ _ _ | replan _ => exact List.prefix_refl _

theorem Proper.of_prefix {before history : List LoopCall} (within : before <+: history)
    (proper : (ofHistory history).Proper) : (ofHistory before).Proper := by
  have registered := registrations_prefix within
  exact ⟨proper.distinct.sublist (registered.sublist.map _), fun reg member => proper.ahead reg (registered.mem member)⟩

end LoopLog

namespace LoopRun

open ForecastFeedbackLoop

/-- The run after a history of calls. -/
def after (run : LoopRun) (history : List LoopCall) : LoopRun := history.foldl step run

/-- A loop that has gone through the calls of a log. -/
structure Follows (run : LoopRun) (log : LoopLog) (calibration : CalibrationStore) : Prop where
  cycle : run.loop.cycle = log.resolves
  past : ∀ reg ∈ log.registrations, reg.after ≤ log.resolves
  pending : run.loop.pending.entries = log.pending.map Registration.entry
  samples : ∀ field horizon, run.loop.calibration.samplesOf (calibrationKey field horizon.name) =
    calibration.samplesOf (calibrationKey field horizon.name) + log.resolved.countP (·.Predicts horizon field)

section Step

variable {run : LoopRun} {log : LoopLog} {calibration : CalibrationStore}

theorem Follows.register (follows : run.Follows log calibration) {forecast : Forecast}
    (proper : (log.record (.register forecast)).Proper) :
    (run.step (.register forecast)).Follows (log.record (.register forecast)) calibration := by
  obtain ⟨cycle, past, pending, samples⟩ := follows
  obtain ⟨distinct, ahead⟩ := proper
  have looksAhead := ahead ⟨forecast, log.resolves⟩ (by simp [LoopLog.record])
  have waiting : log.resolves < (⟨forecast, log.resolves⟩ : Registration).due := by
    dsimp only [Registration.due] at looksAhead ⊢
    omega
  have fresh : forecast.forecastId ∉ run.loop.pending.keys := by
    intro stored
    rw [Dict.keys, pending, List.map_map] at stored
    obtain ⟨reg, member, same⟩ := List.mem_map.mp stored
    rw [LoopLog.record, List.map_append] at distinct
    refine (List.nodup_append'.mp distinct).2.2 ?_ (List.mem_singleton_self forecast.forecastId)
    exact List.mem_map.mpr ⟨reg, (List.mem_filter.mp member).1, same⟩
  refine ⟨cycle, ?_, ?_, ?_⟩
  · intro reg member
    rcases List.mem_append.mp member with old | new
    · exact past reg old
    · rw [List.mem_singleton.mp new]
      exact le_rfl
  · have stored := run.loop.pending.entries_set_of_not_mem fresh ⟨forecast, run.loop.cycle⟩
    rw [pending] at stored
    have more : (log.record (.register forecast)).pending = log.pending ++ [⟨forecast, log.resolves⟩] := by
      simp only [LoopLog.pending, LoopLog.record, List.filter_append, List.filter_cons, waiting, decide_true, if_true,
        List.filter_nil]
      rfl
    rw [more, List.map_append]
    refine stored.trans ?_
    rw [cycle]
    rfl
  · intro field horizon
    have same : (log.record (.register forecast)).resolved = log.resolved := by
      have open_ : ¬ (⟨forecast, log.resolves⟩ : Registration).due ≤ log.resolves := by omega
      simp only [LoopLog.resolved, LoopLog.record, List.filter_append, List.filter_cons, open_, decide_false,
        Bool.false_eq_true, if_false, List.filter_nil, List.append_nil]
      rfl
    rw [same]
    exact samples field horizon

/-- The entries that the next resolution finds mature. -/
theorem Follows.mature (follows : run.Follows log calibration) :
    run.loop.pending.entries.filter (ForecastFeedbackLoop.mature (run.loop.cycle + 1)) =
      log.dueNext.map Registration.entry := by
  obtain ⟨cycle, past, pending, -⟩ := follows
  rw [pending, List.filter_map, LoopLog.pending, List.filter_filter, LoopLog.dueNext, cycle]
  refine congrArg (List.map Registration.entry) (List.filter_congr fun reg member => ?_)
  have before := past reg member
  have isMature : ForecastFeedbackLoop.mature (log.resolves + 1) reg.entry = true ↔
      reg.forecast.cycleDistance ≤ log.resolves + 1 - reg.after := decide_eq_true_iff
  rw [Bool.eq_iff_iff, Function.comp_apply, Bool.and_eq_true, isMature, decide_eq_true_iff, decide_eq_true_iff,
    Registration.due]
  omega

theorem quiet_of_persists {actualValues : Dict String ℚ} {faults : WriteFaults} {now : ℚ}
    (persists : LoopCall.Persists (.resolve actualValues faults now)) : run.Quiet (.resolve actualValues faults now) :=
  fun i _ => persists i

/-- A resolution without a failed write of the plan tree returns the samples
that it has taken. -/
theorem resolve_returns {actualValues : Dict String ℚ} {faults : WriteFaults} {now : ℚ}
    (quiet : run.Quiet (.resolve actualValues faults now)) :
    ∃ results, (run.loop.resolve faults now actualValues run.disk).2.2 = .ok results ∧
      (run.step (.resolve actualValues faults now)).samples = run.samples ++ results := by
  obtain ⟨_, _, _, _, _, safe, _⟩ := resolvePending_spec faults now actualValues (run.loop.cycle + 1)
    run.loop.pending.entries ⟨run.loop.calibration, run.loop.planTree, run.disk, 0, 0, [], []⟩
  have raised : (run.loop.resolveLoop faults now actualValues run.disk).2 = none := safe quiet
  refine ⟨(run.loop.resolveLoop faults now actualValues run.disk).1.results, ?_, rfl⟩
  revert raised
  unfold ForecastFeedbackLoop.resolve
  rcases run.loop.resolveLoop faults now actualValues run.disk with ⟨state, _ | e⟩
  · exact fun _ => rfl
  · exact fun raised => nomatch raised

theorem Follows.resolve_results (follows : run.Follows log calibration) {actualValues : Dict String ℚ}
    {faults : WriteFaults} {now : ℚ} (quiet : run.Quiet (.resolve actualValues faults now)) :
    ∃ results, (run.loop.resolve faults now actualValues run.disk).2.2 = .ok results ∧
      (run.step (.resolve actualValues faults now)).samples = run.samples ++ results ∧
      results.map FeedbackResult.tag = log.dueNext.flatMap Registration.tags := by
  obtain ⟨results, returned, samples⟩ := resolve_returns quiet
  obtain ⟨added, more, tags, -⟩ := resolve_quiet quiet
  have same : results = added := List.append_cancel_left (samples.symm.trans more)
  refine ⟨results, returned, samples, ?_⟩
  rw [same, tags, follows.mature, List.flatMap_map]
  rfl

theorem Follows.resolve (follows : run.Follows log calibration) (proper : log.Proper) {actualValues : Dict String ℚ}
    {faults : WriteFaults} {now : ℚ} (quiet : run.Quiet (.resolve actualValues faults now)) :
    (run.step (.resolve actualValues faults now)).Follows (log.record (.resolve actualValues faults now)) calibration := by
  obtain ⟨results, returned, samples, tags⟩ := follows.resolve_results quiet
  obtain ⟨_, _, _, removed⟩ := resolve_quiet quiet
  obtain ⟨added, more, counted⟩ := run.samplesOf_step (.resolve actualValues faults now)
  have same : results = added := List.append_cancel_left (samples.symm.trans more)
  have mature := follows.mature
  obtain ⟨cycle, past, pending, before⟩ := follows
  refine ⟨?_, fun reg member => Nat.le_succ_of_le (past reg member), ?_, fun field horizon => ?_⟩
  · have next : (run.step (.resolve actualValues faults now)).loop.cycle = run.loop.cycle + 1 :=
      resolve_cycle faults now actualValues run.loop run.disk
    rw [next, cycle]
    rfl
  · rw [removed, Dict.entries_foldl_erase, mature, pending, List.filter_map]
    refine congrArg (List.map Registration.entry) ?_
    rw [LoopLog.pending, LoopLog.pending, List.filter_filter]
    refine List.filter_congr fun reg member => ?_
    have isDue : reg.forecast.forecastId ∈ (log.dueNext.map Registration.entry).map Prod.fst ↔
        reg.due = log.resolves + 1 := by
      rw [List.map_map, List.mem_map]
      constructor
      · rintro ⟨other, due, same⟩
        obtain ⟨registered, now⟩ := List.mem_filter.mp due
        rw [← List.inj_on_of_nodup_map proper.distinct registered member same]
        exact of_decide_eq_true now
      · intro now
        exact ⟨reg, List.mem_filter.mpr ⟨member, decide_eq_true now⟩, rfl⟩
    rw [Bool.eq_iff_iff, Bool.and_eq_true, decide_eq_true_iff, Function.comp_apply, decide_eq_true_iff,
      decide_eq_true_iff]
    have notDue := not_congr isDue
    simp only [Registration.entry, LoopLog.record] at notDue ⊢
    rw [notDue]
    omega
  · have tagged : added.countP (fun r => r.key = calibrationKey field horizon.name) =
        (added.map FeedbackResult.tag).countP fun tag => tag.2 = (horizon, field) := by
      rw [List.countP_map]
      refine List.countP_congr fun r _ => ?_
      rw [decide_eq_true_iff, Function.comp_apply, decide_eq_true_iff, r.key_eq_iff]
    have grown := LoopLog.countP_resolved_succ log.registrations log.resolves (·.Predicts horizon field)
    rw [counted, before, tagged, ← same, tags, LoopLog.countP_flatMap_tags, Nat.add_assoc]
    exact congrArg _ grown.symm

end Step

/-- A history of registrations and resolutions keeps the loop in step with its
log. -/
theorem follows_after (calibration : CalibrationStore) (planTree : PlanTree) (disk : Disk ℚ) (history : List LoopCall)
    (proper : (LoopLog.ofHistory history).Proper) (persists : ∀ call ∈ history, call.Persists) :
    ((start calibration planTree disk).after history).Follows (LoopLog.ofHistory history) calibration := by
  induction history using List.reverseRecOn with
  | nil => exact ⟨rfl, fun _ member => absurd member List.not_mem_nil, rfl, fun _ _ => rfl⟩
  | append_singleton before call ih =>
    have logs : LoopLog.ofHistory (before ++ [call]) = (LoopLog.ofHistory before).record call := by
      rw [LoopLog.ofHistory, List.foldl_append]
      rfl
    have runs : (start calibration planTree disk).after (before ++ [call]) =
        ((start calibration planTree disk).after before).step call := by
      rw [after, List.foldl_append]
      rfl
    have properBefore := proper.of_prefix (List.prefix_append before [call])
    have earlier := ih properBefore fun c member => persists c (List.mem_append_left _ member)
    have lastCall := persists call (by simp)
    rw [logs] at proper ⊢
    rw [runs]
    cases call with
    | register forecast => exact earlier.register proper
    | resolve actualValues faults now => exact earlier.resolve properBefore (quiet_of_persists lastCall)
    | replan planTree => exact ⟨earlier.cycle, earlier.past, earlier.pending, earlier.samples⟩

/-- A forecast registered after `r` resolutions is resolved by the one with
number `r + cycleDistance` and by no other, with one result for each field
that it predicts. The pending forecasts are those not yet resolved, and each
calibration record has grown by the resolved forecasts that predict its
field. -/
theorem resolve_when_due (calibration : CalibrationStore) (planTree : PlanTree) (disk : Disk ℚ)
    (history : List LoopCall) (proper : (LoopLog.ofHistory history).Proper)
    (persists : ∀ call ∈ history, call.Persists) :
    (∀ before actualValues faults now, before ++ [.resolve actualValues faults now] <+: history →
      let run := (start calibration planTree disk).after before
      let log := LoopLog.ofHistory before
      ∃ results, (run.loop.resolve faults now actualValues run.disk).2.2 = .ok results ∧
        results.map FeedbackResult.tag =
          (log.registrations.filter (·.due = log.resolves + 1)).flatMap Registration.tags) ∧
    ∀ before, before <+: history →
      let run := (start calibration planTree disk).after before
      let log := LoopLog.ofHistory before
      run.loop.pendingCount + log.resolved.length = log.registrations.length ∧
        ∀ field horizon, run.loop.calibration.samplesOf (calibrationKey field horizon.name) =
          calibration.samplesOf (calibrationKey field horizon.name) +
            log.resolved.countP (·.Predicts horizon field) := by
  have follows {before : List LoopCall} (within : before <+: history) :
      ((start calibration planTree disk).after before).Follows (LoopLog.ofHistory before) calibration :=
    follows_after calibration planTree disk before (proper.of_prefix within) fun call member =>
      persists call (within.mem member)
  constructor
  · intro before actualValues faults now within
    have earlier : before <+: history := (List.prefix_append _ _).trans within
    have lastCall := persists (.resolve actualValues faults now) (within.mem (by simp))
    obtain ⟨results, returned, -, tags⟩ := (follows earlier).resolve_results (quiet_of_persists lastCall)
    exact ⟨results, returned, tags⟩
  · intro before within
    have here := follows within
    refine ⟨?_, here.samples⟩
    have counted := (LoopLog.ofHistory before).length_pending_add_resolved
    rw [ForecastFeedbackLoop.pendingCount, Dict.size, here.pending, List.length_map]
    exact counted

/-- A long forecast and a short one, the short one registered one cycle
later. -/
def twoForecasts : List LoopCall :=
  [.register ⟨.long, 20, Dict.empty.set "load" (1 / 2), 1 / 2, 0, "f0"⟩, .resolve ∅ .none 0, .register
    { shortForecast with forecastId := "f1" }, .resolve ∅ .none 0]

theorem resolve_when_due_twoForecasts :
    let run := (start emptyCalibration linkedPlan fun _ => .missing).after twoForecasts
    run.loop.pendingCount + (LoopLog.ofHistory twoForecasts).resolved.length = 2 := by
  have proper : (LoopLog.ofHistory twoForecasts).Proper := by
    refine ⟨by decide, fun reg member => ?_⟩
    simp only [LoopLog.ofHistory, twoForecasts, LoopLog.record, List.foldl_cons, List.foldl_nil, List.nil_append,
      List.singleton_append, List.mem_cons, List.not_mem_nil, or_false] at member
    rcases member with rfl | rfl <;> decide
  have persists : ∀ call ∈ twoForecasts, call.Persists := by
    intro call member
    simp only [twoForecasts, List.mem_cons, List.not_mem_nil, or_false] at member
    rcases member with rfl | rfl | rfl | rfl
    · trivial
    · exact fun _ => rfl
    · trivial
    · exact fun _ => rfl
  exact ((resolve_when_due emptyCalibration linkedPlan (fun _ => .missing) twoForecasts proper persists).2
    twoForecasts (List.prefix_refl _)).1

end LoopRun

end Centroid
