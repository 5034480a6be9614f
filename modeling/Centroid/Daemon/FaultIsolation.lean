import Centroid.Daemon.CycleSteps

namespace Centroid

/-- What a call raised into its step. The call with a cycle number is repeated
without it instead. -/
def CallRecord.escaped : CallRecord → Option PyException
  | ⟨.resolveWithCycle, _⟩ => none
  | ⟨_, raised⟩ => raised

def CallRecord.entry? (record : CallRecord) : Option String := record.escaped.map record.call.step.entry

/-- The event whose append a call attempts. -/
def CallRecord.appended? : CallRecord → Option CycleEvent
  | ⟨.append event, _⟩ => some event
  | _ => none

/-- The event that a run with the given result appends. -/
def CycleOutcome.event (outcome : CycleOutcome) : CycleEvent :=
  ⟨outcome.cycleNumber, outcome.durationS, outcome.coherenceReport.map CoherenceReport.coherenceIndex,
    outcome.anomalyCount, outcome.completedAt⟩

namespace CycleSteps

variable {World α β : Type}

/-- What an action of one step leaves: its calls, of which one at most raised
into the step, and the counter of the loop. -/
structure Leaves (step : CycleStep) (advance : ℕ) (s next : DaemonState World) (outcome : Except PyException α)
    (block : List CallRecord) : Prop where
  calls : next.calls = s.calls ++ block
  cycle : next.loop.cycle = s.loop.cycle + advance
  ofStep : ∀ record ∈ block, record.call.step = step
  escaped : block.filterMap CallRecord.escaped = (raisedBy outcome).toList

/-- An action of one step, whatever it is made on. -/
def Performs (step : CycleStep) (advance : ℕ) (x : Faulty PyException (DaemonState World) α) : Prop :=
  ∀ s, ∃ outcome next block, x.runFrom s = (outcome, next) ∧ Leaves step advance s next outcome block ∧ block ≠ []

theorem Leaves.of_pure (step : CycleStep) (s : DaemonState World) (a : α) : Leaves step 0 s s (.ok a) [] :=
  ⟨(List.append_nil _).symm, rfl, fun _ member => absurd member List.not_mem_nil, rfl⟩

theorem Leaves.trans {step : CycleStep} {s middle next : DaemonState World} {a : α} {outcome : Except PyException β}
    {first second : List CallRecord} (before : Leaves step 0 s middle (.ok a) first)
    (after : Leaves step 0 middle next outcome second) : Leaves step 0 s next outcome (first ++ second) where
  calls := by rw [after.calls, before.calls, List.append_assoc]
  cycle := by rw [after.cycle, before.cycle]
  ofStep record member := (List.mem_append.mp member).elim (before.ofStep record) (after.ofStep record)
  escaped := by
    rw [List.filterMap_append, before.escaped, after.escaped]
    rfl

theorem Leaves.nonempty {step : CycleStep} {advance : ℕ} {s next : DaemonState World} {exc : PyException}
    {block : List CallRecord} (leaves : Leaves step advance s next (.error exc : Except PyException α) block) :
    block ≠ [] := by
  intro empty
  have := leaves.escaped
  rw [empty] at this
  cases this

/-- A step raises at once what its first part raises, and goes on with the rest
otherwise. -/
theorem Leaves.bind {step : CycleStep} {x : Faulty PyException (DaemonState World) α}
    {f : α → Faulty PyException (DaemonState World) β} {s middle : DaemonState World} {outcome : Except PyException α}
    {first : List CallRecord} (run : x.runFrom s = (outcome, middle)) (before : Leaves step 0 s middle outcome first)
    (after : ∀ a, outcome = .ok a → ∃ outcome next second, (f a).runFrom middle = (outcome, next) ∧
      Leaves step 0 middle next outcome second ∧ (first ≠ [] ∨ second ≠ [])) :
    ∃ outcome next block, (x >>= f).runFrom s = (outcome, next) ∧ Leaves step 0 s next outcome block ∧ block ≠ [] := by
  cases outcome with
  | error exc =>
    exact ⟨.error exc, middle, first, Faulty.runFrom_bind_of_error run f,
      ⟨before.calls, before.cycle, before.ofStep, before.escaped⟩, before.nonempty⟩
  | ok a =>
    obtain ⟨outcome, next, second, rest, leaves, busy⟩ := after a rfl
    refine ⟨outcome, next, first ++ second, ?_, before.trans leaves, ?_⟩
    · rw [Faulty.runFrom_bind_of_ok run, rest]
    · rcases busy with nonempty | nonempty
      · exact List.append_ne_nil_of_left_ne_nil nonempty _
      · exact List.append_ne_nil_of_right_ne_nil _ nonempty

theorem call_leaves (made : ComponentCall) (direct : made ≠ .resolveWithCycle)
    (act : World → Except PyException α × World) (s : DaemonState World) :
    ∃ outcome next, (call made act).runFrom s = (outcome, next) ∧
      Leaves made.step 0 s next outcome [⟨made, raisedBy outcome⟩] := by
  refine ⟨(act s.world).1, _, rfl, rfl, rfl, ?_, ?_⟩
  · intro record member
    rw [List.mem_singleton.mp member]
  · cases made with
    | resolveWithCycle => exact absurd rfl direct
    | _ => cases (act s.world).1 <;> rfl

theorem call_performs {step : CycleStep} (made : ComponentCall) (ofStep : made.step = step)
    (direct : made ≠ .resolveWithCycle) (act : World → Except PyException α × World) :
    Performs step 0 (call made act) := by
  intro s
  subst ofStep
  obtain ⟨outcome, next, run, leaves⟩ := call_leaves made direct act s
  exact ⟨outcome, next, _, run, leaves, List.cons_ne_nil _ _⟩

theorem coherenceStep_performs (actions : CycleActions World) (snapshot : Option WorldSnapshot) :
    Performs .coherence 0 (coherenceStep actions snapshot) := by
  intro s
  have ticks := call_performs .coherenceTick rfl (by simp) actions.coherenceTick
  cases snapshot with
  | none =>
    refine Leaves.bind (Faulty.runFrom_pure () s) (Leaves.of_pure _ s ()) ?_
    intro a _
    obtain ⟨outcome, next, block, run, leaves, busy⟩ := ticks s
    exact ⟨outcome, next, block, run, leaves, Or.inr busy⟩
  | some _ =>
    obtain ⟨outcome, middle, run, leaves⟩ := call_leaves .mkdirState (by simp) actions.mkdirState s
    refine Leaves.bind run leaves ?_
    intro a _
    obtain ⟨outcome, next, block, run, leaves, busy⟩ := ticks middle
    exact ⟨outcome, next, block, run, leaves, Or.inr busy⟩

theorem register_leaves (forecast : Forecast) (s : DaemonState World) :
    ∃ next, (register forecast).runFrom s = (.ok (), next) ∧
      Leaves .forecast 0 s next (.ok () : Except PyException Unit) [⟨.register forecast.forecastId, none⟩] := by
  refine ⟨_, rfl, rfl, rfl, ?_, rfl⟩
  intro record member
  rw [List.mem_singleton.mp member]
  rfl

theorem registerAll_leaves (forecasts : List Forecast) (s : DaemonState World) :
    ∃ next block, (registerAll forecasts).runFrom s = (.ok (), next) ∧
      Leaves .forecast 0 s next (.ok () : Except PyException Unit) block := by
  induction forecasts generalizing s with
  | nil => exact ⟨s, [], rfl, .of_pure _ s ()⟩
  | cons forecast rest ih =>
    obtain ⟨middle, first, before⟩ := register_leaves forecast s
    obtain ⟨next, block, run, after⟩ := ih middle
    refine ⟨next, _, ?_, before.trans after⟩
    rw [registerAll, Faulty.runFrom_bind_of_ok first]
    exact run

theorem forecastStep_performs (configured : ConfiguredSteps) (actions : CycleActions World) (values : Dict String ℚ) :
    Performs .forecast 0 (forecastStep configured actions values) := by
  intro s
  obtain ⟨outcome, middle, run, leaves⟩ := call_leaves .generate (by simp) (actions.generate values) s
  refine Leaves.bind run leaves ?_
  intro forecasts _
  obtain ⟨next, block, registered, after⟩ :=
    registerAll_leaves (if configured.feedbackLoop then forecasts else []) middle
  refine ⟨.ok forecasts, next, block, ?_, ⟨after.calls, after.cycle, after.ofStep, after.escaped⟩,
    Or.inl (List.cons_ne_nil _ _)⟩
  rw [Faulty.runFrom_bind_of_ok registered]
  rfl

/-- The call with a cycle number changes nothing, so the counter advances once
wherever the call without it ends. -/
theorem feedbackStep_performs (actions : CycleActions World) (values : Dict String ℚ) :
    Performs .feedback 1 (feedbackStep actions values) := by
  intro s
  let retried : DaemonState World := ⟨s.loop, s.world, s.calls ++ [⟨.resolveWithCycle, some arityError⟩]⟩
  have first : (resolveWithCycle : Faulty PyException (DaemonState World) (List FeedbackResult)).runFrom s =
      (.error arityError, retried) := rfl
  obtain ⟨outcome, next, run, calls, cycle⟩ : ∃ outcome next,
      (resolve (actions.resolveBody values)).runFrom retried = (outcome, next) ∧
        next.calls = retried.calls ++ [⟨.resolve, raisedBy outcome⟩] ∧ next.loop.cycle = retried.loop.cycle + 1 :=
    ⟨_, _, rfl, rfl, rfl⟩
  refine ⟨outcome, next, [⟨.resolveWithCycle, some arityError⟩, ⟨.resolve, raisedBy outcome⟩], ?_, ⟨?_, cycle, ?_, ?_⟩, ?_⟩
  · rw [feedbackStep, Faulty.runFrom_tryCatch_of_error first]
    exact run
  · rw [calls]
    simp [retried]
  · intro record member
    rcases List.mem_pair.mp member with rfl | rfl <;> rfl
  · cases outcome <;> rfl
  · exact List.cons_ne_nil _ _

/-- What a guarded step leaves: it returns, makes its calls exactly when it is
configured, and records what they raised into it. -/
structure Guards (step : CycleStep) (configured : Bool) (advance : ℕ) (s next : DaemonState World)
    (errors : List String) (block : List CallRecord) : Prop where
  calls : next.calls = s.calls ++ block
  cycle : next.loop.cycle = s.loop.cycle + if configured then advance else 0
  ofStep : ∀ record ∈ block, record.call.step = step
  executed : block ≠ [] ↔ configured = true
  errors : errors = block.filterMap CallRecord.entry?
  once : (block.filterMap CallRecord.escaped).length ≤ 1

theorem entries_ofStep {step : CycleStep} {block : List CallRecord}
    (ofStep : ∀ record ∈ block, record.call.step = step) :
    block.filterMap CallRecord.entry? = (block.filterMap CallRecord.escaped).map step.entry := by
  rw [List.map_filterMap]
  refine List.filterMap_congr ?_
  intro record member
  rw [CallRecord.entry?, ofStep record member]

theorem guarded_of_leaves {step : CycleStep} {advance : ℕ} {body : Faulty PyException (DaemonState World) α}
    {s next : DaemonState World} {outcome : Except PyException α} {block : List CallRecord}
    (run : body.runFrom s = (outcome, next)) (leaves : Leaves step advance s next outcome block) (busy : block ≠ []) :
    ∃ result errors, (guarded step true body).runFrom s = (.ok (result, errors), next) ∧
      Guards step true advance s next errors block := by
  have entries := entries_ofStep leaves.ofStep
  rw [leaves.escaped] at entries
  have once : (block.filterMap CallRecord.escaped).length ≤ 1 := by
    rw [leaves.escaped]
    cases raisedBy outcome <;> simp
  cases outcome with
  | ok a =>
    exact ⟨some a, [], Faulty.runFrom_attempt_of_ok run _, leaves.calls, leaves.cycle, leaves.ofStep,
      iff_of_true busy rfl, entries.symm, once⟩
  | error exc =>
    exact ⟨none, [step.entry exc], Faulty.runFrom_attempt_of_error run _, leaves.calls, leaves.cycle, leaves.ofStep,
      iff_of_true busy rfl, entries.symm, once⟩

theorem guarded_absent (step : CycleStep) (advance : ℕ) (body : Faulty PyException (DaemonState World) α)
    (s : DaemonState World) : (guarded step false body).runFrom s = (.ok (none, []), s) ∧
      Guards step false advance s s [] [] :=
  ⟨rfl, (List.append_nil _).symm, rfl, fun _ member => absurd member List.not_mem_nil, by simp, rfl, Nat.zero_le _⟩

theorem Performs.guarded {step : CycleStep} {advance : ℕ} {body : Faulty PyException (DaemonState World) α}
    (performs : Performs step advance body) (configured : Bool) (s : DaemonState World) :
    ∃ result errors next block, (guarded step configured body).runFrom s = (.ok (result, errors), next) ∧
      Guards step configured advance s next errors block := by
  cases configured with
  | false =>
    obtain ⟨run, guards⟩ := guarded_absent step advance body s
    exact ⟨none, [], s, [], run, guards⟩
  | true =>
    obtain ⟨outcome, next, block, run, leaves, busy⟩ := performs s
    obtain ⟨result, errors, returned, guards⟩ := guarded_of_leaves run leaves busy
    exact ⟨result, errors, next, block, returned, guards⟩

/-- The append is attempted once where there is a store. -/
theorem guarded_append (configured : Bool) (event : CycleEvent) (act : World → Except PyException Unit × World)
    (s : DaemonState World) :
    ∃ result errors next block, (CycleSteps.guarded .memory configured (call (.append event) act)).runFrom s =
        (.ok (result, errors), next) ∧ Guards .memory configured 0 s next errors block ∧
      block.filterMap CallRecord.appended? = if configured then [event] else [] := by
  cases configured with
  | false =>
    obtain ⟨run, guards⟩ := guarded_absent .memory 0 (call (.append event) act) s
    exact ⟨none, [], s, [], run, guards, rfl⟩
  | true =>
    obtain ⟨outcome, next, run, leaves⟩ := call_leaves (.append event) (by simp) act s
    obtain ⟨result, errors, returned, guards⟩ := guarded_of_leaves run leaves (List.cons_ne_nil _ _)
    exact ⟨result, errors, next, _, returned, guards, rfl⟩

theorem Guards.appended {step : CycleStep} {configured : Bool} {advance : ℕ} {s next : DaemonState World}
    {errors : List String} {block : List CallRecord} (guards : Guards step configured advance s next errors block)
    (other : step ≠ .memory) : block.filterMap CallRecord.appended? = [] := by
  refine List.filterMap_eq_nil_iff.mpr ?_
  intro record member
  have ofStep := guards.ofStep record member
  obtain ⟨made, raised⟩ := record
  cases made with
  | append event => exact absurd ofStep.symm other
  | _ => rfl

/-- What a run must be whatever its steps raise: the calls stand in the order of
the steps, a step is made exactly when it is configured, the errors are what
escaped from the calls, at most one for each step, and one event is appended. -/
structure IsolatedRun (configured : ConfiguredSteps) (cycleNumber : ℕ) (outcome : CycleOutcome)
    (ledger : List CallRecord) : Prop where
  inOrder : ledger.Pairwise fun earlier later => earlier.call.step.place ≤ later.call.step.place
  executed : ∀ step, (∃ record ∈ ledger, record.call.step = step) ↔ configured.includes cycleNumber step = true
  errors : outcome.errors = ledger.filterMap CallRecord.entry?
  once : (ledger.filter fun record => record.escaped.isSome).Pairwise fun earlier later =>
    earlier.call.step.place < later.call.step.place
  appended : ledger.filterMap CallRecord.appended? = if configured.memoryStore then [outcome.event] else []

/-- The calls of a run, step by step. -/
def blockOf (sensory selfModel coherence forecast feedback memory : List CallRecord) : CycleStep → List CallRecord
  | .sensory => sensory
  | .selfModel => selfModel
  | .coherence => coherence
  | .forecast => forecast
  | .feedback => feedback
  | .memory => memory

theorem all_inOrder : CycleStep.all.Pairwise fun earlier later => earlier.place < later.place := by
  decide

theorem mem_all (step : CycleStep) : step ∈ CycleStep.all := by
  cases step <;> decide

section

variable {block : CycleStep → List CallRecord} (ofStep : ∀ step, ∀ record ∈ block step, record.call.step = step)

include ofStep

theorem blocks_inOrder : (CycleStep.all.flatMap block).Pairwise fun earlier later =>
    earlier.call.step.place ≤ later.call.step.place := by
  refine List.pairwise_flatMap.mpr ⟨?_, ?_⟩
  · intro step _
    refine List.pairwise_of_forall_mem_list ?_
    intro earlier first later second
    rw [ofStep step earlier first, ofStep step later second]
  · refine all_inOrder.imp ?_
    intro before after ordered earlier first later second
    rw [ofStep before earlier first, ofStep after later second]
    exact ordered.le

theorem blocks_executed (step : CycleStep) :
    (∃ record ∈ CycleStep.all.flatMap block, record.call.step = step) ↔ block step ≠ [] := by
  constructor
  · rintro ⟨record, member, rfl⟩
    obtain ⟨step, _, inside⟩ := List.mem_flatMap.mp member
    rw [ofStep step record inside]
    exact List.ne_nil_of_mem inside
  · intro nonempty
    obtain ⟨record, member⟩ := List.exists_mem_of_ne_nil _ nonempty
    exact ⟨record, List.mem_flatMap.mpr ⟨step, mem_all step, member⟩, ofStep step record member⟩

theorem blocks_once (once : ∀ step, ((block step).filterMap CallRecord.escaped).length ≤ 1) :
    ((CycleStep.all.flatMap block).filter fun record => record.escaped.isSome).Pairwise fun earlier later =>
      earlier.call.step.place < later.call.step.place := by
  rw [List.filter_flatMap]
  refine List.pairwise_flatMap.mpr ⟨?_, ?_⟩
  · intro step _
    have few : ((block step).filter fun record => record.escaped.isSome).length ≤ 1 := by
      rw [← List.countP_eq_length_filter, ← List.length_filterMap_eq_countP]
      exact once step
    generalize ((block step).filter fun record => record.escaped.isSome) = raising at few
    cases raising with
    | nil => exact .nil
    | cons record rest =>
      rw [List.length_cons] at few
      rw [List.length_eq_zero_iff.mp (show rest.length = 0 by omega)]
      exact List.pairwise_singleton _ _
  · refine all_inOrder.imp ?_
    intro before after ordered earlier first later second
    rw [ofStep before earlier (List.mem_filter.mp first).1, ofStep after later (List.mem_filter.mp second).1]
    exact ordered

end

theorem run_isolated (configured : ConfiguredSteps) (cycleNumber : ℕ) (actions : CycleActions World)
    (s : DaemonState World) : ∃ outcome next ledger,
      (run configured cycleNumber actions).runFrom s = (.ok outcome, next) ∧ next.calls = s.calls ++ ledger ∧
        IsolatedRun configured cycleNumber outcome ledger ∧
        next.loop.cycle = s.loop.cycle + if configured.feedbackLoop then 1 else 0 := by
  let includes := configured.includes cycleNumber
  have scans : Performs .sensory 0 (call .runStartupScan actions.runStartupScan) := call_performs _ rfl (by simp) _
  have ticks : Performs .selfModel 0 (call .selfModelTick actions.selfModelTick) := call_performs _ rfl (by simp) _
  obtain ⟨_, sensoryErrors, s₁, sensory, ran₁, did₁⟩ := scans.guarded (includes .sensory) s
  obtain ⟨snapshot, selfModelErrors, s₂, selfModel, ran₂, did₂⟩ := ticks.guarded (includes .selfModel) s₁
  let values := CycleRunner.currentValues snapshot
  obtain ⟨report, coherenceErrors, s₃, coherence, ran₃, did₃⟩ :=
    (coherenceStep_performs actions snapshot).guarded (includes .coherence) s₂
  obtain ⟨forecasts, forecastErrors, s₄, forecast, ran₄, did₄⟩ :=
    (forecastStep_performs configured actions values).guarded (includes .forecast) s₃
  obtain ⟨results, feedbackErrors, s₅, feedback, ran₅, did₅⟩ :=
    (feedbackStep_performs actions values).guarded (includes .feedback) s₄
  let event : CycleEvent := ⟨cycleNumber, duration actions, report.map CoherenceReport.coherenceIndex,
    snapshot.elim 0 WorldSnapshot.anomalyCount, actions.completedAt⟩
  obtain ⟨_, memoryErrors, s₆, memory, ran₆, did₆, appended⟩ :=
    guarded_append (includes .memory) event (actions.append event) s₅
  let block := blockOf sensory selfModel coherence forecast feedback memory
  have guards : ∀ step, ∃ advance errors, ∃ before after : DaemonState World,
      Guards step (includes step) advance before after errors (block step) := by
    intro step
    cases step with
    | sensory => exact ⟨_, _, _, _, did₁⟩
    | selfModel => exact ⟨_, _, _, _, did₂⟩
    | coherence => exact ⟨_, _, _, _, did₃⟩
    | forecast => exact ⟨_, _, _, _, did₄⟩
    | feedback => exact ⟨_, _, _, _, did₅⟩
    | memory => exact ⟨_, _, _, _, did₆⟩
  have ofStep : ∀ step, ∀ record ∈ block step, record.call.step = step := by
    intro step
    obtain ⟨_, _, _, _, did⟩ := guards step
    exact did.ofStep
  have executed : ∀ step, block step ≠ [] ↔ includes step = true := by
    intro step
    obtain ⟨_, _, _, _, did⟩ := guards step
    exact did.executed
  have once : ∀ step, ((block step).filterMap CallRecord.escaped).length ≤ 1 := by
    intro step
    obtain ⟨_, _, _, _, did⟩ := guards step
    exact did.once
  have ledgerEq : CycleStep.all.flatMap block =
      sensory ++ (selfModel ++ (coherence ++ (forecast ++ (feedback ++ (memory ++ []))))) := rfl
  let outcome : CycleOutcome :=
    { cycleNumber := cycleNumber
      startedAt := actions.startedAt
      completedAt := actions.completedAt
      durationS := duration actions
      selfModelSnapshot := snapshot
      coherenceReport := report
      forecasts := forecasts
      feedbackResults := results
      anomalyCount := snapshot.elim 0 WorldSnapshot.anomalyCount
      errors := sensoryErrors ++ selfModelErrors ++ coherenceErrors ++ forecastErrors ++ feedbackErrors ++ memoryErrors }
  refine ⟨outcome, s₆, CycleStep.all.flatMap block, ?_, ?_, ⟨blocks_inOrder ofStep, ?_, ?_, blocks_once ofStep once, ?_⟩, ?_⟩
  · refine (Faulty.runFrom_bind_of_ok ran₁ _).trans ?_
    refine (Faulty.runFrom_bind_of_ok ran₂ _).trans ?_
    refine (Faulty.runFrom_bind_of_ok ran₃ _).trans ?_
    refine (Faulty.runFrom_bind_of_ok ran₄ _).trans ?_
    refine (Faulty.runFrom_bind_of_ok ran₅ _).trans ?_
    refine (Faulty.runFrom_bind_of_ok ran₆ _).trans ?_
    exact Faulty.runFrom_pure outcome s₆
  · rw [did₆.calls, did₅.calls, did₄.calls, did₃.calls, did₂.calls, did₁.calls, ledgerEq]
    simp only [List.append_assoc, List.append_nil]
  · intro step
    rw [blocks_executed ofStep, executed]
  · show sensoryErrors ++ selfModelErrors ++ coherenceErrors ++ forecastErrors ++ feedbackErrors ++ memoryErrors = _
    rw [ledgerEq]
    simp only [List.filterMap_append, List.append_nil, List.append_assoc, ← did₁.errors, ← did₂.errors,
      ← did₃.errors, ← did₄.errors, ← did₅.errors, ← did₆.errors]
  · rw [ledgerEq]
    simp only [List.filterMap_append, List.append_nil, List.nil_append, appended,
      did₁.appended (by simp), did₂.appended (by simp), did₃.appended (by simp), did₄.appended (by simp),
      did₅.appended (by simp)]
    rfl
  · rw [did₆.cycle, did₅.cycle, did₄.cycle, did₃.cycle, did₂.cycle, did₁.cycle]
    simp only [ite_self, Nat.add_zero]
    rfl

/-- Over any sequence of runs: each returns, each is isolated with the calls
that it made, and the counter of the feedback loop counts the runs. -/
theorem runAll_isolated (configured : ConfiguredSteps) (runs : List (ℕ × CycleActions World)) (s : DaemonState World) :
    ∃ outcomes next ledgers, (runAll configured runs).runFrom s = (.ok outcomes, next) ∧
      next.calls = s.calls ++ ledgers.flatten ∧
      List.Forall₂ (fun (run : ℕ × CycleActions World) (made : CycleOutcome × List CallRecord) =>
        IsolatedRun configured run.1 made.1 made.2) runs (outcomes.zip ledgers) ∧
      outcomes.length = runs.length ∧ ledgers.length = runs.length ∧
      next.loop.cycle = s.loop.cycle + if configured.feedbackLoop then runs.length else 0 := by
  induction runs generalizing s with
  | nil =>
    refine ⟨[], s, [], rfl, (List.append_nil _).symm, .nil, rfl, rfl, ?_⟩
    simp
  | cons entry rest ih =>
    obtain ⟨cycleNumber, actions⟩ := entry
    obtain ⟨outcome, middle, ledger, first, calls, isolated, counted⟩ := run_isolated configured cycleNumber actions s
    obtain ⟨outcomes, next, ledgers, later, laterCalls, laterIsolated, lengths, ledgerLengths, laterCounted⟩ := ih middle
    refine ⟨outcome :: outcomes, next, ledger :: ledgers, ?_, ?_, .cons isolated laterIsolated, ?_, ?_, ?_⟩
    · rw [runAll, Faulty.runFrom_bind_of_ok first, Faulty.runFrom_bind_of_ok later]
      rfl
    · rw [laterCalls, calls, List.flatten_cons, List.append_assoc]
    · rw [List.length_cons, List.length_cons, lengths]
    · rw [List.length_cons, List.length_cons, ledgerLengths]
    · rw [laterCounted, counted, List.length_cons]
      split <;> omega

/-- The feedback loop of the planner is a loop of this kind: its `resolve`
increments the counter and then does what its body says. -/
theorem resolve_ofLoop (faults : WriteFaults) (now : ℚ) (raise : PlanTreeError → PyException) (values : Dict String ℚ)
    (loop : ForecastFeedbackLoop) (disk : Disk ℚ) (calls : List CallRecord) : ∃ record,
      (resolve (loopBody faults now raise values)).runFrom (ofLoop loop disk calls) =
        ((loop.resolve faults now values disk).2.2.mapError raise,
          ofLoop (loop.resolve faults now values disk).1 (loop.resolve faults now values disk).2.1 (calls ++ [record])) := by
  simp only [ForecastFeedbackLoop.resolve, ForecastFeedbackLoop.resolveLoop, resolve, loopBody, ofLoop,
    Faulty.runFrom_ofFun]
  generalize ForecastFeedbackLoop.resolvePending faults now (loop.cycle + 1) values loop.pending.entries
    ⟨loop.calibration, loop.planTree, disk, 0, 0, [], []⟩ = ended
  obtain ⟨state, raised⟩ := ended
  cases raised with
  | none => exact ⟨_, rfl⟩
  | some e => exact ⟨_, rfl⟩

end CycleSteps

end Centroid
