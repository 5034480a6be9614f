import Centroid.Daemon.Scheduler

namespace Centroid

namespace CycleScheduler

variable {env : SchedulerEnvironment} {config : SchedulerConfig} {self : CycleScheduler} {cycleNumber turns : ℕ}

@[simp] theorem begun_nil : begun [] = [] := List.filterMap_nil

@[simp] theorem begun_append (first second : List SchedulerEvent) :
    begun (first ++ second) = begun first ++ begun second := List.filterMap_append

@[simp] theorem begun_run (events : List SchedulerEvent) :
    begun (.runnerRun cycleNumber :: events) = cycleNumber :: begun events := rfl

@[simp] theorem begun_stop (events : List SchedulerEvent) : begun (.stop :: events) = begun events := rfl

@[simp] theorem begun_printed (line : CycleLine) (events : List SchedulerEvent) :
    begun (.printed line :: events) = begun events := rfl

@[simp] theorem begun_stopped (completed : ℕ) (events : List SchedulerEvent) :
    begun (.stopped completed :: events) = begun events := rfl

@[simp] theorem begun_sleep (seconds : ℚ) : begun (sleep seconds) = [] := by
  unfold sleep
  split <;> rfl

@[simp] theorem begun_mayStop (called : Bool) : begun (self.mayStop called).2 = [] := by
  cases called <;> rfl

theorem mem_begun {events : List SchedulerEvent} : cycleNumber ∈ begun events ↔ .runnerRun cycleNumber ∈ events := by
  simp only [begun, List.mem_filterMap]
  constructor
  · rintro ⟨event, member, same⟩
    cases event with
    | runnerRun k => cases same; exact member
    | _ => cases same
  · intro member
    exact ⟨_, member, rfl⟩

/-- Where no run begins in the second part, or no stop stands in the first, the
order is that of the parts. -/
theorem NoRunAfterStop.append {first second : List SchedulerEvent} (inFirst : NoRunAfterStop first)
    (inSecond : NoRunAfterStop second) (apart : .stop ∉ first ∨ begun second = []) :
    NoRunAfterStop (first ++ second) := by
  refine List.pairwise_append.mpr ⟨inFirst, inSecond, ?_⟩
  intro earlier before later after isStop k isRun
  subst isStop isRun
  rcases apart with noStop | noRun
  · exact noStop before
  · have := mem_begun.mpr after
    rw [noRun] at this
    exact List.not_mem_nil this

theorem NoRunAfterStop.of_begun_nil {events : List SchedulerEvent} (noRun : begun events = []) :
    NoRunAfterStop events := by
  refine List.pairwise_of_forall_mem_list ?_
  intro earlier _ later member _ k isRun
  have := mem_begun.mpr (isRun ▸ member)
  rw [noRun] at this
  exact List.not_mem_nil this

theorem NoRunAfterStop.not_begun (before after : List SchedulerEvent)
    (order : NoRunAfterStop (before ++ .stop :: after)) : begun after = [] := by
  have later := (List.pairwise_cons.mp (List.pairwise_append.mp order).2.1).1
  refine List.eq_nil_iff_forall_not_mem.mpr ?_
  intro k member
  exact later _ (mem_begun.mp member) rfl k rfl

@[simp] theorem mayStop_state (called : Bool) :
    (self.mayStop called).1 = ⟨self.config, self.stopFlag || called, self.completedCycles⟩ := by
  cases called <;> simp [mayStop, stop]

def stopEvents (called : Bool) : List SchedulerEvent := if called then [.stop] else []

@[simp] theorem mayStop_events (called : Bool) : (self.mayStop called).2 = stopEvents called := by
  cases called <;> rfl

@[simp] theorem begun_stopEvents (called : Bool) : begun (stopEvents called) = [] := by
  cases called <;> rfl

theorem stop_not_mem_sleep (seconds : ℚ) : SchedulerEvent.stop ∉ sleep seconds := by
  unfold sleep
  split <;> simp

theorem limitReached_eq_false :
    self.limitReached = false ↔ ∀ n, self.config.maxCycles = some n → self.completedCycles < n := by
  unfold limitReached
  cases self.config.maxCycles <;> simp

/-- The loop goes on after a cycle. -/
def GoesOn (env : SchedulerEnvironment) (cycleNumber : ℕ) (self : CycleScheduler) : Prop :=
  (∃ result, env.runnerRun cycleNumber = .ok result) ∧ self.stopFlag = false ∧ env.stopInCycle cycleNumber = false ∧
    ∀ n, self.config.maxCycles = some n → self.completedCycles + 1 < n

/-- A turn begins one run, with nothing asked before it. Either the loop goes on
and only a stop after the test of the flag is in the record, or it is left. -/
theorem turn_cases (env : SchedulerEnvironment) (cycleNumber : ℕ) (self : CycleScheduler) :
    (GoesOn env cycleNumber self ∧ ∃ quiet, begun quiet = [] ∧ .stop ∉ quiet ∧
      turn env cycleNumber self =
        (⟨self.config, env.stopAfterCycle cycleNumber, self.completedCycles + 1⟩,
          (.runnerRun cycleNumber :: quiet) ++ stopEvents (env.stopAfterCycle cycleNumber), true)) ∨
    (¬ GoesOn env cycleNumber self ∧ ∃ next quiet, begun quiet = [] ∧
      turn env cycleNumber self = (next, .runnerRun cycleNumber :: quiet, false)) := by
  cases outcome : env.runnerRun cycleNumber with
  | error exc =>
    refine Or.inr ⟨?_, (self.mayStop (env.stopInCycle cycleNumber)).1,
      stopEvents (env.stopInCycle cycleNumber), begun_stopEvents _, ?_⟩
    · rintro ⟨⟨result, isOk⟩, _⟩
      rw [outcome] at isOk
      cases isOk
    · simp only [turn, outcome, mayStop_events]
  | ok result =>
    have ended : turn env cycleNumber self =
        let counted : CycleScheduler :=
          ⟨self.config, self.stopFlag || env.stopInCycle cycleNumber, self.completedCycles + 1⟩
        let events := .runnerRun cycleNumber :: stopEvents (env.stopInCycle cycleNumber) ++ [.printed (.ofResult result)]
        if counted.limitReached then (counted, events ++ [.stopped counted.completedCycles], false)
        else if counted.stopFlag then (counted, events ++ [.stopped counted.completedCycles], false)
        else
          let elapsed := env.cycleEnd cycleNumber - env.cycleStart cycleNumber
          (⟨self.config, counted.stopFlag || env.stopAfterCycle cycleNumber, counted.completedCycles⟩,
            events ++ sleep (max 0 (self.config.tickIntervalS - elapsed)) ++ stopEvents (env.stopAfterCycle cycleNumber),
            true) := by
      simp only [turn, outcome, mayStop_state, mayStop_events]
    simp only at ended
    by_cases limit : limitReached
        ⟨self.config, self.stopFlag || env.stopInCycle cycleNumber, self.completedCycles + 1⟩ = true
    · rw [if_pos limit] at ended
      refine Or.inr ⟨?_, _, _, ?_, ended⟩
      · rintro ⟨_, _, _, below⟩
        rw [limitReached_eq_false.mpr below] at limit
        cases limit
      · simp
    · rw [if_neg limit] at ended
      have below := limitReached_eq_false.mp (Bool.eq_false_iff.mpr limit)
      by_cases flag : (self.stopFlag || env.stopInCycle cycleNumber) = true
      · rw [if_pos flag] at ended
        refine Or.inr ⟨?_, _, _, ?_, ended⟩
        · rintro ⟨_, flagClear, cycleClear, _⟩
          rw [flagClear, cycleClear] at flag
          cases flag
        · simp
      · rw [if_neg flag] at ended
        obtain ⟨flagClear, cycleClear⟩ := Bool.or_eq_false_iff.mp (Bool.eq_false_iff.mpr flag)
        refine Or.inl ⟨⟨⟨result, outcome⟩, flagClear, cycleClear, below⟩, ?_⟩
        rw [flagClear, cycleClear] at ended
        refine ⟨_, ?_, ?_, ended⟩
        · simp
        · simp [stopEvents, stop_not_mem_sleep]

theorem loop_of_goesOn (turns : ℕ) (goes : GoesOn env cycleNumber self) : ∃ quiet, begun quiet = [] ∧ .stop ∉ quiet ∧
    (loop env (turns + 1) cycleNumber self).2 =
      (.runnerRun cycleNumber :: quiet) ++ stopEvents (env.stopAfterCycle cycleNumber) ++
        (loop env turns (cycleNumber + 1)
          ⟨self.config, env.stopAfterCycle cycleNumber, self.completedCycles + 1⟩).2 := by
  rcases turn_cases env cycleNumber self with ⟨_, quiet, noRun, noStop, taken⟩ | ⟨leaves, _⟩
  · refine ⟨quiet, noRun, noStop, ?_⟩
    simp only [loop, taken]
  · exact absurd goes leaves

theorem loop_of_not_goesOn (turns : ℕ) (leaves : ¬ GoesOn env cycleNumber self) : ∃ quiet, begun quiet = [] ∧
    (loop env (turns + 1) cycleNumber self).2 = .runnerRun cycleNumber :: quiet := by
  rcases turn_cases env cycleNumber self with ⟨goes, _⟩ | ⟨_, next, quiet, noRun, taken⟩
  · exact absurd goes leaves
  · refine ⟨quiet, noRun, ?_⟩
    simp only [loop, taken]

theorem loop_head (env : SchedulerEnvironment) (turns cycleNumber : ℕ) (self : CycleScheduler) :
    ∃ rest, (loop env (turns + 1) cycleNumber self).2 = .runnerRun cycleNumber :: rest := by
  by_cases goes : GoesOn env cycleNumber self
  · obtain ⟨quiet, _, _, record⟩ := loop_of_goesOn turns goes
    exact ⟨_, record⟩
  · obtain ⟨quiet, _, record⟩ := loop_of_not_goesOn turns goes
    exact ⟨_, record⟩

/-- The runs are numbered one after another, and a limit is kept, but for a
first run that it leaves no room for. -/
theorem loop_begun (env : SchedulerEnvironment) (turns cycleNumber : ℕ) (self : CycleScheduler) :
    ∃ count, begun (loop env turns cycleNumber self).2 = List.range' cycleNumber count ∧
      ∀ n, self.config.maxCycles = some n → self.completedCycles + count ≤ max n (self.completedCycles + 1) := by
  induction turns generalizing cycleNumber self with
  | zero => exact ⟨0, rfl, fun n _ => by omega⟩
  | succ turns ih =>
    by_cases goes : GoesOn env cycleNumber self
    · obtain ⟨quiet, noRun, _, record⟩ := loop_of_goesOn turns goes
      obtain ⟨count, runs, kept⟩ := ih (cycleNumber + 1)
        ⟨self.config, env.stopAfterCycle cycleNumber, self.completedCycles + 1⟩
      refine ⟨count + 1, ?_, ?_⟩
      · rw [record]
        simp [noRun, runs, List.range'_succ]
      · intro n limit
        have room := goes.2.2.2 n limit
        have := kept n limit
        simp only at this
        omega
    · obtain ⟨quiet, noRun, record⟩ := loop_of_not_goesOn turns goes
      refine ⟨1, ?_, fun n _ => le_max_right _ _⟩
      rw [record]
      simp [noRun]

/-- The loop is left after the given cycle at the latest, by a limit, an
exception, or a request made in a cycle. -/
def LeftBy (env : SchedulerEnvironment) (config : SchedulerConfig) (cycleNumber : ℕ) : Prop :=
  (∃ n, config.maxCycles = some n ∧ n ≤ cycleNumber + 1) ∨
    ∃ earlier ≤ cycleNumber, env.stopInCycle earlier = true ∨ ∃ exc, env.runnerRun earlier = .error exc

/-- What the cycles before one must have been for the loop to come to it. -/
def Uneventful (env : SchedulerEnvironment) (cycleNumber : ℕ) : Prop :=
  (∃ result, env.runnerRun cycleNumber = .ok result) ∧ env.stopInCycle cycleNumber = false

theorem not_leftBy : ¬ LeftBy env config cycleNumber ↔
    (∀ n, config.maxCycles = some n → cycleNumber + 1 < n) ∧ ∀ earlier ≤ cycleNumber, Uneventful env earlier := by
  unfold LeftBy Uneventful
  constructor
  · intro stays
    refine ⟨?_, ?_⟩
    · intro n limit
      by_contra low
      exact stays (Or.inl ⟨n, limit, by omega⟩)
    · intro earlier before
      refine ⟨?_, ?_⟩
      · cases outcome : env.runnerRun earlier with
        | error exc => exact absurd (Or.inr ⟨earlier, before, Or.inr ⟨exc, outcome⟩⟩) stays
        | ok result => exact ⟨result, rfl⟩
      · by_contra asked
        exact stays (Or.inr ⟨earlier, before, Or.inl (by simpa using asked)⟩)
  · rintro ⟨below, uneventful⟩ (⟨n, limit, low⟩ | ⟨earlier, before, asked | ⟨exc, raised⟩⟩)
    · have := below n limit
      omega
    · rw [(uneventful earlier before).2] at asked
      cases asked
    · obtain ⟨result, returned⟩ := (uneventful earlier before).1
      rw [returned] at raised
      cases raised

theorem loop_noRunAfterStop (inTime : ∀ k, env.stopAfterCycle k = true → LeftBy env config k)
    (uneventful : ∀ earlier < cycleNumber, Uneventful env earlier) :
    NoRunAfterStop (loop env turns cycleNumber ⟨config, false, cycleNumber⟩).2 := by
  induction turns generalizing cycleNumber with
  | zero => exact .of_begun_nil rfl
  | succ turns ih =>
    by_cases goes : GoesOn env cycleNumber ⟨config, false, cycleNumber⟩
    · obtain ⟨quiet, noRun, noStop, record⟩ := loop_of_goesOn turns goes
      have upTo : ∀ earlier ≤ cycleNumber, Uneventful env earlier := by
        intro earlier before
        rcases before.lt_or_eq with below | rfl
        · exact uneventful earlier below
        · exact ⟨goes.1, goes.2.2.1⟩
      have stays := not_leftBy.mpr ⟨goes.2.2.2, upTo⟩
      have unasked : env.stopAfterCycle cycleNumber = false := by
        by_contra asked
        exact stays (inTime cycleNumber (by simpa using asked))
      rw [unasked] at record
      rw [record]
      have first : SchedulerEvent.stop ∉ (SchedulerEvent.runnerRun cycleNumber :: quiet) ++ stopEvents false := by
        simp [stopEvents, noStop]
      have rest := @ih (cycleNumber + 1) fun earlier before => upTo earlier (by omega)
      refine NoRunAfterStop.append ?_ rest (Or.inl first)
      exact List.pairwise_of_forall_mem_list fun earlier before _ _ isStop => absurd (isStop ▸ before) first
    · obtain ⟨quiet, noRun, record⟩ := loop_of_not_goesOn turns goes
      rw [record]
      have begins : NoRunAfterStop [.runnerRun cycleNumber] := List.pairwise_singleton _ _
      exact begins.append (.of_begun_nil noRun) (Or.inr noRun)

/-- Where nothing ends the loop before a cycle, the loop comes to it. -/
theorem loop_reaches (turns cycleNumber completed count : ℕ)
    (uneventful : ∀ j < count, Uneventful env (cycleNumber + j) ∧ env.stopAfterCycle (cycleNumber + j) = false)
    (room : ∀ n, config.maxCycles = some n → completed + count < n) :
    ∃ before, (loop env (count + turns) cycleNumber ⟨config, false, completed⟩).2 =
      before ++ (loop env turns (cycleNumber + count) ⟨config, false, completed + count⟩).2 := by
  induction count generalizing cycleNumber completed with
  | zero => exact ⟨[], by simp⟩
  | succ count ih =>
    obtain ⟨⟨returned, cycleClear⟩, unasked⟩ := uneventful 0 (Nat.succ_pos count)
    have goes : GoesOn env cycleNumber ⟨config, false, completed⟩ := by
      refine ⟨returned, rfl, cycleClear, ?_⟩
      intro n limit
      have : completed + (count + 1) < n := room n limit
      show completed + 1 < n
      omega
    obtain ⟨quiet, _, _, record⟩ := loop_of_goesOn (count + turns) goes
    rw [Nat.add_zero] at unasked
    rw [unasked] at record
    obtain ⟨before, reached⟩ := ih (cycleNumber + 1) (completed + 1)
      (fun j bound => by
        have := uneventful (j + 1) (by omega)
        rwa [show cycleNumber + 1 + j = cycleNumber + (j + 1) by omega])
      (fun n limit => by
        have := room n limit
        omega)
    refine ⟨(.runnerRun cycleNumber :: quiet) ++ stopEvents false ++ before, ?_⟩
    rw [show count + 1 + turns = count + turns + 1 by omega, record]
    simp only at reached ⊢
    rw [reached, List.append_assoc _ before]
    rw [show cycleNumber + 1 + count = cycleNumber + (count + 1) by omega,
      show completed + 1 + count = completed + (count + 1) by omega]

theorem session_eq (env : SchedulerEnvironment) (turns : ℕ) (config : SchedulerConfig) :
    session env turns config = stopEvents env.stopBeforeStart ++
      (sleep config.startupDelayS ++ stopEvents env.stopInStartup ++
        (loop env turns 0 ⟨config, env.stopBeforeStart || env.stopInStartup, 0⟩).2) := by
  simp [session, start, init]

/-- What is asked of the record of a session: the cycles are numbered from
zero, there are no more than the limit allows, and none begins after a stop. -/
def Obedient (config : SchedulerConfig) (events : List SchedulerEvent) : Prop :=
  begun events = List.range (begun events).length ∧
    (∀ n, config.maxCycles = some n → (begun events).length ≤ n) ∧ NoRunAfterStop events

/-- A limit, where there is one, leaves room for a cycle, no stop comes before
the first cycle, and one that comes after the test of the flag comes when the
loop has been left already. -/
def StopsInTime (env : SchedulerEnvironment) (config : SchedulerConfig) : Prop :=
  config.maxCycles ≠ some 0 ∧ env.stopBeforeStart = false ∧ env.stopInStartup = false ∧
    ∀ cycleNumber, env.stopAfterCycle cycleNumber = true → LeftBy env config cycleNumber

theorem begun_session : begun (session env turns config) =
    begun (loop env turns 0 ⟨config, env.stopBeforeStart || env.stopInStartup, 0⟩).2 := by
  rw [session_eq]
  simp

/-- Whatever is asked and whenever: the numbers are consecutive, and a limit of
at least one is kept. -/
theorem session_begun (env : SchedulerEnvironment) (turns : ℕ) (config : SchedulerConfig) :
    begun (session env turns config) = List.range (begun (session env turns config)).length ∧
      ∀ n, config.maxCycles = some n → (begun (session env turns config)).length ≤ max n 1 := by
  obtain ⟨count, runs, kept⟩ :=
    loop_begun env turns 0 ⟨config, env.stopBeforeStart || env.stopInStartup, 0⟩
  rw [begun_session, runs, List.length_range', List.range_eq_range']
  refine ⟨rfl, ?_⟩
  intro n limit
  have := kept n limit
  simp only at this
  omega

theorem StopsInTime.noRunAfterStop (inTime : StopsInTime env config) : NoRunAfterStop (session env turns config) := by
  obtain ⟨_, before, startup, after⟩ := inTime
  rw [session_eq, before, startup]
  have rest : NoRunAfterStop (loop env turns 0 ⟨config, false, 0⟩).2 :=
    loop_noRunAfterStop after fun earlier below => absurd below (Nat.not_lt_zero earlier)
  have first : SchedulerEvent.stop ∉ sleep config.startupDelayS ++ stopEvents false := by
    simp [stopEvents, stop_not_mem_sleep]
  exact NoRunAfterStop.append (.of_begun_nil rfl)
    (NoRunAfterStop.append (.of_begun_nil (by simp)) rest (Or.inl first)) (Or.inl List.not_mem_nil)

/-- A run begins after a stop that comes before the first one. -/
theorem not_noRunAfterStop_of_before (asked : (env.stopBeforeStart || env.stopInStartup) = true) :
    ¬ NoRunAfterStop (session env 1 config) := by
  intro order
  obtain ⟨rest, record⟩ := loop_head env 0 0 ⟨config, env.stopBeforeStart || env.stopInStartup, 0⟩
  rw [session_eq, record] at order
  have later : begun (SchedulerEvent.runnerRun 0 :: rest) = [] := by
    rcases Bool.or_eq_true_iff.mp asked with before | startup
    · rw [before] at order
      have := NoRunAfterStop.not_begun [] _ order
      simp at this
    · rw [startup] at order
      have := NoRunAfterStop.not_begun (stopEvents env.stopBeforeStart ++ sleep config.startupDelayS)
        (.runnerRun 0 :: rest) (by simpa [stopEvents] using order)
      exact this
  simp at later

/-- A run begins after a stop between two cycles. -/
theorem not_noRunAfterStop_of_after (cycleNumber : ℕ) (before : env.stopBeforeStart = false) (startup : env.stopInStartup = false)
    (earlier : ∀ k < cycleNumber, env.stopAfterCycle k = false) (asked : env.stopAfterCycle cycleNumber = true)
    (stays : ¬ LeftBy env config cycleNumber) : ¬ NoRunAfterStop (session env (cycleNumber + 2) config) := by
  intro order
  obtain ⟨room, uneventful⟩ := not_leftBy.mp stays
  obtain ⟨prior, reached⟩ := @loop_reaches env config 2 0 0 cycleNumber
    (fun j below => by
      rw [Nat.zero_add]
      exact ⟨uneventful j below.le, earlier j below⟩)
    (fun n limit => by
      have := room n limit
      omega)
  rw [Nat.zero_add] at reached
  have goes : GoesOn env cycleNumber ⟨config, false, cycleNumber⟩ :=
    ⟨(uneventful cycleNumber le_rfl).1, rfl, (uneventful cycleNumber le_rfl).2, room⟩
  obtain ⟨quiet, _, _, record⟩ := loop_of_goesOn 1 goes
  rw [asked] at record
  obtain ⟨rest, next⟩ := loop_head env 0 (cycleNumber + 1) ⟨config, true, cycleNumber + 1⟩
  simp only at record
  rw [next] at record
  rw [session_eq, before, startup, Bool.or_false, reached, record] at order
  have later := NoRunAfterStop.not_begun
    (sleep config.startupDelayS ++ prior ++ .runnerRun cycleNumber :: quiet) (.runnerRun (cycleNumber + 1) :: rest) (by simpa [stopEvents] using order)
  simp at later

/-- A scheduler obeys in every session exactly when each request to stop comes
where the loop still looks for it and the limit is not zero. -/
theorem session_obedient_iff (env : SchedulerEnvironment) (config : SchedulerConfig) :
    (∀ turns, Obedient config (session env turns config)) ↔ StopsInTime env config := by
  constructor
  · intro obeys
    have noLimit : config.maxCycles ≠ some 0 := by
      intro limit
      obtain ⟨rest, record⟩ := loop_head env 0 0 ⟨config, env.stopBeforeStart || env.stopInStartup, 0⟩
      have none := (obeys 1).2.1 0 limit
      rw [begun_session, record] at none
      simp at none
    have early : (env.stopBeforeStart || env.stopInStartup) = false := by
      by_contra asked
      exact not_noRunAfterStop_of_before (Bool.not_eq_false _ ▸ asked) (obeys 1).2.2
    obtain ⟨before, startup⟩ := Bool.or_eq_false_iff.mp early
    refine ⟨noLimit, before, startup, ?_⟩
    -- A first request that comes too late would be followed by a run.
    intro cycleNumber
    induction cycleNumber using Nat.strong_induction_on with
    | _ cycleNumber ih =>
      intro asked
      by_contra stays
      refine not_noRunAfterStop_of_after cycleNumber before startup ?_ asked stays (obeys _).2.2
      intro k below
      by_contra askedBefore
      have left := ih k below (by simpa using askedBefore)
      obtain ⟨room, uneventful⟩ := not_leftBy.mp stays
      refine absurd left (not_leftBy.mpr ⟨?_, fun earlier before => uneventful earlier (by omega)⟩)
      intro n limit
      have := room n limit
      omega
  · intro inTime turns
    obtain ⟨numbered, kept⟩ := session_begun env turns config
    refine ⟨numbered, ?_, inTime.noRunAfterStop⟩
    intro n limit
    have positive : n ≠ 0 := fun zero => inTime.1 (zero ▸ limit)
    have := kept n limit
    omega

/-- A runner whose cycles all return. -/
def idleResult (cycleNumber : ℕ) : CycleResult := ⟨cycleNumber, 0, 0, 1 / 10 ^ 9, none, none, none, none, 0, []⟩

def stoppedAsleep : SchedulerEnvironment :=
  ⟨fun k => .ok (idleResult k), fun _ => 0, fun _ => 0, false, false, fun _ => false, fun k => decide (k = 0)⟩

theorem not_obedient_stoppedAsleep : ¬ ∀ turns, Obedient {} (session stoppedAsleep turns {}) := by
  intro obeys
  refine not_noRunAfterStop_of_after 0 rfl rfl ?_ rfl ?_ (obeys 2).2.2
  · intro k below
    exact absurd below (Nat.not_lt_zero k)
  · refine not_leftBy.mpr ⟨?_, ?_⟩
    · intro n limit
      cases limit
    · intro earlier _
      exact ⟨⟨_, rfl⟩, rfl⟩

end CycleScheduler

end Centroid
