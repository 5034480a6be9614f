import Centroid.Daemon.CentroidDaemon
import Centroid.Daemon.StopRequests

namespace Centroid

/-- What one turn of the loop of `start` meets: its cycle, the monotonic clock
around it, and the calls of `stop` in the cycle and after it. -/
structure DaemonTurn where
  moment : Moment
  cycleStart : ℚ
  cycleEnd : ℚ
  stopInCycle : Bool
  stopAfterCycle : Bool

/-- What the scheduler sees of a turn whose cycle has returned. -/
def DaemonTurn.environment (self : DaemonTurn) (result : CycleResult) : SchedulerEnvironment where
  runnerRun _ := .ok result
  cycleStart _ := self.cycleStart
  cycleEnd _ := self.cycleEnd
  stopBeforeStart := false
  stopInStartup := false
  stopInCycle _ := self.stopInCycle
  stopAfterCycle _ := self.stopAfterCycle

/-- A call on a daemon or on its scheduler. The turns of `run` are as many as are
looked at. -/
inductive DaemonCall where
  | run (stopInStartup : Bool) (turns : List DaemonTurn)
  | runCycles (moments : List Moment)
  | stop

/-- What a call shows. It has not returned while its loop goes on. -/
structure DaemonReply where
  traces : List CycleTrace
  events : List SchedulerEvent
  returned : Bool

/-- A daemon with its scheduler and the files. -/
structure ScheduledDaemon where
  daemon : CentroidDaemon
  scheduler : CycleScheduler
  disk : Disk ℚ

namespace ScheduledDaemon

/-- What `from_config` returns, in front of the files. -/
def fromConfig (reading : StateLoad.NumberReading ℚ ℚ) (graphDoc : Option (Value ℚ))
    (enumerate : ∀ g : CoherenceGraphDef (Key ℚ) ℚ, SetOrder g.nodeIds) (config : DaemonConfig) (disk : Disk ℚ)
    (drawn : ℕ) : Except WiringError ScheduledDaemon := do
  let daemon ← CentroidDaemon.fromConfig reading graphDoc enumerate config disk drawn
  .ok ⟨daemon, .init config.scheduler, disk⟩

section

variable (stdev : List ℚ → ℚ) (floatOfText : String → Option ℚ) (ids : IdSource)

/-- The loop of `start` around the cycles of the daemon. -/
def loop (self : ScheduledDaemon) : ℕ → List DaemonTurn → ScheduledDaemon × DaemonReply
  | _, [] => (self, ⟨[], [], false⟩)
  | c, turn :: turns =>
    let (daemon, disk, trace) := self.daemon.cycle stdev floatOfText ids c turn.moment self.disk
    match CycleScheduler.turn (turn.environment trace.result) c self.scheduler with
    | (scheduler, events, false) => (⟨daemon, scheduler, disk⟩, ⟨[trace], events, true⟩)
    | (scheduler, events, true) =>
      let (self, later) := loop ⟨daemon, scheduler, disk⟩ (c + 1) turns
      (self, ⟨trace :: later.traces, events ++ later.events, later.returned⟩)

/-- `run`: the scheduler is started. -/
def run (self : ScheduledDaemon) (stopInStartup : Bool) (turns : List DaemonTurn) : ScheduledDaemon × DaemonReply :=
  let delay := CycleScheduler.sleep self.scheduler.config.startupDelayS
  let (scheduler, stops) := self.scheduler.mayStop stopInStartup
  let (self, record) := loop stdev floatOfText ids ⟨self.daemon, scheduler, self.disk⟩ 0 turns
  (self, { record with events := delay ++ stops ++ record.events })

def call (self : ScheduledDaemon) : DaemonCall → ScheduledDaemon × DaemonReply
  | .run stopInStartup turns => self.run stdev floatOfText ids stopInStartup turns
  | .runCycles moments =>
    let (daemon, disk, traces) := self.daemon.runCycles stdev floatOfText ids self.disk moments
    (⟨daemon, self.scheduler, disk⟩, ⟨traces, [], true⟩)
  | .stop => (⟨self.daemon, self.scheduler.stop, self.disk⟩, ⟨[], [.stop], true⟩)

/-- Calls one after another. None comes after one that has not returned. -/
def serve (self : ScheduledDaemon) : List DaemonCall → ScheduledDaemon × List DaemonReply
  | [] => (self, [])
  | call :: calls =>
    let (self, record) := self.call stdev floatOfText ids call
    if record.returned then
      let (self, records) := self.serve calls
      (self, record :: records)
    else (self, [record])

end

end ScheduledDaemon

namespace CycleScheduler

/-- What a scheduler prints. -/
def shown (events : List SchedulerEvent) : List SchedulerEvent :=
  events.filter fun
    | .printed _ => true
    | .stopped _ => true
    | _ => false

@[simp] theorem shown_append (first second : List SchedulerEvent) :
    shown (first ++ second) = shown first ++ shown second := List.filter_append ..

@[simp] theorem shown_sleep (seconds : ℚ) : shown (sleep seconds) = [] := by
  unfold sleep
  split <;> rfl

@[simp] theorem shown_stopEvents (called : Bool) : shown (stopEvents called) = [] := by
  cases called <;> rfl

@[simp] theorem shown_run (cycleNumber : ℕ) (events : List SchedulerEvent) :
    shown (.runnerRun cycleNumber :: events) = shown events := rfl

@[simp] theorem shown_printed (line : CycleLine) (events : List SchedulerEvent) :
    shown (.printed line :: events) = .printed line :: shown events := rfl

@[simp] theorem shown_stopped (completed : ℕ) (events : List SchedulerEvent) :
    shown (.stopped completed :: events) = .stopped completed :: shown events := rfl

@[simp] theorem shown_nil : shown [] = [] := rfl

end CycleScheduler

/-- The requests to stop that the test of the flag finds after the turn with the
given index. -/
def askedAfter (asked : Bool) (turns : List DaemonTurn) (k : ℕ) : Bool :=
  asked || (turns.take (k + 1)).any DaemonTurn.stopInCycle || (turns.take k).any DaemonTurn.stopAfterCycle

/-- The loop is left after that turn. -/
def leftAfter (maxCycles : Option ℕ) (asked : Bool) (completed : ℕ) (turns : List DaemonTurn) (k : ℕ) : Bool :=
  askedAfter asked turns k || maxCycles.any (· ≤ completed + (k + 1))

variable {maxCycles : Option ℕ} {asked : Bool} {completed : ℕ}

theorem askedAfter_zero (turn : DaemonTurn) (turns : List DaemonTurn) :
    askedAfter asked (turn :: turns) 0 = (asked || turn.stopInCycle) := by
  simp [askedAfter]

theorem askedAfter_succ (turn : DaemonTurn) (turns : List DaemonTurn) (k : ℕ) (clear : asked = false)
    (cycleClear : turn.stopInCycle = false) :
    askedAfter asked (turn :: turns) (k + 1) = askedAfter turn.stopAfterCycle turns k := by
  unfold askedAfter
  rw [List.take_succ_cons, List.take_succ_cons, List.any_cons, List.any_cons, clear, cycleClear]
  cases turn.stopAfterCycle <;> simp

theorem leftAfter_zero (turn : DaemonTurn) (turns : List DaemonTurn) :
    leftAfter maxCycles asked completed (turn :: turns) 0 =
      (asked || turn.stopInCycle || maxCycles.any (· ≤ completed + 1)) := by
  unfold leftAfter
  rw [askedAfter_zero]

theorem leftAfter_succ (turn : DaemonTurn) (turns : List DaemonTurn) (k : ℕ) (clear : asked = false)
    (cycleClear : turn.stopInCycle = false) :
    leftAfter maxCycles asked completed (turn :: turns) (k + 1) =
      leftAfter maxCycles turn.stopAfterCycle (completed + 1) turns k := by
  unfold leftAfter
  rw [askedAfter_succ turn turns k clear cycleClear, show completed + (k + 1 + 1) = completed + 1 + (k + 1) by omega]

/-- The cycles of one call, whether it prints them, and the number of cycles it
prints at its end. -/
structure Portion where
  moments : List Moment
  printed : Bool
  total : Option ℕ

def Portion.output (self : Portion) (traces : List CycleTrace) : List SchedulerEvent :=
  (if self.printed then traces.map fun trace => .printed (.ofResult trace.result) else []) ++
    (self.total.map SchedulerEvent.stopped).toList

/-- The portions that calls come to, with what has been asked and the number of
completed cycles before them. Nothing of the cycles is in it. -/
inductive Portions (maxCycles : Option ℕ) : Bool → ℕ → List DaemonCall → List Portion → Prop
  | nil {asked : Bool} {completed : ℕ} : Portions maxCycles asked completed [] []
  | stop {asked : Bool} {completed : ℕ} {calls : List DaemonCall} {rest : List Portion}
      (later : Portions maxCycles true completed calls rest) :
      Portions maxCycles asked completed (.stop :: calls) (⟨[], false, none⟩ :: rest)
  | runCycles {asked : Bool} {completed : ℕ} {moments : List Moment} {calls : List DaemonCall} {rest : List Portion}
      (later : Portions maxCycles asked completed calls rest) :
      Portions maxCycles asked completed (.runCycles moments :: calls) (⟨moments, false, none⟩ :: rest)
  | run {asked : Bool} {completed : ℕ} {stopInStartup : Bool} {turns : List DaemonTurn} {calls : List DaemonCall}
      {rest : List Portion} (k : ℕ) (bound : k < turns.length)
      (stays : ∀ earlier < k, leftAfter maxCycles (asked || stopInStartup) completed turns earlier = false)
      (left : leftAfter maxCycles (asked || stopInStartup) completed turns k = true)
      (later : Portions maxCycles (askedAfter (asked || stopInStartup) turns k) (completed + (k + 1)) calls rest) :
      Portions maxCycles asked completed (.run stopInStartup turns :: calls)
        (⟨(turns.take (k + 1)).map DaemonTurn.moment, true, some (completed + (k + 1))⟩ :: rest)
  | running {asked : Bool} {completed : ℕ} {stopInStartup : Bool} {turns : List DaemonTurn} {calls : List DaemonCall}
      (stays : ∀ k < turns.length, leftAfter maxCycles (asked || stopInStartup) completed turns k = false) :
      Portions maxCycles asked completed (.run stopInStartup turns :: calls)
        [⟨turns.map DaemonTurn.moment, true, none⟩]

section

variable (stdev : List ℚ → ℚ) (floatOfText : String → Option ℚ) (ids : IdSource)

/-- `run_cycles` for each portion, with what the cycles show and what is
printed. -/
def CentroidDaemon.replay (self : CentroidDaemon) (disk : Disk ℚ) :
    List Portion → CentroidDaemon × Disk ℚ × List (List CycleTrace × List SchedulerEvent)
  | [] => (self, disk, [])
  | portion :: portions =>
    let (self, disk, traces) := self.runCycles stdev floatOfText ids disk portion.moments
    let (self, disk, records) := self.replay disk portions
    (self, disk, (traces, portion.output traces) :: records)

theorem CentroidDaemon.replay_cons {self next : CentroidDaemon} {disk after : Disk ℚ} {traces : List CycleTrace}
    (portion : Portion) (ran : self.runCycles stdev floatOfText ids disk portion.moments = (next, after, traces))
    (portions : List Portion) :
    self.replay stdev floatOfText ids disk (portion :: portions) =
      let rest := next.replay stdev floatOfText ids after portions
      (rest.1, rest.2.1, (traces, portion.output traces) :: rest.2.2) := by
  simp only [replay, ran]

/-- One turn around a cycle that returns: what the test of the flag and of the
limit makes of it. -/
theorem DaemonTurn.turn_cases (turn : DaemonTurn) (turns : List DaemonTurn) (result : CycleResult) (c : ℕ)
    (self : CycleScheduler) :
    (leftAfter self.config.maxCycles self.stopFlag self.completedCycles (turn :: turns) 0 = true ∧ ∃ events,
      CycleScheduler.turn (turn.environment result) c self =
        (⟨self.config, self.stopFlag || turn.stopInCycle, self.completedCycles + 1⟩, events, false) ∧
      CycleScheduler.shown events = [.printed (.ofResult result), .stopped (self.completedCycles + 1)]) ∨
    (self.stopFlag = false ∧ turn.stopInCycle = false ∧
      leftAfter self.config.maxCycles self.stopFlag self.completedCycles (turn :: turns) 0 = false ∧ ∃ events,
      CycleScheduler.turn (turn.environment result) c self =
        (⟨self.config, turn.stopAfterCycle, self.completedCycles + 1⟩, events, true) ∧
      CycleScheduler.shown events = [.printed (.ofResult result)]) := by
  have ended : CycleScheduler.turn (turn.environment result) c self =
      let counted : CycleScheduler := ⟨self.config, self.stopFlag || turn.stopInCycle, self.completedCycles + 1⟩
      let events := .runnerRun c :: CycleScheduler.stopEvents turn.stopInCycle ++ [.printed (.ofResult result)]
      if self.config.maxCycles.any (· ≤ self.completedCycles + 1) then
        (counted, events ++ [.stopped (self.completedCycles + 1)], false)
      else if counted.stopFlag then (counted, events ++ [.stopped (self.completedCycles + 1)], false)
      else
        (⟨self.config, counted.stopFlag || turn.stopAfterCycle, self.completedCycles + 1⟩,
          events ++ CycleScheduler.sleep (max 0 (self.config.tickIntervalS - (turn.cycleEnd - turn.cycleStart))) ++
            CycleScheduler.stopEvents turn.stopAfterCycle, true) := by
    simp only [CycleScheduler.turn, environment, CycleScheduler.mayStop_state, CycleScheduler.mayStop_events,
      CycleScheduler.limitReached]
  simp only at ended
  rw [leftAfter_zero]
  by_cases limit : self.config.maxCycles.any (· ≤ self.completedCycles + 1) = true
  · rw [if_pos limit] at ended
    refine Or.inl ⟨by rw [limit, Bool.or_true], _, ended, ?_⟩
    simp
  · rw [if_neg limit] at ended
    rw [Bool.not_eq_true] at limit
    by_cases flag : (self.stopFlag || turn.stopInCycle) = true
    · rw [if_pos flag] at ended
      refine Or.inl ⟨by rw [flag, Bool.true_or], _, ended, ?_⟩
      simp
    · rw [if_neg flag] at ended
      rw [Bool.not_eq_true] at flag
      obtain ⟨clear, cycleClear⟩ := Bool.or_eq_false_iff.mp flag
      rw [flag, Bool.false_or] at ended
      refine Or.inr ⟨clear, cycleClear, by rw [flag, limit, Bool.or_false], _, ended, ?_⟩
      simp

namespace ScheduledDaemon

/-- The loop runs its cycles as `run_cycles` does, up to the turn after which it
is left. -/
theorem loop_cases (self : ScheduledDaemon) (c : ℕ) (turns : List DaemonTurn) :
    let limit := self.scheduler.config.maxCycles
    let completed := self.scheduler.completedCycles
    let after := self.loop stdev floatOfText ids c turns
    (∃ k, k < turns.length ∧ (∀ earlier < k, leftAfter limit self.scheduler.stopFlag completed turns earlier = false) ∧
      leftAfter limit self.scheduler.stopFlag completed turns k = true ∧ after.2.returned = true ∧
      after.1.scheduler =
        ⟨self.scheduler.config, askedAfter self.scheduler.stopFlag turns k, completed + (k + 1)⟩ ∧
      (after.1.daemon, after.1.disk, after.2.traces) =
        self.daemon.runFrom stdev floatOfText ids self.disk c ((turns.take (k + 1)).map DaemonTurn.moment) ∧
      CycleScheduler.shown after.2.events =
        (after.2.traces.map fun trace => .printed (.ofResult trace.result)) ++ [.stopped (completed + (k + 1))]) ∨
    ((∀ k < turns.length, leftAfter limit self.scheduler.stopFlag completed turns k = false) ∧
      after.2.returned = false ∧
      (after.1.daemon, after.1.disk, after.2.traces) =
        self.daemon.runFrom stdev floatOfText ids self.disk c (turns.map DaemonTurn.moment) ∧
      CycleScheduler.shown after.2.events = after.2.traces.map fun trace => .printed (.ofResult trace.result)) := by
  induction turns generalizing self c with
  | nil =>
    refine Or.inr ⟨?_, rfl, rfl, rfl⟩
    intro k bound
    exact absurd bound (Nat.not_lt_zero k)
  | cons turn turns ih =>
    intro limit completed after
    set cycled := self.daemon.cycle stdev floatOfText ids c turn.moment self.disk with isCycled
    rcases turn.turn_cases turns cycled.2.2.result c self.scheduler with
      ⟨left, events, taken, prints⟩ | ⟨clear, cycleClear, stays, events, taken, prints⟩
    · have ended : after = (⟨cycled.1, ⟨self.scheduler.config, self.scheduler.stopFlag || turn.stopInCycle,
          completed + 1⟩, cycled.2.1⟩, ⟨[cycled.2.2], events, true⟩) := by
        simp only [after, loop, ← isCycled, taken]
        rfl
      refine Or.inl ⟨0, Nat.succ_pos _, fun earlier bound => absurd bound (Nat.not_lt_zero earlier), left, ?_⟩
      rw [ended]
      refine ⟨rfl, ?_, ?_, prints⟩
      · rw [askedAfter_zero]
      · simp [CentroidDaemon.runFrom, ← isCycled]
    · set next : ScheduledDaemon :=
        ⟨cycled.1, ⟨self.scheduler.config, turn.stopAfterCycle, completed + 1⟩, cycled.2.1⟩ with isNext
      set later := next.loop stdev floatOfText ids (c + 1) turns with isLater
      have goes : after = (later.1, ⟨cycled.2.2 :: later.2.traces, events ++ later.2.events, later.2.returned⟩) := by
        simp only [after, loop, ← isCycled, taken]
        rfl
      have shift (k : ℕ) : leftAfter limit self.scheduler.stopFlag completed (turn :: turns) (k + 1) =
          leftAfter limit turn.stopAfterCycle (completed + 1) turns k :=
        leftAfter_succ turn turns k clear cycleClear
      rw [goes]
      rcases ih next (c + 1) with
        ⟨k, bound, before, left, returned, scheduler, same, lines⟩ | ⟨before, returned, same, lines⟩
      · refine Or.inl ⟨k + 1, Nat.succ_lt_succ bound, ?_, (shift k).trans left, returned, ?_, ?_, ?_⟩
        · intro earlier below
          cases earlier with
          | zero => exact stays
          | succ earlier => exact (shift earlier).trans (before earlier (Nat.lt_of_succ_lt_succ below))
        · rw [scheduler, askedAfter_succ turn turns k clear cycleClear,
            show completed + (k + 1 + 1) = completed + 1 + (k + 1) by omega]
        · have ran : cycled.1.runFrom stdev floatOfText ids cycled.2.1 (c + 1)
              ((turns.take (k + 1)).map DaemonTurn.moment) = (later.1.daemon, later.1.disk, later.2.traces) := same.symm
          rw [List.take_succ_cons, List.map_cons]
          simp only [CentroidDaemon.runFrom, ← isCycled, ran]
        · rw [CycleScheduler.shown_append, prints, lines, show completed + (k + 1 + 1) = completed + 1 + (k + 1) by omega]
          rfl
      · refine Or.inr ⟨?_, returned, ?_, ?_⟩
        · intro k bound
          cases k with
          | zero => exact stays
          | succ k => exact (shift k).trans (before k (Nat.lt_of_succ_lt_succ bound))
        · have ran : cycled.1.runFrom stdev floatOfText ids cycled.2.1 (c + 1) (turns.map DaemonTurn.moment) =
              (later.1.daemon, later.1.disk, later.2.traces) := same.symm
          rw [List.map_cons]
          simp only [CentroidDaemon.runFrom, ← isCycled, ran]
        · rw [CycleScheduler.shown_append, prints, lines]
          rfl

/-- Calls of `run`, `run_cycles` and `stop` on one daemon, in any order, leave
what `run_cycles` leaves for the portions that the calls come to, and print the
lines of these cycles. -/
theorem serve_portions (self : ScheduledDaemon) (calls : List DaemonCall) : ∃ portions,
    Portions self.scheduler.config.maxCycles self.scheduler.stopFlag self.scheduler.completedCycles calls portions ∧
      let after := self.serve stdev floatOfText ids calls
      (after.1.daemon, after.1.disk, after.2.map fun record => (record.traces, CycleScheduler.shown record.events)) =
        self.daemon.replay stdev floatOfText ids self.disk portions := by
  induction calls generalizing self with
  | nil => exact ⟨[], .nil, rfl⟩
  | cons call calls ih =>
    cases call with
    | stop =>
      obtain ⟨rest, later, same⟩ := ih ⟨self.daemon, self.scheduler.stop, self.disk⟩
      refine ⟨_, .stop later, ?_⟩
      rw [CentroidDaemon.replay_cons stdev floatOfText ids ⟨[], false, none⟩ rfl, ← same]
      rfl
    | runCycles moments =>
      obtain ⟨rest, later, same⟩ := ih (self.call stdev floatOfText ids (.runCycles moments)).1
      refine ⟨_, .runCycles later, ?_⟩
      rw [CentroidDaemon.replay_cons stdev floatOfText ids ⟨moments, false, none⟩ rfl]
      refine Eq.trans ?_ (congrArg (fun rest => (rest.1, rest.2.1, (_, _) :: rest.2.2)) same)
      rfl
    | run stopInStartup turns =>
      set begun : ScheduledDaemon := ⟨self.daemon, (self.scheduler.mayStop stopInStartup).1, self.disk⟩ with isBegun
      set looped := begun.loop stdev floatOfText ids 0 turns with isLooped
      have called : self.call stdev floatOfText ids (.run stopInStartup turns) = (looped.1,
          { looped.2 with events := CycleScheduler.sleep self.scheduler.config.startupDelayS ++
              (self.scheduler.mayStop stopInStartup).2 ++ looped.2.events }) := rfl
      have flag : begun.scheduler.stopFlag = (self.scheduler.stopFlag || stopInStartup) := by
        rw [isBegun, CycleScheduler.mayStop_state]
      have kept : begun.scheduler.config = self.scheduler.config ∧
          begun.scheduler.completedCycles = self.scheduler.completedCycles := by
        rw [isBegun, CycleScheduler.mayStop_state]
        exact ⟨rfl, rfl⟩
      have spec := loop_cases stdev floatOfText ids begun 0 turns
      simp only [flag, kept, ← isLooped] at spec
      rcases spec with ⟨k, bound, before, left, returned, scheduler, same, lines⟩ | ⟨before, returned, same, lines⟩
      · obtain ⟨rest, later, following⟩ := ih looped.1
        rw [scheduler] at later
        have ran : self.daemon.runCycles stdev floatOfText ids self.disk ((turns.take (k + 1)).map DaemonTurn.moment) =
            (looped.1.daemon, looped.1.disk, looped.2.traces) := same.symm
        refine ⟨_, .run k bound before left later, ?_⟩
        rw [CentroidDaemon.replay_cons stdev floatOfText ids ⟨_, true, _⟩ ran, ← following]
        simp [serve, called, returned, lines, Portion.output]
      · have ran : self.daemon.runCycles stdev floatOfText ids self.disk (turns.map DaemonTurn.moment) =
            (looped.1.daemon, looped.1.disk, looped.2.traces) := same.symm
        refine ⟨_, .running before, ?_⟩
        rw [CentroidDaemon.replay_cons stdev floatOfText ids ⟨_, true, _⟩ ran]
        simp [serve, called, returned, lines, Portion.output, CentroidDaemon.replay]

end ScheduledDaemon

end

end Centroid
