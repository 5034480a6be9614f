import Centroid.Daemon.Cycle

namespace Centroid

structure SchedulerConfig where
  tickIntervalS : ℚ := 5
  maxCycles : Option ℕ := none
  startupDelayS : ℚ := 0

/-- What the scheduler prints of a cycle. -/
structure CycleLine where
  cycle : ℕ
  duration : ℚ
  coherence : Option ℚ
  anomalies : ℕ
  errors : ℕ

def CycleLine.ofResult (result : CycleResult) : CycleLine :=
  { cycle := result.cycleNumber
    duration := result.durationS
    coherence := result.coherenceReport.map CoherenceReport.coherenceIndex
    anomalies := result.anomalyCount
    errors := result.errors.length }

/-- One entry of what a scheduler did and of what was asked of it, in the order
of time. -/
inductive SchedulerEvent where
  | stop
  | runnerRun (cycleNumber : ℕ)
  | printed (line : CycleLine)
  | slept (seconds : ℚ)
  | stopped (completedCycles : ℕ)

/-- What each run of the runner returns or raises, the monotonic clock around
it, and the moments at which `stop` is called: before `start`, while it has not
begun its first run, from the beginning of a cycle to the test of the flag, and
from that test to the next cycle. -/
structure SchedulerEnvironment where
  runnerRun : ℕ → Except String CycleResult
  cycleStart : ℕ → ℚ
  cycleEnd : ℕ → ℚ
  stopBeforeStart : Bool
  stopInStartup : Bool
  stopInCycle : ℕ → Bool
  stopAfterCycle : ℕ → Bool

structure CycleScheduler where
  config : SchedulerConfig
  stopFlag : Bool
  completedCycles : ℕ

namespace CycleScheduler

def init (config : SchedulerConfig) : CycleScheduler := ⟨config, false, 0⟩

def stop (self : CycleScheduler) : CycleScheduler := { self with stopFlag := true }

/-- A moment at which `stop` may be called. -/
def mayStop (self : CycleScheduler) (called : Bool) : CycleScheduler × List SchedulerEvent :=
  if called then (self.stop, [.stop]) else (self, [])

def limitReached (self : CycleScheduler) : Bool := self.config.maxCycles.any (· ≤ self.completedCycles)

def sleep (seconds : ℚ) : List SchedulerEvent := if 0 < seconds then [.slept seconds] else []

/-- One turn of the loop of `start`, and whether the loop goes on. An exception
of the runner leaves it. -/
def turn (env : SchedulerEnvironment) (cycleNumber : ℕ) (self : CycleScheduler) :
    CycleScheduler × List SchedulerEvent × Bool :=
  let (self, stops) := self.mayStop (env.stopInCycle cycleNumber)
  match env.runnerRun cycleNumber with
  | .error _ => (self, .runnerRun cycleNumber :: stops, false)
  | .ok result =>
    let self := { self with completedCycles := self.completedCycles + 1 }
    let events := .runnerRun cycleNumber :: stops ++ [.printed (.ofResult result)]
    if self.limitReached then (self, events ++ [.stopped self.completedCycles], false)
    else if self.stopFlag then (self, events ++ [.stopped self.completedCycles], false)
    else
      let elapsed := env.cycleEnd cycleNumber - env.cycleStart cycleNumber
      let sleepS := max 0 (self.config.tickIntervalS - elapsed)
      let (self, stops) := self.mayStop (env.stopAfterCycle cycleNumber)
      (self, events ++ sleep sleepS ++ stops, true)

/-- At most the given number of turns of the loop. -/
def loop (env : SchedulerEnvironment) : ℕ → ℕ → CycleScheduler → CycleScheduler × List SchedulerEvent
  | 0, _, self => (self, [])
  | turns + 1, cycleNumber, self =>
    match turn env cycleNumber self with
    | (self, events, false) => (self, events)
    | (self, events, true) =>
      let (self, rest) := loop env turns (cycleNumber + 1) self
      (self, events ++ rest)

def start (env : SchedulerEnvironment) (turns : ℕ) (self : CycleScheduler) :
    CycleScheduler × List SchedulerEvent :=
  let delay := sleep self.config.startupDelayS
  let (self, stops) := self.mayStop env.stopInStartup
  let (self, events) := loop env turns 0 self
  (self, delay ++ stops ++ events)

/-- All that happens up to some turn, from the construction of a scheduler. -/
def session (env : SchedulerEnvironment) (turns : ℕ) (config : SchedulerConfig) : List SchedulerEvent :=
  let (self, stops) := (init config).mayStop env.stopBeforeStart
  stops ++ (start env turns self).2

/-- The cycle numbers that the runner was called with. -/
def begun (events : List SchedulerEvent) : List ℕ :=
  events.filterMap fun
    | .runnerRun cycleNumber => some cycleNumber
    | _ => none

def NoRunAfterStop (events : List SchedulerEvent) : Prop :=
  events.Pairwise fun earlier later => earlier = .stop → ∀ cycleNumber, later ≠ .runnerRun cycleNumber

end CycleScheduler

end Centroid
