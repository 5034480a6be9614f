import Centroid.Memory.Rebuild
import Centroid.Runtime.AcceptedConfigs
import Centroid.Runtime.Scenarios

namespace Centroid

open MemoryStore

namespace ConfiguredAgent

section

variable (self : ConfiguredAgent) (tools : TextTools) (scanOther : List Char → Option (Json × List Char))
  (drawn : Json → String × String)

/-- What is retained of the events of a case, if its mode is a supported one. -/
def keptOf (draws : ScenarioDraws) (case : ScenarioCase) : List Event :=
  match self.memory.retain draws.summary (caseEvents draws case.events) with
  | .ok result => result.retainedEvents
  | .error _ => []

/-- The case that a scenario is about. What is approved has no part in its events. -/
def caseNamed (scenario : String) : Option ScenarioCase :=
  if scenario = "project-companion" then some self.projectCompanion
  else if scenario = "support-continuity" then some self.supportContinuity
  else if scenario = "operations-observer" then some (self.operationsObserver false)
  else if scenario = "temporal-layering" then some self.temporalLayering
  else if scenario = "persistent-identity" then some (self.persistentIdentity 2)
  else if scenario = "safety-gate" then some (self.operationsObserver false)
  else none

/-- What a scenario adds to a file. -/
def written (draws : ScenarioDraws) (scenario file : String) : List Event :=
  match self.caseNamed scenario with
  | none => []
  | some case => if case.file = file then self.keptOf draws case else []

/-- The directory in which these events have been written. -/
def dirOf (log : String → List Event) : StateDir := fun file => journal (log file)

theorem persist_journal (memory : ConfiguredMemoryManager) (generated : String × String) (old events : List Event) :
    memory.persist generated tools scanOther drawn (journal old) events =
      (memory.retain generated events).map fun result => (result, journal (old ++ result.retainedEvents)) := by
  obtain ⟨store, constructed, -⟩ := construct_journal tools scanOther drawn {} old
  rw [ConfiguredMemoryManager.persist, constructed]
  cases memory.retain generated events with
  | error e => rfl
  | ok result =>
    have file := file_foldl_append tools store old result.retainedEvents
    exact congrArg (fun file => Except.ok (result, file)) file

variable {draws : ScenarioDraws}

/-- A run of a case: what it writes, and what it claims to have kept. -/
theorem runCase_spec (case : ScenarioCase) (say : Say) (log : String → List Event) :
    let ran := self.runCase draws tools scanOther drawn case say (dirOf log)
    ran.1 = dirOf (fun file => log file ++ if case.file = file then self.keptOf draws case else []) ∧
      ((∃ run, ran.2 = .ok run) ↔ self.config.memoryPolicy.retentionMode ∈ ConfiguredMemoryManager.supportedModes) ∧
      ∀ run, ran.2 = .ok run → run.memory.retainedEvents = self.keptOf draws case ∧
        ∃ priority, run = self.resultOf draws case say run.memory priority := by
  intro ran
  have persisted := persist_journal tools scanOther drawn self.memory draws.summary (log case.file)
    (caseEvents draws case.events)
  have supported : (∃ result, self.memory.retain draws.summary (caseEvents draws case.events) = .ok result) ↔
      self.config.memoryPolicy.retentionMode ∈ ConfiguredMemoryManager.supportedModes :=
    self.memory.exists_retain_iff draws.summary _
  rw [← supported]
  cases retained : self.memory.retain draws.summary (caseEvents draws case.events) with
  | error e =>
    have kept : self.keptOf draws case = [] := by rw [keptOf, retained]
    have failed : ran = (dirOf log, .error (.retention e)) := by
      rw [retained] at persisted
      show self.runCase draws tools scanOther drawn case say (dirOf log) = _
      rw [runCase, dirOf, persisted]
      rfl
    rw [failed, kept]
    refine ⟨?_, iff_of_false (fun ⟨_, ok⟩ => nomatch ok) (fun ⟨_, ok⟩ => nomatch ok), fun run ok => nomatch ok⟩
    funext file
    simp only [dirOf, ite_self, List.append_nil]
  | ok result =>
    have kept : self.keptOf draws case = result.retainedEvents := by rw [keptOf, retained]
    obtain ⟨priority, routed, -⟩ := self.priority.exists_route case.signal false
    have done : ran = (Function.update (dirOf log) case.file (journal (log case.file ++ result.retainedEvents)),
        .ok (self.resultOf draws case say result priority)) := by
      rw [retained] at persisted
      show self.runCase draws tools scanOther drawn case say (dirOf log) = _
      rw [runCase, dirOf, persisted]
      dsimp only [Except.map]
      rw [routed]
    rw [done, kept]
    refine ⟨?_, iff_of_true ⟨_, rfl⟩ ⟨_, rfl⟩, fun run ok => ?_⟩
    · funext file
      dsimp only
      by_cases here : case.file = file
      · rw [← here, Function.update_self, dirOf, if_pos rfl]
      · rw [Function.update_of_ne (Ne.symm here), dirOf, dirOf, if_neg here, List.append_nil]
    · rw [← Except.ok.inj ok]
      exact ⟨rfl, priority, rfl⟩

end

section Base

variable (self : ConfiguredAgent) (tools : TextTools) (scanOther : List Char → Option (Json × List Char))
  (drawn : Json → String × String) (draws : ScenarioDraws)

/-- What a scenario leaves, and what its result tells, for the case that it is about. -/
def Leaves (scenario : String) (log : String → List Event) (ran : StateDir × Except ScenarioError ScenarioRun) : Prop :=
  ran.1 = dirOf (fun file => log file ++ self.written draws scenario file) ∧
    ((∃ run, ran.2 = .ok run) ↔ (self.caseNamed scenario).isSome = true ∧
      self.config.memoryPolicy.retentionMode ∈ ConfiguredMemoryManager.supportedModes) ∧
    ∀ run, ran.2 = .ok run → ∃ case, self.caseNamed scenario = some case ∧
      run.memory.retainedEvents = self.keptOf draws case

variable {self draws}

theorem leaves_of_case {scenario : String} {case named : ScenarioCase} (isNamed : self.caseNamed scenario = some named)
    (file : case.file = named.file) (events : case.events = named.events) (say : Say)
    (log : String → List Event) :
    self.Leaves draws scenario log (self.runCase draws tools scanOther drawn case say (dirOf log)) := by
  have kept : self.keptOf draws case = self.keptOf draws named := by rw [keptOf, keptOf, events]
  obtain ⟨dir, succeeds, tells⟩ := self.runCase_spec tools scanOther drawn case say log
  refine ⟨?_, ?_, fun run ok => ⟨named, isNamed, (tells run ok).1.trans kept⟩⟩
  · rw [dir]
    simp only [written, isNamed, file, kept]
  · rw [succeeds, isNamed, Option.isSome_some, and_iff_right rfl]

theorem runBase_leaves (scenario : String) (approveAction : Bool) (log : String → List Event) :
    self.Leaves draws scenario log (self.runBase draws tools scanOther drawn scenario approveAction (dirOf log)) := by
  have observed (approve : Bool) (scenario : String) (named : self.caseNamed scenario = some (self.operationsObserver false)) :
      self.Leaves draws scenario log (self.runOperationsObserver draws tools scanOther drawn approve (dirOf log)) := by
    unfold runOperationsObserver
    refine leaves_of_case tools scanOther drawn named ?_ ?_ _ log
    · rfl
    · rfl
  unfold runBase
  split
  · rename_i isName
    rw [isName]
    exact leaves_of_case tools scanOther drawn rfl rfl rfl _ log
  · split
    · rename_i isName
      rw [isName]
      exact leaves_of_case tools scanOther drawn rfl rfl rfl _ log
    · split
      · rename_i isName
        rw [isName]
        exact observed approveAction _ rfl
      · split
        · rename_i isName
          rw [isName]
          exact leaves_of_case tools scanOther drawn rfl rfl rfl _ log
        · split
          · rename_i isName
            rw [isName]
            exact leaves_of_case tools scanOther drawn rfl rfl rfl _ log
          · split
            · rename_i isName
              rw [isName]
              obtain ⟨dir, succeeds, tells⟩ := observed false "safety-gate" rfl
              unfold runSafetyGate
              rcases ran : self.runOperationsObserver draws tools scanOther drawn false (dirOf log) with ⟨after, e | base⟩
              · rw [ran] at dir succeeds tells
                exact ⟨dir, succeeds, fun run ok => nomatch ok⟩
              · rw [ran] at dir succeeds tells
                refine ⟨dir, iff_of_true ⟨_, rfl⟩ (succeeds.mp ⟨base, rfl⟩), fun run ok => ?_⟩
                cases ok
                exact tells base rfl
            · rename_i notProject notSupport notOperations notTemporal notIdentity notGate
              have unnamed : self.caseNamed scenario = none := by
                rw [caseNamed, if_neg notProject, if_neg notSupport, if_neg notOperations, if_neg notTemporal,
                  if_neg notIdentity, if_neg notGate]
              refine ⟨?_, iff_of_false (fun ⟨_, ok⟩ => nomatch ok) fun both => ?_, fun run ok => nomatch ok⟩
              · funext file
                simp only [dirOf, written, unnamed, List.append_nil]
              · rw [unnamed] at both
                cases both.1

end Base

/-- A call of `run_scenario`, with the world that it meets. -/
structure ScenarioCall where
  draws : ScenarioDraws
  scenario : String
  approveAction : Bool
  choice : Option ProviderChoice
  world : ProviderWorld
  documents : String → Except String JsonObject

section Runs

variable (self : ConfiguredAgent) (tools : TextTools) (scanOther : List Char → Option (Json × List Char))
  (drawn : Json → String × String)

/-- What a call comes to in a directory. -/
def serve (dir : StateDir) (call : ScenarioCall) : StateDir × List NetworkCall × Except ScenarioError ScenarioRun :=
  self.runScenario call.draws call.world call.documents tools scanOther drawn call.scenario call.approveAction call.choice dir

/-- One call after the other, in one directory. -/
def runScenarios (dir : StateDir) : List ScenarioCall →
    StateDir × List (List NetworkCall × Except ScenarioError ScenarioRun)
  | [] => (dir, [])
  | call :: calls =>
    let (dir, reply) := self.serve tools scanOther drawn dir call
    let (dir, replies) := runScenarios dir calls
    (dir, reply :: replies)

/-- With or without a provider, and whatever it does, a call leaves what its scenario
leaves, and a result tells what has been kept. -/
theorem serve_spec (call : ScenarioCall) (log : String → List Event) :
    let ran := self.serve tools scanOther drawn (dirOf log) call
    ran.1 = dirOf (fun file => log file ++ self.written call.draws call.scenario file) ∧
      ∀ run, ran.2.2 = .ok run → ∃ case, self.caseNamed call.scenario = some case ∧
        run.memory.retainedEvents = self.keptOf call.draws case := by
  intro ran
  obtain ⟨dir, -, tells⟩ := @runBase_leaves self tools scanOther drawn call.draws call.scenario call.approveAction log
  have course : ran = self.serve tools scanOther drawn (dirOf log) call := rfl
  rw [course, serve, runScenario]
  rcases base : self.runBase call.draws tools scanOther drawn call.scenario call.approveAction (dirOf log) with
    ⟨after, e | run⟩
  · rw [base] at dir
    exact ⟨dir, fun run ok => nomatch ok⟩
  · rw [base] at dir tells
    dsimp only
    split
    · refine ⟨dir, fun run' ok => ?_⟩
      cases ok
      exact tells run rfl
    · rename_i choice chosen
      refine ⟨dir, fun run' ok => ?_⟩
      dsimp only at ok
      unfold askProvider at ok
      split at ok
      · cases ok
      · dsimp only at ok
        split at ok
        · cases ok
        · cases ok
          exact tells run rfl

/-- One call after the other writes what each of them adds. -/
theorem runScenarios_dir (log : String → List Event) (calls : List ScenarioCall) :
    (self.runScenarios tools scanOther drawn (dirOf log) calls).1 =
      dirOf fun file => log file ++ calls.flatMap fun call => self.written call.draws call.scenario file := by
  induction calls generalizing log with
  | nil =>
    funext file
    exact congrArg journal (List.append_nil (log file)).symm
  | cons call calls ih =>
    have later := ih fun file => log file ++ self.written call.draws call.scenario file
    rw [← (self.serve_spec tools scanOther drawn call log).1] at later
    refine later.trans ?_
    funext file
    simp only [dirOf, List.flatMap_cons, List.append_assoc]

variable {self tools scanOther drawn}

/-- What every reply has, whatever has been written before, the replies of a
session have. -/
theorem runScenarios_replies {P : ScenarioCall → List NetworkCall × Except ScenarioError ScenarioRun → Prop}
    (each : ∀ log call, P call (self.serve tools scanOther drawn (dirOf log) call).2)
    (log : String → List Event) (calls : List ScenarioCall) :
    List.Forall₂ P calls (self.runScenarios tools scanOther drawn (dirOf log) calls).2 := by
  induction calls generalizing log with
  | nil => exact .nil
  | cons call calls ih =>
    have later := ih fun file => log file ++ self.written call.draws call.scenario file
    rw [← (self.serve_spec tools scanOther drawn call log).1] at later
    exact .cons (each log call) later

variable (self tools scanOther drawn)

/-- In a directory that was empty, each file holds what the calls have kept in it, in
their order, also those that a provider made fail. A store can be opened on each file
and reads these events, and every result tells what its own call has kept. -/
theorem runScenarios_journals (calls : List ScenarioCall) :
    let final := self.runScenarios tools scanOther drawn (fun _ => none) calls
    let kept (file : String) := calls.flatMap fun call => self.written call.draws call.scenario file
    (∀ file, final.1 file = journal (kept file) ∧
      (∃ store, MemoryStore.construct tools scanOther drawn {} (final.1 file) = some store) ∧
      MemoryStore.tail scanOther drawn (final.1 file) 0 = some ((kept file).map Event.stored)) ∧
    List.Forall₂ (fun call reply => ∀ run, reply.2 = .ok run → ∃ case, self.caseNamed call.scenario = some case ∧
      run.memory.retainedEvents = self.keptOf call.draws case) calls final.2 := by
  intro final kept
  have told := fun log call => (self.serve_spec tools scanOther drawn call log).2
  refine ⟨fun file => ?_, runScenarios_replies told (fun _ => []) calls⟩
  have holds : final.1 file = journal (kept file) :=
    congrFun (self.runScenarios_dir tools scanOther drawn (fun _ => []) calls) file
  rw [holds]
  obtain ⟨store, opened, -⟩ := construct_journal tools scanOther drawn {} (kept file)
  refine ⟨rfl, ⟨store, opened⟩, ?_⟩
  have read := tail_journal scanOther drawn (kept file) 0
  rwa [if_pos rfl] at read

end Runs

end ConfiguredAgent

end Centroid
