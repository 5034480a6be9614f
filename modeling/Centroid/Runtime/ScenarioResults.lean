import Centroid.Runtime.SafetyDecisions
import Centroid.Runtime.ScenarioRuns

namespace Centroid

namespace ConfiguredAgent

variable (self : ConfiguredAgent)

/-- The restart that a scenario proposes may be made. -/
def Executes (scenario : String) (approveAction : Bool) : Prop :=
  scenario = "operations-observer" ∧ approveAction = true ∧
    "restart_service" ∉ self.config.safetyPolicy.denyActions ∧
    ("restart_service" ∈ self.config.safetyPolicy.approvalRequiredFor ∨
      self.config.safetyPolicy.defaultMutationMode ≠ .deny)

theorem restart_allowed_iff (approveAction : Bool) :
    ((self.safety.evaluate matchesSecret (self.operationsObserver approveAction).request).allowed && approveAction) = true ↔
      self.Executes "operations-observer" approveAction := by
  have plain : matchesSecret (self.operationsObserver approveAction).request.normalized = false := by
    have text : (self.operationsObserver approveAction).request.normalized =
      (defaultAgent.operationsObserver false).request.normalized := rfl
    rw [text]
    decide +kernel
  have grounds : self.safety.grounds matchesSecret (self.operationsObserver approveAction).request =
      { secret := false
        denied := decide ("restart_service" ∈ self.config.safetyPolicy.denyActions)
        held := decide ("restart_service" ∈ self.config.safetyPolicy.approvalRequiredFor)
        planned := false
        confirmed := approveAction
        mutates := true
        default := self.config.safetyPolicy.defaultMutationMode } := by
    rw [ConfiguredSafetyPolicy.grounds, plain]
    rfl
  rw [Bool.and_eq_true, SafetyDecision.allowed, decide_eq_true_iff,
    (self.safety.evaluate_spec matchesSecret _).1, Grounds.verdict_eq_allow_iff, grounds, Executes]
  cases approveAction with
  | false => simp only [Bool.false_eq_true, and_false, false_and]
  | true =>
    simp only [and_true, true_and, decide_eq_false_iff_not, decide_eq_true_iff]
    refine and_congr_right fun _ => ?_
    by_cases held : "restart_service" ∈ self.config.safetyPolicy.approvalRequiredFor
    · simp only [held, true_or]
    · simp only [held, false_or, not_false_eq_true, true_and, Bool.true_eq_false]
      cases self.config.safetyPolicy.defaultMutationMode <;> decide

section Base

variable (tools : TextTools) (scanOther : List Char → Option (Json × List Char)) (drawn : Json → String × String)
  {draws : ScenarioDraws}

theorem runCase_tells {case : ScenarioCase} {say : Say} {log : String → List Event} {run : ScenarioRun}
    (ok : (self.runCase draws tools scanOther drawn case say (dirOf log)).2 = .ok run) :
    run.memory.retainedEvents = self.keptOf draws case ∧ run.safety = self.safety.evaluate matchesSecret case.request ∧
      ∃ priority, let said := say run.memory priority run.safety
        run.contradictions = said.2.2 ∧ run.shown.telemetry = .ofList said.2.1 := by
  obtain ⟨kept, priority, told⟩ := (self.runCase_spec tools scanOther drawn case say log).2.2 run ok
  have judged : run.safety = self.safety.evaluate matchesSecret case.request := by rw [told]; rfl
  refine ⟨kept, judged, priority, ?_, ?_⟩
  · rw [told]; rfl
  · rw [told]; rfl

/-- The change to the project that is proposed. -/
def proposedChange : String := "Allow chatbot answers from general model knowledge."

/-- What a result tells of an execution and of contradictions. -/
def Tells (draws : ScenarioDraws) (scenario : String) (approveAction : Bool) (run : ScenarioRun) : Prop :=
  (run.shown.telemetry.get? "action_executed" = some (.bool true) ↔ self.Executes scenario approveAction) ∧
    run.contradictions =
      if scenario = "project-companion" then
        detectProjectContradictions tools (self.keptOf draws self.projectCompanion) proposedChange
      else []

variable {self tools scanOther drawn}

/-- A case whose telemetry says nothing of an execution. -/
theorem tells_of_silent {case : ScenarioCase} {say : Say} {log : String → List Event} {run : ScenarioRun} {scenario : String}
    {approveAction : Bool} (ok : (self.runCase draws tools scanOther drawn case say (dirOf log)).2 = .ok run)
    (other : scenario ≠ "operations-observer")
    (silent : ∀ memory priority safety, (Dict.ofList (say memory priority safety).2.1).get? "action_executed" = none)
    (found : ∀ memory priority safety, memory.retainedEvents = self.keptOf draws case →
      (say memory priority safety).2.2 =
        if scenario = "project-companion" then
          detectProjectContradictions tools (self.keptOf draws self.projectCompanion) proposedChange
        else []) :
    self.Tells tools draws scenario approveAction run := by
  obtain ⟨kept, -, priority, contradictions, telemetry⟩ := self.runCase_tells tools scanOther drawn ok
  refine ⟨iff_of_false ?_ (fun executes => other executes.1), ?_⟩
  · rw [telemetry, silent]
    exact fun told => nomatch told
  · rw [contradictions, found _ _ _ kept]

theorem runOperationsObserver_tells {approveAction : Bool} {log : String → List Event} {run : ScenarioRun}
    (ok : (self.runOperationsObserver draws tools scanOther drawn approveAction (dirOf log)).2 = .ok run) :
    self.Tells tools draws "operations-observer" approveAction run := by
  obtain ⟨-, safety, priority, contradictions, telemetry⟩ := self.runCase_tells tools scanOther drawn ok
  refine ⟨?_, contradictions⟩
  rw [telemetry, Dict.get?_ofList, ← self.restart_allowed_iff, safety]
  simp

theorem runBase_tells {scenario : String} {approveAction : Bool} {log : String → List Event} {run : ScenarioRun}
    (ok : (self.runBase draws tools scanOther drawn scenario approveAction (dirOf log)).2 = .ok run) :
    self.Tells tools draws scenario approveAction run := by
  unfold runBase at ok
  split at ok
  · rename_i isName
    rw [isName]
    refine tells_of_silent ok (by decide) (fun _ _ _ => by simp [Dict.get?_ofList]) fun memory _ _ kept => ?_
    rw [if_pos rfl, kept]
    rfl
  · split at ok
    · rename_i isName
      rw [isName]
      exact tells_of_silent ok (by decide) (fun _ _ _ => by simp [Dict.get?_ofList]) fun _ _ _ _ => rfl
    · split at ok
      · rename_i isName
        rw [isName]
        exact runOperationsObserver_tells ok
      · split at ok
        · rename_i isName
          rw [isName]
          exact tells_of_silent ok (by decide) (fun _ _ _ => by simp [Dict.get?_ofList]) fun _ _ _ _ => rfl
        · split at ok
          · rename_i isName
            rw [isName]
            exact tells_of_silent ok (by decide) (fun _ _ _ => by simp [Dict.get?_ofList]) fun _ _ _ _ => rfl
          · split at ok
            · rename_i isName
              rw [isName]
              unfold runSafetyGate at ok
              rcases ran : self.runOperationsObserver draws tools scanOther drawn false (dirOf log) with ⟨after, e | base⟩
              · rw [ran] at ok
                cases ok
              · rw [ran] at ok
                cases ok
                -- what is observed here is observed without approval
                obtain ⟨executed, contradictions⟩ := runOperationsObserver_tells (congrArg Prod.snd ran)
                refine ⟨iff_of_false (fun told => ?_) (fun executes => absurd executes.1 (by decide)), contradictions⟩
                exact Bool.false_ne_true (executed.mp told).2.1
            · cases ok

end Base

/-- What a provider adds to the telemetry. -/
def providerKeys : List String :=
  ["provider_id", "provider_model", "provider_tool_proposals", "provider_tool_executions", "provider_safety_disposition",
    "provider_live"]

/-- The result with a provider and the one without: the provider has its part in
the text and in its own keys, and it has executed nothing. -/
structure Unmoved (base run : ScenarioRun) : Prop where
  rest : run = { base with shown := run.shown }
  telemetry : ∀ key, key ∉ providerKeys → run.shown.telemetry.get? key = base.shown.telemetry.get? key
  friendly : base.shown.friendly.toList <+: run.shown.friendly.toList
  executions : run.shown.telemetry.get? "provider_tool_executions" = some (number 0)

theorem applyProvider_unmoved (secret : String → Bool) (render : Json → String) (base : ScenarioRun)
    (response : ModelResponse) (live : Bool) :
    Unmoved base { base with shown := self.applyProvider secret render base.shown response live } where
  rest := rfl
  telemetry := by
    intro key foreign
    simp only [providerKeys, List.mem_cons, List.not_mem_nil, or_false, not_or] at foreign
    obtain ⟨id, model, proposals, executions, disposition, live⟩ := foreign
    simp only [applyProvider, List.foldl_cons, List.foldl_nil, Dict.get?_set, Ne.symm id, Ne.symm model,
      Ne.symm proposals, Ne.symm executions, Ne.symm disposition, Ne.symm live, if_false]
  friendly := by
    show _ <+: (if response.text = "" then base.shown.friendly
      else base.shown.friendly ++ "\n\n[model:" ++ response.providerId ++ "] " ++ response.text).toList
    split
    · exact List.prefix_rfl
    · simp only [String.toList_append, List.append_assoc]
      exact List.prefix_append _ _
  executions := by
    simp only [applyProvider, List.foldl_cons, List.foldl_nil, Dict.get?_set]
    simp [number]

section Provider

variable (tools : TextTools) (scanOther : List Char → Option (Json × List Char)) (drawn : Json → String × String)

/-- The same call without a provider. -/
def ScenarioCall.unassisted (call : ScenarioCall) : ScenarioCall := { call with choice := none }

/-- How the reply to a call goes with the one that there is without a provider. -/
structure Assisted (reply plain : List NetworkCall × Except ScenarioError ScenarioRun) : Prop where
  quiet : plain.1 = []
  fails : ∀ e, plain.2 = .error e → reply = ([], .error e)
  faults : ∀ base, plain.2 = .ok base → ∀ e, reply.2 = .error e → ∃ fault, e = .provider fault
  unmoved : ∀ run, reply.2 = .ok run → ∃ base, plain.2 = .ok base ∧ (run = base ∨ Unmoved base run)

theorem Assisted.of_failed (e : ScenarioError) : Assisted ([], .error e) ([], .error e) where
  quiet := rfl
  fails other same := by rw [Except.error.inj same]
  faults _ same := by cases same
  unmoved _ same := by cases same

theorem Assisted.of_fault (calls : List NetworkCall) (base : ScenarioRun) (fault : ProviderFault) :
    Assisted (calls, .error (.provider fault)) ([], .ok base) where
  quiet := rfl
  fails _ same := by cases same
  faults _ _ _ same := ⟨fault, (Except.error.inj same).symm⟩
  unmoved _ same := by cases same

theorem Assisted.of_run (calls : List NetworkCall) {base run : ScenarioRun} (kept : run = base ∨ Unmoved base run) :
    Assisted (calls, .ok run) ([], .ok base) where
  quiet := rfl
  fails _ same := by cases same
  faults _ _ _ same := by cases same
  unmoved other same := ⟨base, rfl, Except.ok.inj same ▸ kept⟩

theorem serve_unassisted (dir : StateDir) (call : ScenarioCall) :
    self.serve tools scanOther drawn dir call.unassisted =
      let ran := self.runBase call.draws tools scanOther drawn call.scenario call.approveAction dir
      (ran.1, [], ran.2) := by
  have same : self.runBase call.unassisted.draws tools scanOther drawn call.unassisted.scenario
    call.unassisted.approveAction dir = self.runBase call.draws tools scanOther drawn call.scenario call.approveAction dir := rfl
  rw [serve, runScenario, same]
  rcases self.runBase call.draws tools scanOther drawn call.scenario call.approveAction dir with ⟨after, e | base⟩
  · rfl
  · rfl

theorem serve_assisted (dir : StateDir) (call : ScenarioCall) :
    let reply := self.serve tools scanOther drawn dir call
    let plain := self.serve tools scanOther drawn dir call.unassisted
    reply.1 = plain.1 ∧ Assisted reply.2 plain.2 := by
  intro reply plain
  have asked : reply = self.serve tools scanOther drawn dir call := rfl
  have unasked : plain = self.serve tools scanOther drawn dir call.unassisted := rfl
  rw [unasked, serve_unassisted, asked, serve, runScenario]
  rcases self.runBase call.draws tools scanOther drawn call.scenario call.approveAction dir with ⟨after, e | base⟩
  · exact ⟨rfl, .of_failed e⟩
  · dsimp only
    split
    · exact ⟨rfl, .of_run [] (.inl rfl)⟩
    · dsimp only
      unfold askProvider
      split
      · exact ⟨rfl, .of_fault _ base _⟩
      · dsimp only
        split
        · exact ⟨rfl, .of_fault _ base _⟩
        · exact ⟨rfl, .of_run _ (.inr (self.applyProvider_unmoved _ _ base _ _))⟩

theorem runScenarios_cons (dir : StateDir) (call : ScenarioCall) (calls : List ScenarioCall) :
    self.runScenarios tools scanOther drawn dir (call :: calls) =
      let ran := self.serve tools scanOther drawn dir call
      let later := self.runScenarios tools scanOther drawn ran.1 calls
      (later.1, ran.2 :: later.2) := rfl

/-- Whatever the providers reply or raise, a session with them leaves the same files
as the session without them. A call that fails without its provider fails alike with
it and asks nobody, and a result is the one that there is without a provider, apart
from the text that is added and the provider's own keys. -/
theorem runScenarios_assisted (dir : StateDir) (calls : List ScenarioCall) :
    let assisted := self.runScenarios tools scanOther drawn dir calls
    let plain := self.runScenarios tools scanOther drawn dir (calls.map ScenarioCall.unassisted)
    assisted.1 = plain.1 ∧ List.Forall₂ Assisted assisted.2 plain.2 := by
  induction calls generalizing dir with
  | nil => exact ⟨rfl, .nil⟩
  | cons call calls ih =>
    obtain ⟨sameDir, assisted⟩ := self.serve_assisted tools scanOther drawn dir call
    rw [List.map_cons, runScenarios_cons, runScenarios_cons]
    dsimp only
    rw [← sameDir]
    obtain ⟨final, replies⟩ := ih (self.serve tools scanOther drawn dir call).1
    exact ⟨final, .cons assisted replies⟩

end Provider

section Told

variable (tools : TextTools) (scanOther : List Char → Option (Json × List Char)) (drawn : Json → String × String)

/-- With a provider as well, a result tells of an execution and of contradictions. -/
theorem serve_tells (log : String → List Event) (call : ScenarioCall) (run : ScenarioRun)
    (ok : (self.serve tools scanOther drawn (dirOf log) call).2.2 = .ok run) :
    self.Tells tools call.draws call.scenario call.approveAction run := by
  obtain ⟨base, plain, same⟩ := (self.serve_assisted tools scanOther drawn (dirOf log) call).2.unmoved run ok
  rw [serve_unassisted] at plain
  obtain ⟨executed, contradictions⟩ := runBase_tells plain
  rcases same with rfl | unmoved
  · exact ⟨executed, contradictions⟩
  · refine ⟨?_, ?_⟩
    · rw [unmoved.telemetry "action_executed" (by decide), executed]
    · rw [unmoved.rest]
      exact contradictions

/-- In a session a result says that its action has been executed exactly if the
operation was observed with an approval, the restart is not among the denied
actions, and it is held for an approval or the default does not deny what mutates.
No provider and nothing that was kept before has a part in it. -/
theorem runScenarios_executed (log : String → List Event) (calls : List ScenarioCall) :
    List.Forall₂ (fun call reply => ∀ run, reply.2 = .ok run →
        (run.shown.telemetry.get? "action_executed" = some (.bool true) ↔
          call.scenario = "operations-observer" ∧ call.approveAction = true ∧
            "restart_service" ∉ self.config.safetyPolicy.denyActions ∧
            ("restart_service" ∈ self.config.safetyPolicy.approvalRequiredFor ∨
              self.config.safetyPolicy.defaultMutationMode ≠ .deny)))
      calls (self.runScenarios tools scanOther drawn (dirOf log) calls).2 := by
  have told := fun log call run ok => (self.serve_tells tools scanOther drawn log call run ok).1
  exact runScenarios_replies told log calls

variable {tools}

theorem detectProjectContradictions_ne_nil_iff (events : List Event) (change : String) :
    detectProjectContradictions tools events change ≠ [] ↔
      (∃ event ∈ events, event.eventType = "project_constraint" ∧
        SafetyPolicy.mentions ["only use approved site content"] (tools.lower event.content) = true) ∧
      SafetyPolicy.mentions ["general model knowledge"] (tools.lower change) = true := by
  unfold detectProjectContradictions
  dsimp only
  split
  · rename_i both
    rw [Bool.and_eq_true, List.any_map, List.any_filter, List.any_eq_true] at both
    obtain ⟨⟨event, member, isConstraint⟩, mentioned⟩ := both
    rw [Bool.and_eq_true, decide_eq_true_iff] at isConstraint
    exact iff_of_true (List.cons_ne_nil _ _) ⟨⟨event, member, isConstraint⟩, mentioned⟩
  · rename_i neither
    refine iff_of_false (fun other => other rfl) ?_
    rintro ⟨⟨event, member, isConstraint⟩, mentioned⟩
    refine neither ?_
    rw [Bool.and_eq_true, List.any_map, List.any_filter, List.any_eq_true]
    refine ⟨⟨event, member, ?_⟩, mentioned⟩
    rw [Bool.and_eq_true, decide_eq_true_iff]
    exact isConstraint

/-- What a case keeps where its filter lets these events through. -/
theorem keptOf_of_filter {draws : ScenarioDraws} {case : ScenarioCase} {kept : List Event}
    (filtered : self.memory.filter draws.summary (caseEvents draws case.events) = .ok kept) :
    self.keptOf draws case =
      if self.config.memoryPolicy.maxSessionEvents = 0 then kept.map fun event => (self.memory.sanitizeEvent event).1
      else (kept.map fun event => (self.memory.sanitizeEvent event).1).drop
        (kept.length - self.config.memoryPolicy.maxSessionEvents) := by
  have retained := ConfiguredMemoryManager.retain_of_filter draws.summary filtered
  rw [keptOf, retained]
  dsimp only
  rw [ConfiguredMemoryManager.retainedEvents_resultOf, List.map_map, List.length_map]
  rfl

theorem getLast_mem_limit {α : Type} (kept : List α) (last : α) (limit : ℕ) :
    last ∈ if limit = 0 then kept ++ [last] else (kept ++ [last]).drop ((kept ++ [last]).length - limit) := by
  split
  · exact List.mem_append_right _ (List.mem_singleton_self last)
  · have inside : (kept ++ [last]).length - limit ≤ kept.length := by
      rw [List.length_append, List.length_singleton]
      omega
    rw [List.drop_append_of_le_length inside]
    exact List.mem_append_right _ (List.mem_singleton_self last)

theorem mem_of_mem_limit {α : Type} {kept : List α} {item : α} {limit k : ℕ}
    (member : item ∈ if limit = 0 then kept else kept.drop k) : item ∈ kept := by
  split at member
  · exact member
  · exact List.mem_of_mem_drop member

/-- The constraint of the project is its last event, and both modes that keep it
keep all of its events. -/
theorem constraint_kept {draws : ScenarioDraws}
    (mode : self.config.memoryPolicy.retentionMode = "session_history" ∨
      self.config.memoryPolicy.retentionMode = "explicit_checkpoints") :
    ∃ event ∈ self.keptOf draws self.projectCompanion, event.eventType = "project_constraint" ∧
      event.content = "Customer-facing chatbot answers must only use approved site content." := by
  let events := caseEvents draws self.projectCompanion.events
  have filtered : self.memory.filter draws.summary events = .ok events := by
    rw [ConfiguredMemoryManager.filter]
    rcases mode with session | checkpoints
    · exact if_pos session
    · have explicit : self.memory.policy.retentionMode = "explicit_checkpoints" := checkpoints
      have other : ¬ self.memory.policy.retentionMode = "session_history" := by
        rw [explicit]
        decide
      rw [if_neg other, if_pos explicit]
      refine congrArg Except.ok (List.filter_eq_self.mpr ?_)
      simp [events, caseEvents, projectCompanion, Dict.get?_ofList]
  have nonempty : events.map (fun event => (self.memory.sanitizeEvent event).1) ≠ [] := List.cons_ne_nil _ _
  have parts := List.dropLast_append_getLast nonempty
  refine ⟨(events.map fun event => (self.memory.sanitizeEvent event).1).getLast nonempty, ?_, rfl, rfl⟩
  rw [self.keptOf_of_filter filtered]
  have last := getLast_mem_limit (events.map fun event => (self.memory.sanitizeEvent event).1).dropLast
    ((events.map fun event => (self.memory.sanitizeEvent event).1).getLast nonempty)
    self.config.memoryPolicy.maxSessionEvents
  rwa [parts, List.length_map] at last

theorem constraint_not_kept {draws : ScenarioDraws}
    (mode : ¬ (self.config.memoryPolicy.retentionMode = "session_history" ∨
      self.config.memoryPolicy.retentionMode = "explicit_checkpoints")) :
    ∀ event ∈ self.keptOf draws self.projectCompanion, event.eventType ≠ "project_constraint" := by
  obtain ⟨notSession, notCheckpoints⟩ := not_or.mp mode
  have course : self.memory.filter draws.summary (caseEvents draws self.projectCompanion.events) =
      if self.config.memoryPolicy.retentionMode = "audit_only" then .ok []
      else if self.config.memoryPolicy.retentionMode = "summary_only" then
        .ok ((caseEvents draws self.projectCompanion.events).getLast?.map (self.memory.summaryOf draws.summary)).toList
      else .error (.valueError ("unsupported memory retention mode: " ++ self.config.memoryPolicy.retentionMode)) := by
    have noAudit : (caseEvents draws self.projectCompanion.events).filter
        (fun event => event.metadata.get? "memory_kind" = some "audit") = [] := by
      simp [caseEvents, projectCompanion, Dict.get?_ofList]
    rw [ConfiguredMemoryManager.filter, noAudit]
    exact (if_neg notSession).trans (if_neg notCheckpoints)
  intro event member
  by_cases audit : self.config.memoryPolicy.retentionMode = "audit_only"
  · rw [if_pos audit] at course
    rw [self.keptOf_of_filter course] at member
    exact absurd (mem_of_mem_limit member) List.not_mem_nil
  · rw [if_neg audit] at course
    by_cases summary : self.config.memoryPolicy.retentionMode = "summary_only"
    · rw [if_pos summary] at course
      rw [self.keptOf_of_filter course] at member
      obtain ⟨source, isSummary, rfl⟩ := List.mem_map.mp (mem_of_mem_limit member)
      rw [Option.mem_toList, Option.map_eq_some_iff] at isSummary
      obtain ⟨last, -, rfl⟩ := isSummary
      show "task_summary" ≠ "project_constraint"
      decide
    · rw [if_neg summary] at course
      have nothing : self.keptOf draws self.projectCompanion = [] := by
        rw [keptOf, ConfiguredMemoryManager.retain, course]
        rfl
      rw [nothing] at member
      exact absurd member List.not_mem_nil

theorem ascii_of_all {text : String} (all : text.toList.all (fun c => decide (c.toNat < 128)) = true) :
    ∀ c ∈ text.toList, c.toNat < 128 :=
  fun c member => of_decide_eq_true (List.all_eq_true.mp all c member)

variable (ascii : ∀ text : String, (∀ c ∈ text.toList, c.toNat < 128) → tools.lower text =
  String.ofList (text.toList.map Char.toLower))

include ascii in
theorem contradictions_iff (log : String → List Event) (call : ScenarioCall) (run : ScenarioRun)
    (ok : (self.serve tools scanOther drawn (dirOf log) call).2.2 = .ok run) :
    run.contradictions ≠ [] ↔ call.scenario = "project-companion" ∧
      (self.config.memoryPolicy.retentionMode = "session_history" ∨
        self.config.memoryPolicy.retentionMode = "explicit_checkpoints") := by
  rw [(self.serve_tells tools scanOther drawn log call run ok).2]
  by_cases project : call.scenario = "project-companion"
  · rw [if_pos project, and_iff_right project, detectProjectContradictions_ne_nil_iff]
    have change : SafetyPolicy.mentions ["general model knowledge"] (tools.lower proposedChange) = true := by
      rw [ascii proposedChange (ascii_of_all (by decide +kernel))]
      decide +kernel
    rw [and_iff_left change]
    constructor
    · rintro ⟨event, member, isConstraint, -⟩
      by_contra mode
      exact self.constraint_not_kept mode event member isConstraint
    · intro mode
      obtain ⟨event, member, isConstraint, content⟩ := self.constraint_kept mode
      refine ⟨event, member, isConstraint, ?_⟩
      rw [content, ascii _ (ascii_of_all (by decide +kernel))]
      decide +kernel
  · rw [if_neg project]
    exact iff_of_false (fun other => other rfl) fun both => project both.1

include ascii in
/-- Where lower case is that of ASCII on ASCII texts, a session reports a
contradiction exactly in the project scenarios whose memory keeps the constraint:
with all of its events or with its checkpoints, under every limit on their number.
What a summary keeps of the constraint is not found. -/
theorem runScenarios_contradictions (log : String → List Event) (calls : List ScenarioCall) :
    List.Forall₂ (fun call reply => ∀ run, reply.2 = .ok run →
        (run.contradictions ≠ [] ↔ call.scenario = "project-companion" ∧
          (self.config.memoryPolicy.retentionMode = "session_history" ∨
            self.config.memoryPolicy.retentionMode = "explicit_checkpoints")))
      calls (self.runScenarios tools scanOther drawn (dirOf log) calls).2 :=
  runScenarios_replies (self.contradictions_iff scanOther drawn ascii) log calls

/-- An agent that keeps the checkpoints of its sessions. -/
def checkpointAgent : ConfiguredAgent :=
  { defaultAgent with
    config := { defaultAgent.config with memoryPolicy := ⟨"explicit_checkpoints", false, true, 1⟩ } }

def companionCall : ScenarioCall where
  draws := ⟨fun _ => ("", ""), ("", ""), "", ""⟩
  scenario := "project-companion"
  approveAction := false
  choice := none
  world := ⟨fun _ => none, fun _ => false, fun _ _ _ => .error "", fun _ => .error "",
    ⟨fun _ => .error .valueError, fun _ => "", fun _ => ""⟩⟩
  documents := fun _ => .error ""

theorem runScenarios_contradictions_companion :
    ∃ run, (checkpointAgent.runScenarios MemoryStore.epochTools (fun _ => none) (fun _ => ("", "")) (fun _ => none)
        [companionCall]).2 = [([], .ok run)] ∧ run.contradictions ≠ [] := by
  have succeeds := (@runBase_leaves checkpointAgent MemoryStore.epochTools (fun _ => none) (fun _ => ("", ""))
    companionCall.draws "project-companion" false (fun _ => [])).2.1
  obtain ⟨run, based⟩ := succeeds.mpr ⟨rfl, by decide⟩
  have replies : (checkpointAgent.runScenarios MemoryStore.epochTools (fun _ => none) (fun _ => ("", "")) (dirOf fun _ => [])
      [companionCall]).2 = [([], .ok run)] := by
    rw [runScenarios_cons]
    unfold serve runScenario
    rcases ran : checkpointAgent.runBase companionCall.draws MemoryStore.epochTools (fun _ => none) (fun _ => ("", ""))
      "project-companion" false (dirOf fun _ => []) with ⟨after, reply⟩
    rw [ran] at based
    dsimp only at based
    dsimp only [companionCall] at ran ⊢
    rw [ran, based]
    rfl
  have told := @runScenarios_contradictions checkpointAgent MemoryStore.epochTools (fun _ => none) (fun _ => ("", ""))
    (fun _ _ => rfl) (fun _ => []) [companionCall]
  rw [replies] at told
  obtain ⟨here, -⟩ := List.forall₂_cons.mp told
  exact ⟨run, replies, (here run rfl).mpr ⟨rfl, .inr rfl⟩⟩

end Told

end ConfiguredAgent

end Centroid
