import Centroid.Identity.Model
import Centroid.Providers.LiveCalls
import Centroid.Runtime.ConfiguredMemory
import Centroid.Runtime.ConfiguredPriority
import Centroid.Runtime.SafetyPolicy

namespace Centroid

/-- The record of one scenario, but for the part of a provider. -/
structure AuditRecord where
  auditId : String
  agentId : String
  displayName : String
  scenario : String
  configVersion : String
  configHash : Option String
  route : String
  priorityScore : PyFloat
  safetyDecision : String
  approvalRequired : Bool
  matchedRule : String
  policyReason : Option String
  policyVersion : String
  memoryRetentionMode : String
  retainedEventTypes : List String

/-- A scenario result: what a provider does not change, and what it does. -/
structure ScenarioRun where
  scenario : String
  priority : PyFloat
  route : String
  routeReason : String
  memory : MemoryRetentionResult
  audit : AuditRecord
  safety : SafetyDecision
  contradictions : List String
  shown : ScenarioResult

/-- What a scenario does: the events, the signal and the action that it has, and
the file that it keeps its events in. -/
structure ScenarioCase where
  name : String
  file : String
  events : List (String × String × List (String × String))
  signal : PrioritySignal
  request : ActionRequest

/-- What is generated in one run: the identifiers and times of its events and of
their summary, and the identifier of the record. -/
structure ScenarioDraws where
  event : ℕ → String × String
  summary : String × String
  auditId : String
  evolved : String

/-- What a run raises. -/
inductive ScenarioError where
  | unknownScenario (message : String)
  | retention (error : RetentionError)
  | zeroDivision
  | provider (fault : ProviderFault)

/-- The files of a directory of state. -/
abbrev StateDir := String → MemoryStore.File

/-- A provider that is asked for: with the name of another scenario, if one is given. -/
structure ProviderChoice where
  providerId : String
  scenario : Option String
  live : Bool
  model : Option String

def AgentConfig.toIdentityState (self : AgentConfig) (now : String) : IdentityState where
  agentId := self.agentId
  goals := self.goals
  invariants := self.invariants
  lastUpdated := now

namespace ConfiguredAgent

variable (self : ConfiguredAgent) (draws : ScenarioDraws)

def priority : ConfiguredPriorityScorer := ⟨self.config.priorityPolicy⟩

def memory : ConfiguredMemoryManager := ⟨self.config.memoryPolicy⟩

/-- The digest as it is shown. -/
def shortDigest : String := String.ofList (self.configDigest.toList.take 12)

/-- `_event`, for the events of a case in their order. -/
def caseEvents (events : List (String × String × List (String × String))) : List Event :=
  events.mapIdx fun i event =>
    { eventType := event.1
      content := event.2.1
      source := "configured_runtime"
      eventId := (draws.event i).1
      timestamp := (draws.event i).2
      metadata := .ofList event.2.2 }

/-- `build_audit_record`, as `_audit` calls it. -/
def audit (scenario : String) (priority : ConfiguredPriorityResult) (safety : SafetyDecision)
    (memory : MemoryRetentionResult) : AuditRecord where
  auditId := draws.auditId
  agentId := self.config.agentId
  displayName := self.config.displayName
  scenario := scenario
  configVersion := self.config.configVersion
  configHash := if self.config.auditPolicy.includeConfigHash then some self.configDigest else none
  route := priority.route.node
  priorityScore := priority.score
  safetyDecision := safety.decision.name
  approvalRequired := safety.approvalRequired
  matchedRule := safety.matchedRule
  policyReason := if self.config.auditPolicy.includePolicyReason then safety.reasons.head? else none
  policyVersion := safety.policyVersion
  memoryRetentionMode := memory.retentionMode
  retainedEventTypes := memory.retainedEvents.map Event.eventType

section Cases

def projectCompanion : ScenarioCase where
  name := "project-companion"
  file := "project_companion.jsonl"
  events :=
    [("project_goal", "Build a website for a fictional hatchery supplier.",
        [("provenance", "synthetic_session_1"), ("state_ref", "project:goal"), ("memory_kind", "checkpoint")]),
      ("project_decision", "Checkout integration will use PayPal.",
        [("provenance", "synthetic_session_1"), ("state_ref", "project:checkout"), ("memory_kind", "checkpoint")]),
      ("project_constraint", "Customer-facing chatbot answers must only use approved site content.",
        [("provenance", "synthetic_session_1"), ("state_ref", "project:chatbot"), ("memory_kind", "checkpoint")])]
  signal := ⟨.finite (35 / 100), .finite (20 / 100), .finite (80 / 100), .finite (85 / 100)⟩
  request :=
    { actionType := "review_project_state"
      resource := "project-companion"
      intendedEffect := "restore continuity and review contradictions"
      riskLevel := "low"
      reversible := true
      requestedBy := "scenario_runner"
      configId := self.config.agentId }

def supportContinuity : ScenarioCase where
  name := "support-continuity"
  file := "support_continuity.jsonl"
  events :=
    [("support_issue_opened", "Fictional customer reports incubator controller error E17 after power loss.",
        [("provenance", "synthetic_ticket_1001"), ("case_id", "case-1001"), ("customer_id", "fictional-customer-17"),
          ("memory_kind", "session")]),
      ("support_handoff_note", "Customer has hatch date pressure; request status updates before shipment promises.",
        [("provenance", "synthetic_agent_note"), ("case_id", "case-1001"), ("customer_id", "fictional-customer-17"),
          ("memory_kind", "session")])]
  signal := ⟨.finite (80 / 100), .finite (70 / 100), .finite (90 / 100), .finite (40 / 100)⟩
  request :=
    { actionType := "make_support_promise"
      resource := "case-1001"
      intendedEffect := "promise a replacement controller ships today"
      riskLevel := "medium"
      reversible := false
      requestedBy := "scenario_runner"
      configId := self.config.agentId
      mode := "act" }

def operationsObserver (approveAction : Bool) : ScenarioCase where
  name := "operations-observer"
  file := "operations_observer.jsonl"
  events :=
    [("synthetic_telemetry", "checkout-worker unhealthy with repeated synthetic connection failures.",
        [("provenance", "synthetic_ops_fixture"), ("service", "checkout-worker"), ("memory_kind", "session")]),
      ("audit_event", "proposed restart for checkout-worker after synthetic telemetry review.",
        [("provenance", "synthetic_ops_fixture"), ("service", "checkout-worker"), ("memory_kind", "audit")])]
  signal := ⟨.finite (90 / 100), .finite (80 / 100), .finite (70 / 100), .finite (20 / 100)⟩
  request :=
    { actionType := "restart_service"
      resource := "checkout-worker"
      intendedEffect := "restart service checkout-worker"
      riskLevel := "high"
      reversible := true
      requestedBy := "scenario_runner"
      configId := self.config.agentId
      mode := "act"
      confirmed := approveAction
      mutatesState := true }

def temporalLayering : ScenarioCase where
  name := "temporal-layering"
  file := "temporal_layering.jsonl"
  events :=
    [("temporal_observation", "Potential service instability detected in synthetic telemetry.",
        [("provenance", "synthetic_ops_fixture"), ("memory_kind", "audit")])]
  signal := ⟨.finite (70 / 100), .finite (70 / 100), .finite (50 / 100), .finite (30 / 100)⟩
  request :=
    { actionType := "review_temporal_trace"
      resource := "temporal-layering"
      intendedEffect := "review timing traces"
      riskLevel := "low"
      reversible := true
      requestedBy := "scenario_runner"
      configId := self.config.agentId }

/-- The version is that of the second session. -/
def persistentIdentity (version : ℤ) : ScenarioCase where
  name := "persistent-identity"
  file := "persistent_identity.jsonl"
  events :=
    [("identity_checkpoint", "Reference identity state checkpoint.",
        [("provenance", "synthetic_identity_session"), ("version", toString version), ("memory_kind", "checkpoint")])]
  signal := ⟨.finite (10 / 100), .finite (10 / 100), .finite (60 / 100), .finite (90 / 100)⟩
  request :=
    { actionType := "restore_identity_state"
      resource := "persistent-identity"
      intendedEffect := "load a versioned checkpoint"
      riskLevel := "low"
      reversible := true
      requestedBy := "scenario_runner"
      configId := self.config.agentId }

end Cases

section Run

variable (tools : TextTools) (scanOther : List Char → Option (Json × List Char)) (drawn : Json → String × String)

/-- What a scenario says: its text, its telemetry and the contradictions that it
has found. -/
abbrev Say := MemoryRetentionResult → ConfiguredPriorityResult → SafetyDecision → String × List (String × Json) × List String

/-- The result of a case, whose action is judged here. -/
def resultOf (case : ScenarioCase) (say : Say) (memory : MemoryRetentionResult) (priority : ConfiguredPriorityResult) :
    ScenarioRun :=
  let safety := self.safety.evaluate matchesSecret case.request
  let (friendly, telemetry, contradictions) := say memory priority safety
  { scenario := case.name
    priority := priority.score
    route := priority.route.node
    routeReason := priority.route.reason
    memory := memory
    audit := self.audit draws case.name priority safety memory
    safety := safety
    contradictions := contradictions
    shown := ⟨friendly, .ofList telemetry, none, none, []⟩ }

/-- What the scenarios have in common: the events are kept and the signal is
routed. -/
def runCase (case : ScenarioCase) (say : Say) (dir : StateDir) : StateDir × Except ScenarioError ScenarioRun :=
  match self.memory.persist draws.summary tools scanOther drawn (dir case.file) (caseEvents draws case.events) with
  | .error e => (dir, .error (.retention e))
  | .ok (memory, file) =>
    let dir := Function.update dir case.file file
    match self.priority.route case.signal false with
    | none => (dir, .error .zeroDivision)
    | some priority => (dir, .ok (self.resultOf draws case say memory priority))

/-- `_detect_project_contradictions`. -/
def detectProjectContradictions (events : List Event) (proposedChange : String) : List String :=
  let constraints := (events.filter fun event => event.eventType = "project_constraint").map fun event =>
    tools.lower event.content
  if constraints.any (SafetyPolicy.mentions ["only use approved site content"]) &&
      SafetyPolicy.mentions ["general model knowledge"] (tools.lower proposedChange) then
    ["proposed chatbot source policy conflicts with approved-content-only constraint"]
  else []

def number (n : ℤ) : Json := .num (.int n)

def float (x : ℚ) : Json := .num (.float (.finite x))

/-- `_run_project_companion`. The identity is restored from its own fields. -/
def runProjectCompanion : StateDir → StateDir × Except ScenarioError ScenarioRun :=
  let identity := self.config.toIdentityState ""
  let restored : IdentityState := ⟨identity.agentId, identity.version, identity.goals, identity.invariants, ""⟩
  self.runCase draws tools scanOther drawn self.projectCompanion fun memory priority safety =>
    let contradictions := detectProjectContradictions tools memory.retainedEvents
      "Allow chatbot answers from general model knowledge."
    (self.config.displayName ++ ": I restored the project state. Your active constraint is that customer-facing answers " ++
        "must be grounded in approved site content.",
      [("agent_id", .str self.config.agentId), ("memory_events_restored", number memory.retainedEvents.length),
        ("identity_drift", float (identity.driftScore restored)), ("approval_required", .bool safety.approvalRequired),
        ("contradictions_detected", number contradictions.length),
        ("next_step", .str "keep chatbot answers tied to approved content sources"), ("route", .str priority.route.node),
        ("config_hash", .str self.shortDigest)],
      contradictions)

/-- `_run_support_continuity`. -/
def runSupportContinuity : StateDir → StateDir × Except ScenarioError ScenarioRun :=
  self.runCase draws tools scanOther drawn self.supportContinuity fun memory priority safety =>
    (self.config.displayName ++ ": I restored the support handoff. The case is urgent, but I will escalate before making " ++
        "unsupported replacement or shipment promises.",
      [("agent_id", .str self.config.agentId), ("case_id", .str "case-1001"),
        ("memory_events_restored", number memory.retainedEvents.length), ("priority", .num (.float priority.score)),
        ("route", .str priority.route.node), ("approval_required", .bool safety.approvalRequired),
        ("unsupported_response_blocked", .bool (safety.decision ≠ .allow)), ("config_hash", .str self.shortDigest)],
      [])

/-- `_run_operations_observer`. -/
def runOperationsObserver (approveAction : Bool) : StateDir → StateDir × Except ScenarioError ScenarioRun :=
  self.runCase draws tools scanOther drawn (self.operationsObserver approveAction) fun memory priority safety =>
    (self.config.displayName ++ ": I found an unhealthy synthetic service and propose a restart, but the operation remains " ++
        "blocked until approval is recorded.",
      [("agent_id", .str self.config.agentId), ("service", .str "checkout-worker"), ("risk", .str "elevated"),
        ("priority", .num (.float priority.score)), ("route", .str priority.route.node),
        ("approval_required", .bool safety.approvalRequired), ("action_executed", .bool (safety.allowed && approveAction)),
        ("memory_write", .str memory.primaryRecord), ("config_hash", .str self.shortDigest)],
      [])

/-- `_run_temporal_layering`, with its fixed times. -/
def runTemporalLayering : StateDir → StateDir × Except ScenarioError ScenarioRun :=
  let (reflex, deliberative, reconciliation) := ((31 : ℤ), (4200 : ℤ), (4388 : ℤ))
  let passed := reflex ≤ 100 ∧ deliberative ≤ 5000 ∧ reconciliation ≤ 6000 ∧ reflex ≤ deliberative ∧
    deliberative ≤ reconciliation
  self.runCase draws tools scanOther drawn self.temporalLayering fun _ priority _ =>
    (self.config.displayName ++ " reflex: Potential service instability detected. No action taken.\n" ++
        self.config.displayName ++ " deliberation: Repeated failures make a restart proposal reasonable, but approval is " ++
        "required.",
      [("agent_id", .str self.config.agentId), ("reflex_response_ms", number reflex),
        ("deliberation_response_ms", number deliberative), ("reconciliation_delay_ms", number reconciliation),
        ("reconciliation_passed", .bool passed), ("route", .str priority.route.node),
        ("config_hash", .str self.shortDigest)],
      [])

/-- `_run_persistent_identity`. -/
def runPersistentIdentity : StateDir → StateDir × Except ScenarioError ScenarioRun :=
  let session1 := self.config.toIdentityState ""
  let session2 := session1.evolve (some (session1.goals ++ ["restore public demo state"])) none draws.evolved
  let restored : IdentityState := ⟨session2.agentId, session2.version, session2.goals, session2.invariants, ""⟩
  self.runCase draws tools scanOther drawn (self.persistentIdentity session2.version) fun memory priority _ =>
    (self.config.displayName ++ ": I loaded my configuration and restored versioned continuity state from a synthetic " ++
        "checkpoint.",
      [("agent_id", .str self.config.agentId), ("display_name", .str self.config.displayName),
        ("session_1_version", number session1.version), ("session_2_version", number session2.version),
        ("restored_version", number restored.version), ("memory_events_restored", number memory.retainedEvents.length),
        ("identity_drift", float (session2.driftScore restored)), ("route", .str priority.route.node),
        ("config_hash", .str self.shortDigest)],
      [])

/-- The safety gate: an operation that is observed without approval, under its own
name and text. The record keeps the name of what was observed. -/
def runSafetyGate (dir : StateDir) : StateDir × Except ScenarioError ScenarioRun :=
  match self.runOperationsObserver draws tools scanOther drawn false dir with
  | (dir, .error e) => (dir, .error e)
  | (dir, .ok base) => (dir, .ok
      { base with
        scenario := "safety-gate"
        shown := { base.shown with friendly := self.config.displayName ++
          ": I can propose the restart, but I did not execute it because the approval decision is still pending." } })

/-- `run_scenario`, before the provider. -/
def runBase (scenario : String) (approveAction : Bool) (dir : StateDir) : StateDir × Except ScenarioError ScenarioRun :=
  if scenario = "project-companion" then self.runProjectCompanion draws tools scanOther drawn dir
  else if scenario = "support-continuity" then self.runSupportContinuity draws tools scanOther drawn dir
  else if scenario = "operations-observer" then self.runOperationsObserver draws tools scanOther drawn approveAction dir
  else if scenario = "temporal-layering" then self.runTemporalLayering draws tools scanOther drawn dir
  else if scenario = "persistent-identity" then self.runPersistentIdentity draws tools scanOther drawn dir
  else if scenario = "safety-gate" then self.runSafetyGate draws tools scanOther drawn dir
  else (dir, .error (.unknownScenario ("unknown scenario: " ++ scenario)))

end Run

section Provider

variable (world : ProviderWorld) (documents : String → Except String JsonObject)

/-- What a provider is asked in a scenario. -/
def providerRequest (scenario providerScenario : String) : GenerationRequest where
  scenarioId := some providerScenario
  messages := [⟨"user", "Run Centroid scenario " ++ scenario ++
    ". Preserve identity, memory, safety and audit boundaries.", []⟩]
  system := some "Centroid owns continuity, memory, safety and action gating."

/-- `_apply_provider`, with the calls that it makes. -/
def askProvider (choice : ProviderChoice) (scenario : String) (run : ScenarioRun) :
    List NetworkCall × Except ScenarioError ScenarioRun :=
  match ProviderAdapter.createProviderAdapter world documents choice.providerId choice.live choice.model with
  | .error fault => ([], .error (.provider fault))
  | .ok adapter =>
    let made := adapter.generate world
      (providerRequest run.scenario ((choice.scenario.filter (· ≠ "")).getD scenario))
    match made.outcome with
    | .error fault => (made.calls, .error (.provider fault))
    | .ok response =>
      (made.calls, .ok { run with
        shown := self.applyProvider matchesSecret world.runtime.render run.shown response choice.live })

variable (tools : TextTools) (scanOther : List Char → Option (Json × List Char)) (drawn : Json → String × String)

/-- `run_scenario`: the directory, the calls and what it returns or raises. -/
def runScenario (scenario : String) (approveAction : Bool) (choice : Option ProviderChoice) (dir : StateDir) :
    StateDir × List NetworkCall × Except ScenarioError ScenarioRun :=
  match self.runBase draws tools scanOther drawn scenario approveAction dir with
  | (dir, .error e) => (dir, [], .error e)
  | (dir, .ok run) =>
    match choice.filter fun choice => choice.providerId ≠ "" with
    | none => (dir, [], .ok run)
    | some choice => (dir, self.askProvider world documents choice scenario run)

end Provider

end ConfiguredAgent

end Centroid
