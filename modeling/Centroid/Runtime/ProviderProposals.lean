import Centroid.Runtime.ConfiguredSafety

namespace Centroid

/-- The identifier is the one of the provider, whatever value it is, or a new text. -/
structure ModelToolProposal where
  proposalId : Json
  name : String
  arguments : JsonObject
  providerId : String
  modelId : String
  requiresCentroidPolicyEvaluation : Bool := true
  executed : Bool := false

structure ProviderAuditRecord where
  providerId : String
  modelId : String
  scenario : Option String
  capabilityPathUsed : String
  toolProposalCount : ℕ
  safetyDisposition : String

structure ModelResponse where
  text : String
  toolProposals : List ModelToolProposal
  providerId : String
  modelId : String
  usage : JsonObject := []
  finishReason : Json := .null
  providerMetadata : JsonObject := []
  audit : Option ProviderAuditRecord

/-- The fields of a scenario result that the response of a provider changes. -/
structure ScenarioResult where
  friendly : String
  telemetry : Dict String Json
  auditProvider : Option ProviderAuditRecord
  providerResponse : Option ModelResponse
  providerSafetyDecisions : List SafetyDecision

structure ConfiguredAgent where
  config : AgentConfig
  configDigest : String

namespace ConfiguredAgent

variable (self : ConfiguredAgent) (secret : String → Bool) (render : Json → String)

def safety : ConfiguredSafetyPolicy := ⟨self.config.safetyPolicy, self.configDigest⟩

/-- The request that a proposal is turned into. What it says of its own
effects is taken from its arguments. -/
def actionRequest (proposal : ModelToolProposal) : ActionRequest :=
  let argument name (default : Json) := (proposal.arguments.get? name).getD default
  { actionType := proposal.name
    resource := (argument "resource" (.str proposal.name)).pyStr render
    intendedEffect := (argument "intended_effect" (.str ("provider proposed " ++ proposal.name))).pyStr render
    riskLevel := (argument "risk_level" (.str "medium")).pyStr render
    reversible := (argument "reversible" (.bool false)).pyBool
    requestedBy := "provider:" ++ proposal.providerId
    configId := self.config.agentId
    mode := if (argument "mutates_state" (.bool true)).pyBool then "act" else "plan"
    confirmed := false
    mutatesState := (argument "mutates_state" (.bool true)).pyBool }

def proposalDecision (proposal : ModelToolProposal) : SafetyDecision :=
  self.safety.evaluate secret (self.actionRequest render proposal)

/-- What `_apply_provider` makes of the response that the adapter generated. -/
def applyProvider (result : ScenarioResult) (response : ModelResponse) (live : Bool) : ScenarioResult :=
  let decisions := response.toolProposals.map (self.proposalDecision secret render)
  let disposition :=
    if decisions = [] then "no_tool_proposals"
    else ",".intercalate (decisions.map fun decision => decision.decision.name)
  let auditProvider := response.audit.map fun audit => { audit with safetyDisposition := disposition }
  let telemetry :=
    [("provider_id", .str response.providerId), ("provider_model", .str response.modelId),
      ("provider_tool_proposals", .num (.int response.toolProposals.length)),
      ("provider_tool_executions", .num (.int 0)), ("provider_safety_disposition", .str disposition),
      ("provider_live", .bool live)].foldl (fun telemetry entry => telemetry.set entry.1 entry.2) result.telemetry
  { friendly :=
      if response.text = "" then result.friendly
      else result.friendly ++ "\n\n[model:" ++ response.providerId ++ "] " ++ response.text
    telemetry
    auditProvider
    providerResponse := some { response with audit := auditProvider }
    providerSafetyDecisions := decisions }

end ConfiguredAgent

/-- Two argument objects that agree but for the value of `mutates_state`. -/
def DifferInMutatesState (arguments other : JsonObject) : Prop :=
  ∀ name, name ≠ "mutates_state" → arguments.get? name = other.get? name

namespace ConfiguredAgent

variable {self : ConfiguredAgent} {secret : String → Bool} {render : Json → String}

/-- The text that is searched for secrets and the action do not depend on what
a proposal says of its effects. -/
theorem actionRequest_congr (self : ConfiguredAgent) (render : Json → String) {proposal other : ModelToolProposal}
    (name : other.name = proposal.name) (arguments : DifferInMutatesState proposal.arguments other.arguments) :
    (self.actionRequest render other).actionType = (self.actionRequest render proposal).actionType ∧
      (self.actionRequest render other).normalized = (self.actionRequest render proposal).normalized := by
  refine ⟨name, ?_⟩
  have resource := arguments "resource" (by decide)
  have intendedEffect := arguments "intended_effect" (by decide)
  have riskLevel := arguments "risk_level" (by decide)
  simp only [ActionRequest.normalized, actionRequest, name, resource, intendedEffect, riskLevel]

/-- A proposal that no rule names comes with a twin that differs only in
`mutates_state`, and one of the two is allowed. -/
theorem exists_allowed {proposal : ModelToolProposal} (gated : self.config.safetyPolicy.defaultMutationMode ≠ .allow)
    (uncovered : ¬ self.safety.Covers secret (self.actionRequest render proposal)) :
    ∃ other : ModelToolProposal, other.name = proposal.name ∧
      DifferInMutatesState proposal.arguments other.arguments ∧
      (self.proposalDecision secret render other).decision = .allow := by
  let other : ModelToolProposal :=
    { proposal with arguments := Assoc.set proposal.arguments (.str "mutates_state") (.bool false) }
  have agree : DifferInMutatesState proposal.arguments other.arguments := by
    intro name differs
    have apart : (Key.str "mutates_state" : Key JsonNumber) ≠ .str name := fun same => differs (Key.str.inj same).symm
    simp only [JsonObject.get?, other, Assoc.get?_set, apart, if_false]
  have quiet : (self.actionRequest render other).mutatesState = false := by
    simp only [actionRequest, JsonObject.get?, other, Assoc.get?_set, if_true, Option.getD_some, Value.pyBool]
  have name : other.name = proposal.name := rfl
  obtain ⟨action, text⟩ := actionRequest_congr self render name agree
  refine ⟨other, name, agree, ?_⟩
  refine (ConfiguredSafetyPolicy.allow_iff_of_not_covers rfl gated ?_).mpr quiet
  rwa [ConfiguredSafetyPolicy.Covers, action, text]

/-- Under a policy that gates mutations, no proposal of a response is allowed
and none gains by what it says of its effects, exactly where a rule names each
of them. -/
theorem applyProvider_gate_iff (agent : ConfiguredAgent) (secret : String → Bool) (render : Json → String)
    (result : ScenarioResult) (response : ModelResponse) (live : Bool)
    (gated : agent.config.safetyPolicy.defaultMutationMode ≠ .allow) :
    ((∀ decision ∈ (agent.applyProvider secret render result response live).providerSafetyDecisions,
        decision.decision ≠ .allow) ∧
      ∀ proposal ∈ response.toolProposals, ∀ other : ModelToolProposal, other.name = proposal.name →
        DifferInMutatesState proposal.arguments other.arguments →
        (agent.proposalDecision secret render other).decision.permits =
          (agent.proposalDecision secret render proposal).decision.permits) ↔
    ∀ proposal ∈ response.toolProposals, agent.safety.Covers secret (agent.actionRequest render proposal) := by
  constructor
  · rintro ⟨held, equal⟩ proposal member
    by_contra uncovered
    obtain ⟨other, name, agree, allowed⟩ := exists_allowed gated uncovered
    have refused := held _ (List.mem_map_of_mem member)
    have same := equal proposal member other name agree
    rw [allowed] at same
    cases decided : (agent.proposalDecision secret render proposal).decision with
    | allow => exact refused decided
    | deny | propose | requireApproval => simp [decided, PolicyDecision.permits] at same
  · intro covered
    constructor
    · intro decision member
      obtain ⟨proposal, proposed, rfl⟩ := List.mem_map.mp member
      have degree := ConfiguredSafetyPolicy.permits_of_covers rfl (covered proposal proposed)
      intro allowed
      rw [proposalDecision] at allowed
      rw [allowed] at degree
      split at degree <;> cases degree
    · intro proposal member other name agree
      obtain ⟨action, text⟩ := actionRequest_congr agent render name agree
      have mine := covered proposal member
      have theirs : agent.safety.Covers secret (agent.actionRequest render other) := by
        rwa [ConfiguredSafetyPolicy.Covers, action, text]
      rw [proposalDecision, proposalDecision, ConfiguredSafetyPolicy.permits_of_covers rfl mine,
        ConfiguredSafetyPolicy.permits_of_covers rfl theirs, action, text]

/-- An agent with the default policies. -/
def defaultAgent : ConfiguredAgent where
  config :=
    { agentId := "agent"
      configVersion := "1.0"
      displayName := "Agent"
      role := "assistant"
      description := "default policies"
      goals := ["serve"]
      invariants := ["ask first"]
      memoryPolicy := ⟨"session", false, true, 100⟩ }
  configDigest := ""

def quietProposal (name : String) : ModelToolProposal where
  proposalId := .str "1"
  name := name
  arguments := [(.str "mutates_state", .bool false)]
  providerId := "mock"
  modelId := "mock"

def responseOf (proposal : ModelToolProposal) : ModelResponse where
  text := ""
  toolProposals := [proposal]
  providerId := "mock"
  modelId := "mock"
  audit := none

def emptyResult : ScenarioResult := ⟨"", ∅, none, none, []⟩

theorem applyProvider_gate_iff_write_file :
    (∀ decision ∈ (defaultAgent.applyProvider matchesSecret (fun _ => "") emptyResult
        (responseOf (quietProposal "write_file")) false).providerSafetyDecisions, decision.decision ≠ .allow) ∧
      ∀ proposal ∈ (responseOf (quietProposal "write_file")).toolProposals, ∀ other : ModelToolProposal,
        other.name = proposal.name → DifferInMutatesState proposal.arguments other.arguments →
        (defaultAgent.proposalDecision matchesSecret (fun _ => "") other).decision.permits =
          (defaultAgent.proposalDecision matchesSecret (fun _ => "") proposal).decision.permits := by
  refine (applyProvider_gate_iff defaultAgent matchesSecret (fun _ => "") emptyResult
    (responseOf (quietProposal "write_file")) false (by decide)).mpr ?_
  intro proposal member
  cases List.mem_singleton.mp member
  exact .inr (.inr (by decide))

/-- A proposal that no rule names is allowed since it says that it mutates
nothing. -/
theorem quiet_proposal_allowed : ¬
    ((∀ decision ∈ (defaultAgent.applyProvider matchesSecret (fun _ => "") emptyResult
        (responseOf (quietProposal "restart_service")) false).providerSafetyDecisions, decision.decision ≠ .allow) ∧
      ∀ proposal ∈ (responseOf (quietProposal "restart_service")).toolProposals, ∀ other : ModelToolProposal,
        other.name = proposal.name → DifferInMutatesState proposal.arguments other.arguments →
        (defaultAgent.proposalDecision matchesSecret (fun _ => "") other).decision.permits =
          (defaultAgent.proposalDecision matchesSecret (fun _ => "") proposal).decision.permits) := by
  rintro ⟨held, -⟩
  have allowed : (defaultAgent.proposalDecision matchesSecret (fun _ => "")
      (quietProposal "restart_service")).decision = .allow := by decide +kernel
  exact held _ (List.mem_singleton_self _) allowed

end ConfiguredAgent

end Centroid
