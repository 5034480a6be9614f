import Centroid.Config.AgentConfig
import Centroid.Runtime.SecretPatterns

namespace Centroid

structure ActionRequest where
  actionType : String
  resource : String
  intendedEffect : String
  riskLevel : String
  reversible : Bool
  requestedBy : String
  configId : String
  mode : String := "observe"
  confirmed : Bool := false
  mutatesState : Bool := false

inductive PolicyDecision where
  | deny
  | propose
  | requireApproval
  | allow
  deriving DecidableEq

def PolicyDecision.name : PolicyDecision → String
  | .deny => "deny"
  | .propose => "propose"
  | .requireApproval => "require_approval"
  | .allow => "allow"

/-- How much a decision permits: proposing and asking for approval both hold
the action back. -/
def PolicyDecision.permits : PolicyDecision → ℕ
  | .deny => 0
  | .propose => 1
  | .requireApproval => 1
  | .allow => 2

structure SafetyDecision where
  decision : PolicyDecision
  approvalRequired : Bool
  matchedRule : String
  policyVersion : String
  configHash : String
  reasons : List String
  deriving DecidableEq

def SafetyDecision.allowed (self : SafetyDecision) : Bool :=
  self.decision = .allow

structure ConfiguredSafetyPolicy where
  policy : SafetyPolicyConfig
  configHash : String

/-- The text that the secret patterns are searched in. -/
def ActionRequest.normalized (request : ActionRequest) : String :=
  " ".intercalate
    ([request.actionType, request.resource, request.intendedEffect, request.riskLevel].filter (· ≠ ""))

namespace ConfiguredSafetyPolicy

variable (self : ConfiguredSafetyPolicy)

/-- The method `_decision`. -/
def decision (kind : PolicyDecision) (matchedRule : String) (approvalRequired : Bool) (reasons : List String) :
    SafetyDecision :=
  { decision := kind, approvalRequired, matchedRule, policyVersion := self.policy.policyVersion,
    configHash := self.configHash, reasons }

/-- The rules in their order; `secret` stands for the search of the secret
patterns. -/
def evaluate (secret : String → Bool) (request : ActionRequest) : SafetyDecision :=
  if secret request.normalized then
    self.decision .deny "secret_pattern" false ["request appears to expose or request secret material"]
  else if request.actionType ∈ self.policy.denyActions then
    self.decision .deny "deny_actions" false ["action " ++ request.actionType ++ " is denied by configuration"]
  else if request.mode = "plan" ∧ request.actionType ∈ self.policy.approvalRequiredFor then
    self.decision .propose "approval_required_for" true
      ["action " ++ request.actionType ++ " requires approval before execution"]
  else if request.actionType ∈ self.policy.approvalRequiredFor then
    if request.confirmed then
      self.decision .allow "approval_granted" true ["approval recorded for " ++ request.actionType]
    else
      self.decision .requireApproval "approval_required_for" true
        ["action " ++ request.actionType ++ " requires approval"]
  else
    let allowDefault :=
      self.decision .allow "allow_default" false ["request allowed by configured safety policy"]
    if request.mutatesState then
      match self.policy.defaultMutationMode with
      | .deny =>
        self.decision .deny "default_mutation_mode" false ["configuration denies mutating behavior by default"]
      | .requireApproval =>
        if request.confirmed then
          self.decision .allow "default_mutation_mode" true ["approval recorded for configured mutating behavior"]
        else
          self.decision .requireApproval "default_mutation_mode" true ["mutating behavior requires approval by default"]
      | .allow => allowDefault
    else allowDefault

/-- A request that a rule names: its text is secret, or its action is denied
or held for approval. -/
def Covers (secret : String → Bool) (request : ActionRequest) : Prop :=
  secret request.normalized = true ∨ request.actionType ∈ self.policy.denyActions ∨
    request.actionType ∈ self.policy.approvalRequiredFor

instance (secret : String → Bool) (request : ActionRequest) : Decidable (self.Covers secret request) :=
  inferInstanceAs (Decidable (_ ∨ _ ∨ _))

variable {self} {secret : String → Bool} {request : ActionRequest}

/-- An unconfirmed request that a rule names is held back, in the same degree
whatever else it says of itself. -/
theorem permits_of_covers (unconfirmed : request.confirmed = false) (covered : self.Covers secret request) :
    (self.evaluate secret request).decision.permits =
      if secret request.normalized = true ∨ request.actionType ∈ self.policy.denyActions then 0 else 1 := by
  unfold evaluate
  by_cases hidden : secret request.normalized = true
  · simp only [hidden, if_true, true_or]
    rfl
  · by_cases denied : request.actionType ∈ self.policy.denyActions
    · simp only [hidden, denied, if_true, or_true]
      rfl
    · have held := (covered.resolve_left hidden).resolve_left denied
      simp only [hidden, denied, held, and_true, if_false, if_true]
      by_cases planned : request.mode = "plan"
      · simp only [planned, if_true]
        rfl
      · simp only [planned, unconfirmed, if_false, Bool.false_eq_true]
        rfl

/-- Without a rule that names it, an unconfirmed request is allowed as soon as
it says that it mutates nothing. -/
theorem allow_iff_of_not_covers (unconfirmed : request.confirmed = false)
    (gated : self.policy.defaultMutationMode ≠ .allow) (uncovered : ¬ self.Covers secret request) :
    (self.evaluate secret request).decision = .allow ↔ request.mutatesState = false := by
  obtain ⟨plain, permitted⟩ := not_or.mp uncovered
  obtain ⟨notDenied, notHeld⟩ := not_or.mp permitted
  unfold evaluate
  simp only [plain, notDenied, notHeld, and_false, if_false, Bool.false_eq_true]
  cases mutates : request.mutatesState with
  | false => simp [decision]
  | true =>
    cases mode : self.policy.defaultMutationMode with
    | allow => exact absurd mode gated
    | requireApproval => simp [decision, unconfirmed]
    | deny => simp [decision]

end ConfiguredSafetyPolicy

end Centroid
