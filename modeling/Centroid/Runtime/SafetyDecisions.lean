import Centroid.Runtime.ConfiguredSafety
import Centroid.Runtime.SafetyPolicy

namespace Centroid

/-- What a decision on a request rests on. -/
structure Grounds where
  secret : Bool
  denied : Bool
  held : Bool
  planned : Bool
  confirmed : Bool
  mutates : Bool
  default : MutationMode

namespace Grounds

/-- Acting needs an approval: the action is held for it, or the default asks it of
what mutates. -/
def needsApproval (grounds : Grounds) : Bool :=
  grounds.held || grounds.mutates && grounds.default = .requireApproval

/-- The purpose of the policy. What is secret or denied is denied, and so is what
mutates where the default denies and the action is not held; what needs an approval
has to have it; the rest is allowed. -/
def verdict (grounds : Grounds) : PolicyDecision :=
  if grounds.secret || grounds.denied || !grounds.held && grounds.mutates && grounds.default = .deny then .deny
  else if grounds.held && grounds.planned then .propose
  else if grounds.needsApproval && !grounds.confirmed then .requireApproval
  else .allow

theorem verdict_eq_allow_iff (grounds : Grounds) : grounds.verdict = .allow ↔
    grounds.secret = false ∧ grounds.denied = false ∧
      (grounds.held = true ∧ grounds.planned = false ∧ grounds.confirmed = true ∨
        grounds.held = false ∧ (grounds.mutates = false ∨ grounds.default = .allow ∨
          grounds.default = .requireApproval ∧ grounds.confirmed = true)) := by
  obtain ⟨secret, denied, held, planned, confirmed, mutates, default⟩ := grounds
  cases default <;> revert secret denied held planned confirmed mutates <;> decide

/-- A confirmation changes nothing or grants the approval that was asked for. -/
theorem verdict_confirm (grounds : Grounds) :
    { grounds with confirmed := true }.verdict = { grounds with confirmed := false }.verdict ∨
      { grounds with confirmed := false }.verdict = .requireApproval ∧
        { grounds with confirmed := true }.verdict = .allow := by
  obtain ⟨secret, denied, held, planned, confirmed, mutates, default⟩ := grounds
  cases default <;> revert secret denied held planned confirmed mutates <;> decide

/-- What is denied does not depend on a confirmation. -/
theorem verdict_confirm_deny (grounds : Grounds) :
    { grounds with confirmed := true }.verdict = .deny ↔ { grounds with confirmed := false }.verdict = .deny := by
  rcases grounds.verdict_confirm with same | ⟨asked, granted⟩
  · rw [same]
  · rw [asked, granted]
    decide

theorem verdict_deny_more (grounds : Grounds) (more : Bool) :
    { grounds with denied := grounds.denied || more }.verdict.permits ≤ grounds.verdict.permits := by
  obtain ⟨secret, denied, held, planned, confirmed, mutates, default⟩ := grounds
  cases default <;> revert secret denied held planned confirmed mutates more <;> decide

/-- Holding an action restricts it, unless the default would have denied it. -/
theorem verdict_hold_more_iff (grounds : Grounds) (more : Bool) :
    { grounds with held := grounds.held || more }.verdict.permits ≤ grounds.verdict.permits ↔
      ¬ (more = true ∧ grounds.secret = false ∧ grounds.denied = false ∧ grounds.held = false ∧
        grounds.mutates = true ∧ grounds.default = .deny) := by
  obtain ⟨secret, denied, held, planned, confirmed, mutates, default⟩ := grounds
  cases default <;> revert secret denied held planned confirmed mutates more <;> decide

end Grounds

namespace ConfiguredSafetyPolicy

variable (self : ConfiguredSafetyPolicy) (secret : String → Bool) (request : ActionRequest)

def grounds : Grounds where
  secret := secret request.normalized
  denied := request.actionType ∈ self.policy.denyActions
  held := request.actionType ∈ self.policy.approvalRequiredFor
  planned := request.mode = "plan"
  confirmed := request.confirmed
  mutates := request.mutatesState
  default := self.policy.defaultMutationMode

/-- The rules in their order come to the verdict, and they ask for an approval
where one is needed for what they do not deny. -/
theorem evaluate_spec :
    (self.evaluate secret request).decision = (self.grounds secret request).verdict ∧
      (self.evaluate secret request).approvalRequired =
        ((self.grounds secret request).verdict ≠ .deny && (self.grounds secret request).needsApproval) := by
  unfold evaluate grounds Grounds.verdict Grounds.needsApproval decision
  by_cases hidden : secret request.normalized = true
  · simp [hidden]
  by_cases denied : request.actionType ∈ self.policy.denyActions
  · simp [hidden, denied]
  by_cases held : request.actionType ∈ self.policy.approvalRequiredFor
  · by_cases planned : request.mode = "plan"
    · simp [hidden, denied, held, planned]
    · cases confirmed : request.confirmed <;> simp [hidden, denied, held, planned]
  · cases mutates : request.mutatesState with
    | false => simp [hidden, denied, held]
    | true =>
      cases self.policy.defaultMutationMode with
      | allow => simp [hidden, denied, held]
      | requireApproval => cases confirmed : request.confirmed <;> simp [hidden, denied, held]
      | deny => simp [hidden, denied, held]

/-- What is allowed, and what a confirmation changes. -/
theorem evaluate_allow_iff :
    ((self.evaluate secret request).decision = .allow ↔
      secret request.normalized = false ∧ request.actionType ∉ self.policy.denyActions ∧
        (request.actionType ∈ self.policy.approvalRequiredFor ∧ request.mode ≠ "plan" ∧ request.confirmed = true ∨
          request.actionType ∉ self.policy.approvalRequiredFor ∧
            (request.mutatesState = false ∨ self.policy.defaultMutationMode = .allow ∨
              self.policy.defaultMutationMode = .requireApproval ∧ request.confirmed = true))) ∧
      let before := self.evaluate secret { request with confirmed := false }
      let after := self.evaluate secret { request with confirmed := true }
      (after.decision = before.decision ∨ before.decision = .requireApproval ∧ after.decision = .allow) ∧
        after.approvalRequired = before.approvalRequired := by
  constructor
  · rw [(self.evaluate_spec secret request).1, Grounds.verdict_eq_allow_iff]
    simp only [grounds, decide_eq_false_iff_not, decide_eq_true_eq, ne_eq]
  · dsimp only
    obtain ⟨verdictAfter, approvalAfter⟩ := self.evaluate_spec secret { request with confirmed := true }
    obtain ⟨verdictBefore, approvalBefore⟩ := self.evaluate_spec secret { request with confirmed := false }
    rw [verdictAfter, verdictBefore, approvalAfter, approvalBefore]
    refine ⟨(self.grounds secret request).verdict_confirm, ?_⟩
    have denial := (self.grounds secret request).verdict_confirm_deny
    have sameNeed : (self.grounds secret { request with confirmed := true }).needsApproval =
      (self.grounds secret { request with confirmed := false }).needsApproval := rfl
    rw [sameNeed]
    exact congrArg (· && _) (decide_eq_decide.mpr (not_congr denial))

variable {self secret request}

/-- Where the default gates what mutates, an unconfirmed request is held back
exactly if it says that it mutates or a rule names it. That it is made in mode act
has no part in this, while the policy on texts holds every unconfirmed objective
to act. -/
theorem unconfirmed_held_iff (gated : self.policy.defaultMutationMode ≠ .allow)
    (unconfirmed : request.confirmed = false) :
    ((self.evaluate secret request).decision ≠ .allow ↔ request.mutatesState = true ∨ self.Covers secret request) ∧
      ∀ lower objective, (SafetyPolicy.evaluate secret lower objective "act" false).allowed = false := by
  refine ⟨?_, SafetyPolicy.not_allowed_of_act secret⟩
  by_cases covered : self.Covers secret request
  · have held := permits_of_covers unconfirmed covered
    have notAllowed : (self.evaluate secret request).decision ≠ .allow := by
      intro allowed
      rw [allowed] at held
      split at held <;> cases held
    exact iff_of_true notAllowed (.inr covered)
  · rw [ne_eq, allow_iff_of_not_covers unconfirmed gated covered, Bool.not_eq_false, or_iff_left covered]

/-- The safety policy that the guide to configurations shows. -/
def guidePolicy : ConfiguredSafetyPolicy where
  policy := {
    policyVersion := "1.0"
    approvalRequiredFor := ["restart_service", "write_file", "change_config"]
    denyActions := ["expose_secret", "disable_shutdown", "delete_without_backup"]
    defaultMutationMode := .requireApproval }
  configHash := ""

/-- The request of the support scenario. -/
def supportPromise : ActionRequest where
  actionType := "make_support_promise"
  resource := "case-1001"
  intendedEffect := "promise a replacement controller ships today"
  riskLevel := "medium"
  reversible := false
  requestedBy := "scenario_runner"
  configId := "holly"
  mode := "act"

theorem unconfirmed_held_write_file :
    (guidePolicy.evaluate matchesSecret { supportPromise with actionType := "write_file" }).decision ≠ .allow := by
  have listed : "write_file" ∈ guidePolicy.policy.approvalRequiredFor := by decide
  exact (unconfirmed_held_iff (by decide) rfl).1.mpr (.inr (.inr (.inr listed)))

/-- An action that no list names is allowed in mode act without an approval. -/
theorem supportPromise_allowed : ¬ ∀ (self : ConfiguredSafetyPolicy) (request : ActionRequest),
    self.policy.defaultMutationMode ≠ .allow → request.confirmed = false →
      request.mode = "act" ∨ request.mutatesState = true →
        (self.evaluate matchesSecret request).decision ≠ .allow := by
  intro held
  exact held guidePolicy supportPromise (by decide) rfl (.inl rfl) (by decide +kernel)

variable (self)

/-- The policy with one more action that it denies. -/
def withDenied (action : String) : ConfiguredSafetyPolicy :=
  { self with policy := { self.policy with denyActions := self.policy.denyActions ++ [action] } }

/-- The policy with one more action that it holds for an approval. -/
def withApproval (action : String) : ConfiguredSafetyPolicy :=
  { self with policy := { self.policy with approvalRequiredFor := self.policy.approvalRequiredFor ++ [action] } }

variable (secret request)

theorem grounds_withDenied (action : String) : (self.withDenied action).grounds secret request =
    { self.grounds secret request with
      denied := (self.grounds secret request).denied || decide (request.actionType = action) } := by
  simp only [grounds, withDenied, List.mem_append, List.mem_singleton, Bool.decide_or]
  rfl

theorem grounds_withApproval (action : String) : (self.withApproval action).grounds secret request =
    { self.grounds secret request with
      held := (self.grounds secret request).held || decide (request.actionType = action) } := by
  simp only [grounds, withApproval, List.mem_append, List.mem_singleton, Bool.decide_or]
  rfl

/-- One more denied action only restricts. One more action that is held for an
approval only restricts as well, unless it takes the place of a denial by default. -/
theorem extension_restricts (action : String) :
    ((self.withDenied action).evaluate secret request).decision.permits ≤
        (self.evaluate secret request).decision.permits ∧
      (((self.withApproval action).evaluate secret request).decision.permits ≤
          (self.evaluate secret request).decision.permits ↔
        ¬ (request.actionType = action ∧ secret request.normalized = false ∧ action ∉ self.policy.denyActions ∧
          action ∉ self.policy.approvalRequiredFor ∧ request.mutatesState = true ∧
            self.policy.defaultMutationMode = .deny)) := by
  rw [(evaluate_spec _ secret request).1, (evaluate_spec _ secret request).1, (evaluate_spec _ secret request).1,
    grounds_withDenied, grounds_withApproval]
  refine ⟨Grounds.verdict_deny_more _ _, ?_⟩
  rw [Grounds.verdict_hold_more_iff]
  by_cases same : request.actionType = action
  · simp [grounds, same]
  · simp [same]

/-- A denial by default gives way to the approval that a listed action needs. -/
theorem withApproval_grants : ¬ ∀ (self : ConfiguredSafetyPolicy) (request : ActionRequest) (action : String),
    ((self.withDenied action).evaluate matchesSecret request).decision.permits ≤
        (self.evaluate matchesSecret request).decision.permits ∧
      ((self.withApproval action).evaluate matchesSecret request).decision.permits ≤
        (self.evaluate matchesSecret request).decision.permits := by
  intro restricts
  have granted := (restricts ⟨{ guidePolicy.policy with defaultMutationMode := .deny }, ""⟩
    { supportPromise with mutatesState := true } "make_support_promise").2
  exact absurd granted (by decide +kernel)

end ConfiguredSafetyPolicy

end Centroid
