import Centroid.Config.ParsedSettings
import Mathlib.Tactic.NormNum

namespace Centroid

open Raises

def MutationMode.name : MutationMode → String
  | .allow => "allow"
  | .requireApproval => "require_approval"
  | .deny => "deny"

@[simp] theorem MutationMode.ofName?_name (mode : MutationMode) : MutationMode.ofName? mode.name = some mode := by
  cases mode <;> rfl

def textList (texts : List String) : Json := .list (texts.map .str)

def optionalText : Option String → Json
  | none => .null
  | some text => .str text

def floatValue (x : PyFloat) : Json := .num (.float x)

namespace AgentConfig

/-- `to_dict`; a limit on session events that was given as a truth value is
written as the number it equals. -/
def toDict (self : AgentConfig) : JsonObject :=
  [(.str "agent_id", .str self.agentId),
    (.str "config_version", .str self.configVersion),
    (.str "display_name", .str self.displayName),
    (.str "role", .str self.role),
    (.str "description", .str self.description),
    (.str "scenario_id", optionalText self.scenarioId),
    (.str "scenario_name", optionalText self.scenarioName),
    (.str "goals", textList self.goals),
    (.str "invariants", textList self.invariants),
    (.str "memory_policy", .dict [
      (.str "retention_mode", .str self.memoryPolicy.retentionMode),
      (.str "retain_sensitive_data", .bool self.memoryPolicy.retainSensitiveData),
      (.str "retain_provenance", .bool self.memoryPolicy.retainProvenance),
      (.str "max_session_events", .num (.int self.memoryPolicy.maxSessionEvents))]),
    (.str "priority_policy", .dict [
      (.str "weights", .dict [
        (.str "urgency", floatValue self.priorityPolicy.weights.urgency),
        (.str "risk", floatValue self.priorityPolicy.weights.risk),
        (.str "user_value", floatValue self.priorityPolicy.weights.userValue),
        (.str "instability", floatValue self.priorityPolicy.weights.instability)]),
      (.str "reflex_threshold", floatValue self.priorityPolicy.reflexThreshold),
      (.str "deliberation_threshold", floatValue self.priorityPolicy.deliberationThreshold)]),
    (.str "safety_policy", .dict [
      (.str "policy_version", .str self.safetyPolicy.policyVersion),
      (.str "approval_required_for", textList self.safetyPolicy.approvalRequiredFor),
      (.str "deny_actions", textList self.safetyPolicy.denyActions),
      (.str "default_mutation_mode", .str self.safetyPolicy.defaultMutationMode.name)]),
    (.str "audit_policy", .dict [
      (.str "include_config_hash", .bool self.auditPolicy.includeConfigHash),
      (.str "include_policy_reason", .bool self.auditPolicy.includePolicyReason)])]

end AgentConfig

/-- What passes the check of a probability. -/
def InRange (x : PyFloat) : Prop := x.lt (.finite 0) = false ∧ (PyFloat.finite 1).lt x = false

/-- What the parser guarantees of a configuration. -/
structure AgentConfig.Proper (config : AgentConfig) : Prop where
  agentId : config.agentId ≠ ""
  configVersion : config.configVersion ≠ ""
  displayName : config.displayName ≠ ""
  role : config.role ≠ ""
  description : config.description ≠ ""
  goals : config.goals ≠ [] ∧ "" ∉ config.goals
  invariants : config.invariants ≠ [] ∧ "" ∉ config.invariants
  urgency : InRange config.priorityPolicy.weights.urgency
  risk : InRange config.priorityPolicy.weights.risk
  userValue : InRange config.priorityPolicy.weights.userValue
  instability : InRange config.priorityPolicy.weights.instability
  weights : (((config.priorityPolicy.weights.urgency.add config.priorityPolicy.weights.risk).add
    config.priorityPolicy.weights.userValue).add config.priorityPolicy.weights.instability).le (.finite 0) = false
  reflexThreshold : InRange config.priorityPolicy.reflexThreshold
  deliberationThreshold : InRange config.priorityPolicy.deliberationThreshold
  approvalRequiredFor : "" ∉ config.safetyPolicy.approvalRequiredFor
  denyActions : "" ∉ config.safetyPolicy.denyActions

theorem requireString_ok_iff {data : JsonObject} {fieldName text : String} :
    requireString data fieldName = .ok text ↔ data.get? fieldName = some (.str text) ∧ text ≠ "" := by
  unfold requireString
  split
  · rename_i found
    simp [found]
  · rename_i given found
    rw [found, Option.some.injEq, Value.str.injEq]
    by_cases empty : given = ""
    · rw [if_pos empty]
      constructor
      · intro impossible
        cases impossible
      · intro both
        exact (both.2 (both.1.symm.trans empty)).elim
    · rw [if_neg empty, Except.ok.injEq]
      exact ⟨fun same => ⟨same, same ▸ empty⟩, And.left⟩
  · rename_i value other found
    rw [found, Option.some.injEq]
    constructor
    · intro impossible
      cases impossible
    · intro both
      exact (other text both.1).elim

theorem nonEmptyStrings?_map {texts : List String} (each : "" ∉ texts) :
    nonEmptyStrings? (texts.map .str) = some texts := by
  induction texts with
  | nil => rfl
  | cons text texts ih =>
    obtain ⟨first, later⟩ := not_or.mp (mt List.mem_cons.mpr each)
    have rest := ih later
    rw [nonEmptyStrings?] at rest ⊢
    rw [List.map_cons, List.mapM_cons, rest]
    simp only [Ne.symm first, if_false]
    rfl

theorem nonEmptyStrings?_some {items : List Json} {texts : List String} (read : nonEmptyStrings? items = some texts) :
    items = texts.map .str ∧ "" ∉ texts := by
  induction items generalizing texts with
  | nil =>
    cases read
    exact ⟨rfl, List.not_mem_nil⟩
  | cons item items ih =>
    rw [nonEmptyStrings?, List.mapM_cons] at read
    obtain ⟨text, head, tail⟩ := Option.bind_eq_some_iff.mp read
    obtain ⟨rest, later, same⟩ := Option.bind_eq_some_iff.mp tail
    cases same
    obtain ⟨restItems, restEach⟩ := ih later
    split at head
    · split at head
      · cases head
      · rename_i given some
        cases head
        refine ⟨by rw [List.map_cons, restItems], fun member => ?_⟩
        rcases List.mem_cons.mp member with empty | inside
        · exact some empty.symm
        · exact restEach inside
    · cases head

theorem requireStringList_ok_iff {data : JsonObject} {fieldName : String} {texts : List String} :
    requireStringList data fieldName = .ok texts ↔
      data.get? fieldName = some (textList texts) ∧ texts ≠ [] ∧ "" ∉ texts := by
  constructor
  · intro ok
    unfold requireStringList at ok
    split at ok
    · cases ok
    · rename_i item items found
      split at ok
      · cases ok
      · rename_i strings read
        cases ok
        obtain ⟨same, each⟩ := nonEmptyStrings?_some read
        refine ⟨by rw [found, same]; rfl, ?_, each⟩
        rintro rfl
        cases same
    · cases ok
  · rintro ⟨found, some, each⟩
    obtain ⟨text, rest, rfl⟩ := List.exists_cons_of_ne_nil some
    have read := nonEmptyStrings?_map each
    rw [List.map_cons] at read
    rw [requireStringList, found]
    simp only [textList, List.map_cons, read]

theorem requireStringListOrDefault_ok {data : JsonObject} {fieldName context : String} {default texts : List String}
    (sane : "" ∉ default) (ok : requireStringListOrDefault data fieldName default context = .ok texts) : "" ∉ texts := by
  unfold requireStringListOrDefault at ok
  dsimp only at ok
  split at ok
  · cases ok
    exact sane
  · split at ok
    · cases ok
    · rename_i strings read
      cases ok
      exact (nonEmptyStrings?_some read).2
  · cases ok

theorem requireStringListOrDefault_textList {data : JsonObject} {fieldName context : String} {default texts : List String}
    (found : data.get? fieldName = some (textList texts)) (each : "" ∉ texts) :
    requireStringListOrDefault data fieldName default context = .ok texts := by
  rw [requireStringListOrDefault, found]
  simp only [textList, nonEmptyStrings?_map each]

/-- A default apart, a number that is accepted is in range. -/
theorem requireProbability_inRange {data : JsonObject} {fieldName context : String} {default : Option PyFloat}
    {x : PyFloat} (sane : ∀ value, default = some value → InRange value)
    (ok : requireProbability data fieldName default context = .ok x) : InRange x := by
  rcases requireProbability_cases ok with ⟨_, given⟩ | ⟨_, _, _, lower, upper⟩
  · exact sane x given
  · exact ⟨lower, upper⟩

theorem requireProbability_floatValue {data : JsonObject} {fieldName context : String} {default : Option PyFloat}
    {x : PyFloat} (found : data.get? fieldName = some (floatValue x)) (inRange : InRange x) :
    requireProbability data fieldName default context = .ok x := by
  have passes : ¬(x.lt (.finite 0) = true ∨ (PyFloat.finite 1).lt x = true) := by
    rw [inRange.1, inRange.2]
    simp
  unfold requireProbability
  simp only [found, floatValue, JsonNumber.toFloat?]
  exact if_neg passes

theorem inRange_of_mem {q : ℚ} (lower : 0 ≤ q) (upper : q ≤ 1) : InRange (.finite q) :=
  ⟨decide_eq_false (not_lt.mpr lower), decide_eq_false (not_lt.mpr upper)⟩

theorem parseSafetyPolicy_ok {render : Json → String} {json : Json} {policy : SafetyPolicyConfig}
    (ok : parseSafetyPolicy render json = .ok policy) : "" ∉ policy.approvalRequiredFor ∧ "" ∉ policy.denyActions := by
  cases json with
  | dict data =>
    simp only [parseSafetyPolicy] at ok
    obtain ⟨mode, _, ok⟩ := bind_eq_ok ok
    obtain ⟨approval, readApproval, ok⟩ := bind_eq_ok ok
    obtain ⟨deny, readDeny, ok⟩ := bind_eq_ok ok
    cases ok
    exact ⟨requireStringListOrDefault_ok (by decide) readApproval, requireStringListOrDefault_ok (by decide) readDeny⟩
  | _ => cases ok

/-- What the parser returns is what it guarantees. -/
theorem AgentConfig.ReadFrom.proper {config : AgentConfig} {render : Json → String} {data : JsonObject}
    (reads : config.ReadFrom render data) : config.Proper := by
  obtain ⟨_, _, _, _, urgency, risk, userValue, instability, weights, reflex, deliberation⟩ :=
    parsePriorityPolicy_ok reads.priorityPolicy
  obtain ⟨approval, deny⟩ := parseSafetyPolicy_ok reads.safetyPolicy
  have noDefault : ∀ value, (none : Option PyFloat) = some value → InRange value := by
    intro value impossible
    cases impossible
  have given {q : ℚ} (lower : 0 ≤ q) (upper : q ≤ 1) : ∀ value, some (PyFloat.finite q) = some value → InRange value := by
    intro value same
    cases same
    exact inRange_of_mem lower upper
  exact {
    agentId := (requireString_ok_iff.mp reads.agentId).2
    configVersion := (requireString_ok_iff.mp reads.configVersion).2
    displayName := (requireString_ok_iff.mp reads.displayName).2
    role := (requireString_ok_iff.mp reads.role).2
    description := (requireString_ok_iff.mp reads.description).2
    goals := (requireStringList_ok_iff.mp reads.goals).2
    invariants := (requireStringList_ok_iff.mp reads.invariants).2
    urgency := requireProbability_inRange noDefault urgency
    risk := requireProbability_inRange noDefault risk
    userValue := requireProbability_inRange noDefault userValue
    instability := requireProbability_inRange noDefault instability
    weights := weights
    reflexThreshold := requireProbability_inRange (given (q := 75 / 100) (by norm_num) (by norm_num)) reflex
    deliberationThreshold := requireProbability_inRange (given (q := 35 / 100) (by norm_num) (by norm_num)) deliberation
    approvalRequiredFor := approval
    denyActions := deny }

/-- The fields of a priority policy, once all of them are read. -/
theorem parsePriorityPolicy_of_reads {data weights : JsonObject} {policy : PriorityPolicy}
    (found : weightsData data = .dict weights)
    (urgency : requireProbability weights "urgency" none "priority_policy.weights" = .ok policy.weights.urgency)
    (risk : requireProbability weights "risk" none "priority_policy.weights" = .ok policy.weights.risk)
    (userValue : requireProbability weights "user_value" none "priority_policy.weights" = .ok policy.weights.userValue)
    (instability : requireProbability weights "instability" none "priority_policy.weights" =
      .ok policy.weights.instability)
    (sum : (((policy.weights.urgency.add policy.weights.risk).add policy.weights.userValue).add
      policy.weights.instability).le (.finite 0) = false)
    (reflex : requireProbability data "reflex_threshold" (some (.finite (75 / 100))) "priority_policy" =
      .ok policy.reflexThreshold)
    (deliberation : requireProbability data "deliberation_threshold" (some (.finite (35 / 100))) "priority_policy" =
      .ok policy.deliberationThreshold) : parsePriorityPolicy (.dict data) = .ok policy := by
  simp only [parsePriorityPolicy, found, urgency, risk, userValue, instability, sum, reflex, deliberation, bind,
    Except.bind, Bool.false_eq_true, if_false]
  rfl

theorem parsePriorityPolicy_toDict {config : AgentConfig} (proper : config.Proper) :
    parsePriorityPolicy ((JsonObject.get? config.toDict "priority_policy").getD (.dict [])) = .ok config.priorityPolicy := by
  have inside : JsonObject.get? config.toDict "priority_policy" = some (.dict [
      (.str "weights", .dict [
        (.str "urgency", floatValue config.priorityPolicy.weights.urgency),
        (.str "risk", floatValue config.priorityPolicy.weights.risk),
        (.str "user_value", floatValue config.priorityPolicy.weights.userValue),
        (.str "instability", floatValue config.priorityPolicy.weights.instability)]),
      (.str "reflex_threshold", floatValue config.priorityPolicy.reflexThreshold),
      (.str "deliberation_threshold", floatValue config.priorityPolicy.deliberationThreshold)]) := by
    simp [AgentConfig.toDict, JsonObject.get?, Assoc.get?]
  rw [inside, Option.getD_some]
  refine parsePriorityPolicy_of_reads rfl ?_ ?_ ?_ ?_ proper.weights ?_ ?_
  · exact requireProbability_floatValue (by simp [JsonObject.get?, Assoc.get?]) proper.urgency
  · exact requireProbability_floatValue (by simp [JsonObject.get?, Assoc.get?]) proper.risk
  · exact requireProbability_floatValue (by simp [JsonObject.get?, Assoc.get?]) proper.userValue
  · exact requireProbability_floatValue (by simp [JsonObject.get?, Assoc.get?]) proper.instability
  · exact requireProbability_floatValue (by simp [JsonObject.get?, Assoc.get?]) proper.reflexThreshold
  · exact requireProbability_floatValue (by simp [JsonObject.get?, Assoc.get?]) proper.deliberationThreshold

theorem parseMemoryPolicy_toDict (config : AgentConfig) :
    parseMemoryPolicy ((JsonObject.get? config.toDict "memory_policy").getD .null) = .ok config.memoryPolicy := by
  have inside : JsonObject.get? config.toDict "memory_policy" = some (.dict [
      (.str "retention_mode", .str config.memoryPolicy.retentionMode),
      (.str "retain_sensitive_data", .bool config.memoryPolicy.retainSensitiveData),
      (.str "retain_provenance", .bool config.memoryPolicy.retainProvenance),
      (.str "max_session_events", .num (.int config.memoryPolicy.maxSessionEvents))]) := by
    simp [AgentConfig.toDict, JsonObject.get?, Assoc.get?]
  rw [inside, Option.getD_some]
  simp [parseMemoryPolicy, normalizedMemory, JsonObject.get?, Assoc.get?]

theorem parseSafetyPolicy_toDict (render : Json → String) {config : AgentConfig} (proper : config.Proper) :
    parseSafetyPolicy render ((JsonObject.get? config.toDict "safety_policy").getD (.dict [])) =
      .ok config.safetyPolicy := by
  have inside : JsonObject.get? config.toDict "safety_policy" = some (.dict [
      (.str "policy_version", .str config.safetyPolicy.policyVersion),
      (.str "approval_required_for", textList config.safetyPolicy.approvalRequiredFor),
      (.str "deny_actions", textList config.safetyPolicy.denyActions),
      (.str "default_mutation_mode", .str config.safetyPolicy.defaultMutationMode.name)]) := by
    simp [AgentConfig.toDict, JsonObject.get?, Assoc.get?]
  rw [inside, Option.getD_some, parseSafetyPolicy]
  rw [requireStringListOrDefault_textList (by simp [JsonObject.get?, Assoc.get?]) proper.approvalRequiredFor,
    requireStringListOrDefault_textList (by simp [JsonObject.get?, Assoc.get?]) proper.denyActions]
  simp [JsonObject.get?, Assoc.get?, parseMutationMode, Value.pyStr, bind, Except.bind, pure, Except.pure]

theorem parseAuditPolicy_toDict (config : AgentConfig) :
    parseAuditPolicy ((JsonObject.get? config.toDict "audit_policy").getD (.dict [])) = .ok config.auditPolicy := by
  have inside : JsonObject.get? config.toDict "audit_policy" = some (.dict [
      (.str "include_config_hash", .bool config.auditPolicy.includeConfigHash),
      (.str "include_policy_reason", .bool config.auditPolicy.includePolicyReason)]) := by
    simp [AgentConfig.toDict, JsonObject.get?, Assoc.get?]
  rw [inside, Option.getD_some]
  simp [parseAuditPolicy, JsonObject.get?, Assoc.get?, pure, Except.pure]

theorem parseOptionalString_of_get? {data : JsonObject} {fieldName : String} {text : Option String}
    (found : data.get? fieldName = some (optionalText text)) : parseOptionalString data fieldName = .ok text := by
  unfold parseOptionalString
  rw [found]
  cases text <;> rfl

/-- Every part of the document is read as the field it was written from. -/
theorem AgentConfig.Proper.readFrom_toDict {config : AgentConfig} (proper : config.Proper) (render : Json → String) :
    config.ReadFrom render config.toDict where
  agentId := requireString_ok_iff.mpr ⟨by simp [toDict, JsonObject.get?, Assoc.get?], proper.agentId⟩
  configVersion := requireString_ok_iff.mpr ⟨by simp [toDict, JsonObject.get?, Assoc.get?], proper.configVersion⟩
  displayName := requireString_ok_iff.mpr ⟨by simp [toDict, JsonObject.get?, Assoc.get?], proper.displayName⟩
  role := requireString_ok_iff.mpr ⟨by simp [toDict, JsonObject.get?, Assoc.get?], proper.role⟩
  description := requireString_ok_iff.mpr ⟨by simp [toDict, JsonObject.get?, Assoc.get?], proper.description⟩
  goals := requireStringList_ok_iff.mpr ⟨by simp [toDict, JsonObject.get?, Assoc.get?], proper.goals⟩
  invariants := requireStringList_ok_iff.mpr ⟨by simp [toDict, JsonObject.get?, Assoc.get?], proper.invariants⟩
  memoryPolicy := parseMemoryPolicy_toDict config
  priorityPolicy := parsePriorityPolicy_toDict proper
  safetyPolicy := parseSafetyPolicy_toDict render proper
  auditPolicy := parseAuditPolicy_toDict config
  scenarioId := parseOptionalString_of_get? (by simp [toDict, JsonObject.get?, Assoc.get?])
  scenarioName := parseOptionalString_of_get? (by simp [toDict, JsonObject.get?, Assoc.get?])

theorem AgentConfig.ReadFrom.none_missing {config : AgentConfig} {render : Json → String} {data : JsonObject}
    (reads : config.ReadFrom render data) : requiredConfigFields.filter (fun name => (data.get? name).isNone) = [] := by
  obtain ⟨fields, isFields, _⟩ := parseMemoryPolicy_ok reads.memoryPolicy
  simp [requiredConfigFields, (requireString_ok_iff.mp reads.agentId).1, (requireString_ok_iff.mp reads.configVersion).1,
    (requireString_ok_iff.mp reads.displayName).1, (requireString_ok_iff.mp reads.role).1,
    (requireString_ok_iff.mp reads.description).1, (requireStringList_ok_iff.mp reads.goals).1,
    (requireStringList_ok_iff.mp reads.invariants).1, get?_of_getD_dict isFields]

/-- Data from which every field can be read are accepted. -/
theorem parseAgentConfig_of_reads {render : Json → String} {data : JsonObject} {config : AgentConfig}
    (reads : config.ReadFrom render data) (source : Option PurePath) :
    parseAgentConfig render data source = .ok { config with sourcePath := source.map PurePath.str } := by
  unfold parseAgentConfig
  simp only [reads.none_missing, ne_eq, not_true_eq_false, if_false, reads.agentId, reads.configVersion, reads.displayName,
    reads.role, reads.description, reads.goals, reads.invariants, reads.memoryPolicy, reads.priorityPolicy,
    reads.safetyPolicy, reads.auditPolicy, reads.scenarioId, reads.scenarioName, bind, Except.bind]
  rfl

/-- What was accepted is read back from its document, but for the path of its source. -/
theorem parseAgentConfig_toDict {render : Json → String} {data : JsonObject} {source : Option PurePath} {config : AgentConfig}
    (accepted : parseAgentConfig render data source = .ok config) (source' : Option PurePath) :
    parseAgentConfig render config.toDict source' = .ok { config with sourcePath := source'.map PurePath.str } :=
  parseAgentConfig_of_reads ((parseAgentConfig_reads accepted).proper.readFrom_toDict render) source'

end Centroid
