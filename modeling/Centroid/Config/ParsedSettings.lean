import Centroid.Config.AgentConfig
import Centroid.Lib.Raises

namespace Centroid

open Raises

/-- The number that a weight is read as. -/
def numeric? : Json → Option PyFloat
  | .bool b => some (.finite (if b then 1 else 0))
  | .num n => n.toFloat?
  | _ => none

/-- A probability is the default, or the number found under its name, which is
then in range. -/
theorem requireProbability_cases {data : JsonObject} {fieldName context : String} {default : Option PyFloat}
    {weight : PyFloat} (ok : requireProbability data fieldName default context = .ok weight) :
    data.get? fieldName = none ∧ default = some weight ∨
      ∃ value, data.get? fieldName = some value ∧ numeric? value = some weight ∧
        weight.lt (.finite 0) = false ∧ (PyFloat.finite 1).lt weight = false := by
  have ranged {x : PyFloat} {e : ConfigError}
      (passed : (if x.lt (.finite 0) ∨ (PyFloat.finite 1).lt x then Except.error e else .ok x) = .ok weight) :
      x = weight ∧ weight.lt (.finite 0) = false ∧ (PyFloat.finite 1).lt weight = false := by
    split at passed
    · cases passed
    · rename_i inside
      cases passed
      obtain ⟨lower, upper⟩ := not_or.mp inside
      exact ⟨rfl, Bool.eq_false_iff.mpr lower, Bool.eq_false_iff.mpr upper⟩
  unfold requireProbability at ok
  cases found : data.get? fieldName with
  | none =>
    cases default with
    | none => simp [found] at ok
    | some value =>
      simp only [found, Except.ok.injEq] at ok
      exact Or.inl ⟨rfl, congrArg some ok⟩
  | some value =>
    refine Or.inr ⟨value, rfl, ?_⟩
    cases value with
    | bool b =>
      simp only [found] at ok
      obtain ⟨same, bounds⟩ := ranged ok
      exact ⟨congrArg some same, bounds⟩
    | num n =>
      simp only [found] at ok
      cases converted : n.toFloat? with
      | none => simp [converted] at ok
      | some numeric =>
        simp only [converted] at ok
        obtain ⟨same, bounds⟩ := ranged ok
        exact ⟨converted.trans (congrArg some same), bounds⟩
    | _ => simp [found] at ok

/-- A required probability is the number found under its name. -/
theorem requireProbability_ok {data : JsonObject} {fieldName context : String} {weight : PyFloat}
    (ok : requireProbability data fieldName none context = .ok weight) :
    ∃ value, data.get? fieldName = some value ∧ numeric? value = some weight := by
  rcases requireProbability_cases ok with ⟨_, impossible⟩ | ⟨value, found, numeric, _⟩
  · cases impossible
  · exact ⟨value, found, numeric⟩

/-- An entry that is read as a mapping, with null for a missing one, is there. -/
theorem get?_of_getD_dict {data fields : JsonObject} {name : String} (read : (data.get? name).getD .null = .dict fields) :
    data.get? name = some (.dict fields) := by
  cases own : data.get? name with
  | none => simp [own] at read
  | some json =>
    rw [own, Option.getD_some] at read
    rw [read]

/-- The entry under a name, else the one under its older spelling. -/
def eitherEntry (data : JsonObject) (name older : String) : Option Json := (data.get? name).or (data.get? older)

theorem normalizedMemory_get? (data : JsonObject) :
    Assoc.get? (normalizedMemory data) "retention_mode" =
        some ((eitherEntry data "retention_mode" "default_retention").getD .null) ∧
      Assoc.get? (normalizedMemory data) "retain_sensitive_data" =
        some ((eitherEntry data "retain_sensitive_data" "store_sensitive_data").getD .null) ∧
      Assoc.get? (normalizedMemory data) "retain_provenance" =
        some ((eitherEntry data "retain_provenance" "require_provenance").getD .null) ∧
      Assoc.get? (normalizedMemory data) "max_session_events" =
        some ((data.get? "max_session_events").getD (.num (.int 100))) := by
  have either (name older : String) :
      ((data.get? name).orElse fun _ => data.get? older) = eitherEntry data name older := by
    rw [eitherEntry]
    cases data.get? name <;> rfl
  simp only [normalizedMemory, either]
  refine ⟨?_, ?_, ?_, ?_⟩ <;> simp [Assoc.get?]

/-- The number of events that a limit is read as. -/
def count? : Json → Option ℕ
  | .bool b => some (if b then 1 else 0)
  | .num (.int (.ofNat n)) => some n
  | _ => none

theorem parseMemoryPolicy_ok {json : Json} {policy : MemoryPolicy} (ok : parseMemoryPolicy json = .ok policy) :
    ∃ data : JsonObject, json = .dict data ∧
      eitherEntry data "retention_mode" "default_retention" = some (.str policy.retentionMode) ∧
      eitherEntry data "retain_sensitive_data" "store_sensitive_data" = some (.bool policy.retainSensitiveData) ∧
      eitherEntry data "retain_provenance" "require_provenance" = some (.bool policy.retainProvenance) ∧
      count? ((data.get? "max_session_events").getD (.num (.int 100))) = some policy.maxSessionEvents := by
  cases json with
  | dict data =>
    have present {entry : Option Json} {value : Json} (read : entry.getD .null = value) (given : value ≠ .null) :
        entry = some value := by
      cases entry with
      | none => exact absurd read.symm given
      | some other => exact congrArg some read
    obtain ⟨mode, sensitive, provenance, limit⟩ := normalizedMemory_get? data
    simp only [parseMemoryPolicy, mode, sensitive, provenance, limit, Option.getD_some] at ok
    split at ok
    · cases ok
    split at ok
    swap
    · cases ok
    rename_i retentionMode readMode
    split at ok
    swap
    · cases ok
    rename_i retainSensitiveData readSensitive
    split at ok
    swap
    · cases ok
    rename_i retainProvenance readProvenance
    have limited : ∃ n, count? ((JsonObject.get? data "max_session_events").getD (.num (.int 100))) = some n ∧
        policy = ⟨retentionMode, retainSensitiveData, retainProvenance, n⟩ := by
      split at ok
      · rename_i b limit
        exact ⟨_, by rw [limit]; rfl, (Except.ok.inj ok).symm⟩
      · rename_i n limit
        exact ⟨_, by rw [limit]; rfl, (Except.ok.inj ok).symm⟩
      · cases ok
    obtain ⟨n, limit, rfl⟩ := limited
    exact ⟨data, rfl, present readMode (by simp), present readSensitive (by simp), present readProvenance (by simp), limit⟩
  | _ => cases ok

theorem parsePriorityPolicy_ok {json : Json} {policy : PriorityPolicy} (ok : parsePriorityPolicy json = .ok policy) :
    ∃ data weights : JsonObject, json = .dict data ∧ weightsData data = .dict weights ∧
      requireProbability weights "urgency" none "priority_policy.weights" = .ok policy.weights.urgency ∧
      requireProbability weights "risk" none "priority_policy.weights" = .ok policy.weights.risk ∧
      requireProbability weights "user_value" none "priority_policy.weights" = .ok policy.weights.userValue ∧
      requireProbability weights "instability" none "priority_policy.weights" = .ok policy.weights.instability ∧
      (((policy.weights.urgency.add policy.weights.risk).add policy.weights.userValue).add
        policy.weights.instability).le (.finite 0) = false ∧
      requireProbability data "reflex_threshold" (some (.finite (75 / 100))) "priority_policy" =
        .ok policy.reflexThreshold ∧
      requireProbability data "deliberation_threshold" (some (.finite (35 / 100))) "priority_policy" =
        .ok policy.deliberationThreshold := by
  cases json with
  | dict data =>
    simp only [parsePriorityPolicy] at ok
    split at ok
    swap
    · cases ok
    rename_i weights found
    obtain ⟨urgency, readUrgency, ok⟩ := bind_eq_ok ok
    obtain ⟨risk, readRisk, ok⟩ := bind_eq_ok ok
    obtain ⟨userValue, readUserValue, ok⟩ := bind_eq_ok ok
    obtain ⟨instability, readInstability, ok⟩ := bind_eq_ok ok
    split at ok
    · cases ok
    rename_i positive
    obtain ⟨reflex, readReflex, ok⟩ := bind_eq_ok ok
    obtain ⟨deliberation, readDeliberation, ok⟩ := bind_eq_ok ok
    cases ok
    exact ⟨data, weights, rfl, found, readUrgency, readRisk, readUserValue, readInstability, Bool.eq_false_iff.mpr positive,
      readReflex, readDeliberation⟩
  | _ => cases ok

/-- Every field of a configuration comes from its own part of the data. -/
structure AgentConfig.ReadFrom (config : AgentConfig) (render : Json → String) (data : JsonObject) : Prop where
  agentId : requireString data "agent_id" = .ok config.agentId
  configVersion : requireString data "config_version" = .ok config.configVersion
  displayName : requireString data "display_name" = .ok config.displayName
  role : requireString data "role" = .ok config.role
  description : requireString data "description" = .ok config.description
  goals : requireStringList data "goals" = .ok config.goals
  invariants : requireStringList data "invariants" = .ok config.invariants
  memoryPolicy : parseMemoryPolicy ((data.get? "memory_policy").getD .null) = .ok config.memoryPolicy
  priorityPolicy : parsePriorityPolicy ((data.get? "priority_policy").getD (.dict [])) = .ok config.priorityPolicy
  safetyPolicy : parseSafetyPolicy render ((data.get? "safety_policy").getD (.dict [])) = .ok config.safetyPolicy
  auditPolicy : parseAuditPolicy ((data.get? "audit_policy").getD (.dict [])) = .ok config.auditPolicy
  scenarioId : parseOptionalString data "scenario_id" = .ok config.scenarioId
  scenarioName : parseOptionalString data "scenario_name" = .ok config.scenarioName

theorem parseAgentConfig_reads {render : Json → String} {data : JsonObject} {source : Option PurePath}
    {config : AgentConfig} (ok : parseAgentConfig render data source = .ok config) : config.ReadFrom render data := by
  unfold parseAgentConfig at ok
  dsimp only at ok
  split at ok
  · cases ok
  obtain ⟨_, agentId, ok⟩ := bind_eq_ok ok
  obtain ⟨_, configVersion, ok⟩ := bind_eq_ok ok
  obtain ⟨_, displayName, ok⟩ := bind_eq_ok ok
  obtain ⟨_, role, ok⟩ := bind_eq_ok ok
  obtain ⟨_, description, ok⟩ := bind_eq_ok ok
  obtain ⟨_, goals, ok⟩ := bind_eq_ok ok
  obtain ⟨_, invariants, ok⟩ := bind_eq_ok ok
  obtain ⟨_, memoryPolicy, ok⟩ := bind_eq_ok ok
  obtain ⟨_, priorityPolicy, ok⟩ := bind_eq_ok ok
  obtain ⟨_, safetyPolicy, ok⟩ := bind_eq_ok ok
  obtain ⟨_, auditPolicy, ok⟩ := bind_eq_ok ok
  obtain ⟨_, scenarioId, ok⟩ := bind_eq_ok ok
  obtain ⟨_, scenarioName, ok⟩ := bind_eq_ok ok
  cases ok
  exact ⟨agentId, configVersion, displayName, role, description, goals, invariants, memoryPolicy, priorityPolicy,
    safetyPolicy, auditPolicy, scenarioId, scenarioName⟩

theorem parseAgentConfig_ok {render : Json → String} {data : JsonObject} {source : Option PurePath}
    {config : AgentConfig} (ok : parseAgentConfig render data source = .ok config) :
    parseMemoryPolicy ((data.get? "memory_policy").getD .null) = .ok config.memoryPolicy ∧
      parsePriorityPolicy ((data.get? "priority_policy").getD (.dict [])) = .ok config.priorityPolicy :=
  ⟨(parseAgentConfig_reads ok).memoryPolicy, (parseAgentConfig_reads ok).priorityPolicy⟩

end Centroid
