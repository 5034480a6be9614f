import Centroid.Lib.Json
import Centroid.Lib.PosixPath

namespace Centroid

def requiredConfigFields : List String :=
  ["agent_id", "config_version", "display_name", "role", "description", "goals", "invariants", "memory_policy"]

structure PriorityWeights where
  urgency : PyFloat
  risk : PyFloat
  userValue : PyFloat
  instability : PyFloat

structure PriorityPolicy where
  weights : PriorityWeights
  reflexThreshold : PyFloat := .finite (75 / 100)
  deliberationThreshold : PyFloat := .finite (35 / 100)

inductive MutationMode where
  | allow
  | requireApproval
  | deny
  deriving DecidableEq

def MutationMode.ofName? : String → Option MutationMode
  | "allow" => some .allow
  | "require_approval" => some .requireApproval
  | "deny" => some .deny
  | _ => none

structure SafetyPolicyConfig where
  policyVersion : String
  approvalRequiredFor : List String
  denyActions : List String
  defaultMutationMode : MutationMode

/-- A limit on session events that was given as a truth value is kept as the
one or zero it equals. -/
structure MemoryPolicy where
  retentionMode : String
  retainSensitiveData : Bool
  retainProvenance : Bool
  maxSessionEvents : ℕ

structure AuditPolicy where
  includeConfigHash : Bool
  includePolicyReason : Bool

structure AgentConfig where
  agentId : String
  configVersion : String
  displayName : String
  role : String
  description : String
  goals : List String
  invariants : List String
  memoryPolicy : MemoryPolicy
  scenarioId : Option String := none
  scenarioName : Option String := none
  priorityPolicy : PriorityPolicy :=
    { weights := ⟨.finite (35 / 100), .finite (25 / 100), .finite (25 / 100), .finite (15 / 100)⟩ }
  safetyPolicy : SafetyPolicyConfig :=
    { policyVersion := "1.0"
      approvalRequiredFor := ["write_file", "change_config"]
      denyActions := ["expose_secret", "disable_shutdown", "delete_without_backup"]
      defaultMutationMode := .requireApproval }
  auditPolicy : AuditPolicy := ⟨true, true⟩
  sourcePath : Option String := none

/-- What `parse_agent_config` raises on the data of a configuration. -/
inductive ConfigError where
  | valueError (message : String)
  | typeError
  | keyError (name : String)
  | overflowError
  deriving DecidableEq

/-- The strings of a list that holds nothing but non-empty strings. -/
def nonEmptyStrings? (items : List Json) : Option (List String) :=
  items.mapM fun
    | .str s => if s = "" then none else some s
    | _ => none

def requireString (data : JsonObject) (fieldName : String) : Except ConfigError String :=
  match data.get? fieldName with
  | none => .error (.keyError fieldName)
  | some (.str s) => if s = "" then .error (.valueError (fieldName ++ " must be a non-empty string")) else .ok s
  | some _ => .error (.valueError (fieldName ++ " must be a non-empty string"))

def requireStringList (data : JsonObject) (fieldName : String) : Except ConfigError (List String) :=
  match data.get? fieldName with
  | none => .error (.keyError fieldName)
  | some (.list (item :: items)) =>
    match nonEmptyStrings? (item :: items) with
    | none => .error (.valueError (fieldName ++ " must contain non-empty strings"))
    | some strings => .ok strings
  | some _ => .error (.valueError (fieldName ++ " must be a non-empty list"))

def requireStringListOrDefault (data : JsonObject) (fieldName : String) (default : List String) (context : String) :
    Except ConfigError (List String) :=
  let complaint := ConfigError.valueError (context ++ "." ++ fieldName ++ " must be a list of non-empty strings")
  match data.get? fieldName with
  | none => .ok default
  | some (.list items) =>
    match nonEmptyStrings? items with
    | none => .error complaint
    | some strings => .ok strings
  | some _ => .error complaint

/-- A probability, `nan` included: it is neither below zero nor above one. -/
def requireProbability (data : JsonObject) (fieldName : String) (default : Option PyFloat) (context : String) :
    Except ConfigError PyFloat :=
  let complain problem := ConfigError.valueError (context ++ "." ++ fieldName ++ problem)
  let inRange (numeric : PyFloat) : Except ConfigError PyFloat :=
    if numeric.lt (.finite 0) ∨ (PyFloat.finite 1).lt numeric then .error (complain " must be between 0.0 and 1.0")
    else .ok numeric
  match data.get? fieldName, default with
  | none, none => .error (complain " is required")
  | none, some value => .ok value
  | some (.bool b), _ => inRange (.finite (if b then 1 else 0))
  | some (.num n), _ =>
    match n.toFloat? with
    | none => .error .overflowError
    | some numeric => inRange numeric
  | some _, _ => .error (complain " must be a number")

/-- The fields of a memory policy under their present names, the older ones
standing in where those are absent. -/
def normalizedMemory (data : JsonObject) : List (String × Json) :=
  let either (name older : String) := ((data.get? name).orElse fun _ => data.get? older).getD .null
  [("retention_mode", either "retention_mode" "default_retention"),
    ("retain_sensitive_data", either "retain_sensitive_data" "store_sensitive_data"),
    ("retain_provenance", either "retain_provenance" "require_provenance"),
    ("max_session_events", (data.get? "max_session_events").getD (.num (.int 100)))]

def parseMemoryPolicy : Json → Except ConfigError MemoryPolicy
  | .dict data => do
    let normalized := normalizedMemory data
    let value name := (Assoc.get? normalized name).getD .null
    if let some (fieldName, _) := normalized.find? (fun entry => entry.2 matches .null) then
      throw (.valueError ("memory_policy missing required field: " ++ fieldName))
    let .str retentionMode := value "retention_mode"
      | throw (.valueError "memory_policy.retention_mode must be a string")
    let .bool retainSensitiveData := value "retain_sensitive_data"
      | throw (.valueError "memory_policy.retain_sensitive_data must be a boolean")
    let .bool retainProvenance := value "retain_provenance"
      | throw (.valueError "memory_policy.retain_provenance must be a boolean")
    let maxSessionEvents ← match value "max_session_events" with
      | .bool b => .ok (if b then 1 else 0)
      | .num (.int (.ofNat n)) => .ok n
      | _ => .error (.valueError "memory_policy.max_session_events must be a non-negative integer")
    return ⟨retentionMode, retainSensitiveData, retainProvenance, maxSessionEvents⟩
  | _ => .error (.valueError "memory_policy must be an object")

/-- The weights object, built of the older keys where it is absent. -/
def weightsData (data : JsonObject) : Json :=
  let legacy name (default : ℚ) := (data.get? name).getD (.num (.float (.finite default)))
  match (data.get? "weights").getD .null with
  | .null =>
    .dict [(.str "urgency", legacy "urgency_weight" (35 / 100)), (.str "risk", legacy "risk_weight" (25 / 100)),
      (.str "user_value", legacy "user_value_weight" (25 / 100)),
      (.str "instability", legacy "instability_weight" (15 / 100))]
  | weights => weights

def parsePriorityPolicy : Json → Except ConfigError PriorityPolicy
  | .dict data => do
    let .dict weightsData := weightsData data
      | throw (.valueError "priority_policy.weights must be an object")
    let urgency ← requireProbability weightsData "urgency" none "priority_policy.weights"
    let risk ← requireProbability weightsData "risk" none "priority_policy.weights"
    let userValue ← requireProbability weightsData "user_value" none "priority_policy.weights"
    let instability ← requireProbability weightsData "instability" none "priority_policy.weights"
    if (((urgency.add risk).add userValue).add instability).le (.finite 0) then
      throw (.valueError "priority_policy.weights must sum to more than zero")
    let reflex ← requireProbability data "reflex_threshold" (some (.finite (75 / 100))) "priority_policy"
    let deliberation ← requireProbability data "deliberation_threshold" (some (.finite (35 / 100))) "priority_policy"
    return ⟨⟨urgency, risk, userValue, instability⟩, reflex, deliberation⟩
  | _ => .error (.valueError "priority_policy must be an object")

/-- The mode is looked up in a set, so it must be hashable. -/
def parseMutationMode (value : Json) : Except ConfigError MutationMode :=
  let complaint := ConfigError.valueError
    "safety_policy.default_mutation_mode must be allow, require_approval, or deny"
  match value with
  | .list _ | .dict _ => .error .typeError
  | .str name =>
    match MutationMode.ofName? name with
    | none => .error complaint
    | some mode => .ok mode
  | _ => .error complaint

def parseSafetyPolicy (render : Json → String) : Json → Except ConfigError SafetyPolicyConfig
  | .dict data => do
    let defaultMutationMode ← parseMutationMode ((JsonObject.get? data "default_mutation_mode").getD (.str "require_approval"))
    let approvalRequiredFor ← requireStringListOrDefault data "approval_required_for"
      ["write_file", "change_config"] "safety_policy"
    let denyActions ← requireStringListOrDefault data "deny_actions"
      ["expose_secret", "disable_shutdown", "delete_without_backup"] "safety_policy"
    let policyVersion := ((JsonObject.get? data "policy_version").getD (.str "1.0")).pyStr render
    return ⟨policyVersion, approvalRequiredFor, denyActions, defaultMutationMode⟩
  | _ => .error (.valueError "safety_policy must be an object")

def parseAuditPolicy : Json → Except ConfigError AuditPolicy
  | .dict data => do
    let .bool includeConfigHash := (JsonObject.get? data "include_config_hash").getD (.bool true)
      | throw (.valueError "audit_policy.include_config_hash must be a boolean")
    let .bool includePolicyReason := (JsonObject.get? data "include_policy_reason").getD (.bool true)
      | throw (.valueError "audit_policy.include_policy_reason must be a boolean")
    return ⟨includeConfigHash, includePolicyReason⟩
  | _ => .error (.valueError "audit_policy must be an object")

def parseOptionalString (data : JsonObject) (fieldName : String) : Except ConfigError (Option String) :=
  match (data.get? fieldName).getD .null with
  | .null => .ok none
  | .str s => .ok (some s)
  | _ => .error (.valueError (fieldName ++ " must be a string when present"))

def parseAgentConfig (render : Json → String) (data : JsonObject) (source : Option PurePath) :
    Except ConfigError AgentConfig := do
  let missing := requiredConfigFields.filter fun fieldName => (data.get? fieldName).isNone
  if missing ≠ [] then
    let label := (source.map PurePath.str).getD "agent config"
    throw (.valueError (label ++ " missing required fields: " ++ ", ".intercalate missing))
  let agentId ← requireString data "agent_id"
  let configVersion ← requireString data "config_version"
  let displayName ← requireString data "display_name"
  let role ← requireString data "role"
  let description ← requireString data "description"
  let goals ← requireStringList data "goals"
  let invariants ← requireStringList data "invariants"
  let memoryPolicy ← parseMemoryPolicy ((data.get? "memory_policy").getD .null)
  let priorityPolicy ← parsePriorityPolicy ((data.get? "priority_policy").getD (.dict []))
  let safetyPolicy ← parseSafetyPolicy render ((data.get? "safety_policy").getD (.dict []))
  let auditPolicy ← parseAuditPolicy ((data.get? "audit_policy").getD (.dict []))
  let scenarioId ← parseOptionalString data "scenario_id"
  let scenarioName ← parseOptionalString data "scenario_name"
  return {
    agentId, configVersion, displayName, role, description, goals, invariants, memoryPolicy,
    scenarioId, scenarioName, priorityPolicy, safetyPolicy, auditPolicy,
    sourcePath := source.map PurePath.str }

end Centroid
