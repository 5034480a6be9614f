import Centroid.Config.MergedPaths
import Centroid.Config.ParsedSettings

namespace Centroid

inductive WeightName where
  | urgency
  | risk
  | userValue
  | instability

def WeightName.key : WeightName → String
  | .urgency => "urgency"
  | .risk => "risk"
  | .userValue => "user_value"
  | .instability => "instability"

def WeightName.olderKey : WeightName → String
  | .urgency => "urgency_weight"
  | .risk => "risk_weight"
  | .userValue => "user_value_weight"
  | .instability => "instability_weight"

def PriorityWeights.get (self : PriorityWeights) : WeightName → PyFloat
  | .urgency => self.urgency
  | .risk => self.risk
  | .userValue => self.userValue
  | .instability => self.instability

/-- The settings of a configuration that the parser reads under one of two
spellings, and the limit on session events, which has a single one. -/
inductive Setting where
  | retentionMode
  | retainSensitiveData
  | retainProvenance
  | maxSessionEvents
  | weight (name : WeightName)

/-- What a setting is read as. -/
inductive SettingValue where
  | text (s : String)
  | flag (b : Bool)
  | count (n : ℕ)
  | weight (x : PyFloat)

namespace Setting

/-- Where the present spelling of a setting is found. -/
def present : Setting → List String
  | .retentionMode => ["memory_policy", "retention_mode"]
  | .retainSensitiveData => ["memory_policy", "retain_sensitive_data"]
  | .retainProvenance => ["memory_policy", "retain_provenance"]
  | .maxSessionEvents => ["memory_policy", "max_session_events"]
  | .weight name => ["priority_policy", "weights", name.key]

/-- Where the older spelling of a setting is found. -/
def older : Setting → List String
  | .retentionMode => ["memory_policy", "default_retention"]
  | .retainSensitiveData => ["memory_policy", "store_sensitive_data"]
  | .retainProvenance => ["memory_policy", "require_provenance"]
  | .maxSessionEvents => ["memory_policy", "max_session_events"]
  | .weight name => ["priority_policy", name.olderKey]

def reads : Setting → Json → Option SettingValue
  | .retentionMode, .str s => some (.text s)
  | .retainSensitiveData, .bool b => some (.flag b)
  | .retainProvenance, .bool b => some (.flag b)
  | .maxSessionEvents, limit => (count? limit).map .count
  | .weight _, value => (numeric? value).map .weight
  | _, _ => none

/-- The value of a setting in a parsed configuration. -/
def value (config : AgentConfig) : Setting → SettingValue
  | .retentionMode => .text config.memoryPolicy.retentionMode
  | .retainSensitiveData => .flag config.memoryPolicy.retainSensitiveData
  | .retainProvenance => .flag config.memoryPolicy.retainProvenance
  | .maxSessionEvents => .count config.memoryPolicy.maxSessionEvents
  | .weight name => .weight (config.priorityPolicy.weights.get name)

/-- What some configuration data give for a setting, under its present
spelling or else under the older one. -/
def given (setting : Setting) (data : JsonObject) : Option Json :=
  (atPath (.dict data) setting.present).or (atPath (.dict data) setting.older)

/-- What a child configuration inherits for a setting under the present
spelling: what its parent gives, unless the child puts something else in the
way. -/
def inherited (setting : Setting) (parent child : JsonObject) : Option Json :=
  if blocksPath (.dict child) setting.present then none else atPath (.dict parent) setting.present

end Setting

theorem given_memory {data policy : JsonObject} {name olderName : String}
    (found : data.get? "memory_policy" = some (.dict policy)) :
    (atPath (.dict data) ["memory_policy", name]).or (atPath (.dict data) ["memory_policy", olderName]) =
      eitherEntry policy name olderName := by
  have below (key : String) : atPath (.dict data) ["memory_policy", key] = policy.get? key := by
    rw [atPath_dict, found, Option.bind_some, atPath_pair]
  rw [below, below, eitherEntry]

theorem weightsData_cases {policy weights : JsonObject} (read : weightsData policy = .dict weights) :
    policy.get? "weights" = some (.dict weights) ∨
      (policy.get? "weights").getD .null = .null ∧
        ∀ (name : WeightName) (value : Json), policy.get? name.olderKey = some value → weights.get? name.key = some value := by
  unfold weightsData at read
  split at read
  · rename_i null
    refine Or.inr ⟨null, fun name value given => ?_⟩
    cases read
    cases name <;> simp_all [WeightName.key, WeightName.olderKey, JsonObject.get?, Assoc.get?]
  · rename_i notNull
    cases own : policy.get? "weights" with
    | none => exact absurd (by rw [own, Option.getD_none]) notNull
    | some json =>
      rw [own, Option.getD_some] at read
      exact Or.inl (congrArg some read)

/-- The weights object has, under the name of a weight, what the policy gives
for it under either spelling. -/
theorem given_weight {data policy weights : JsonObject} {name : WeightName}
    (found : data.get? "priority_policy" = some (.dict policy)) (read : weightsData policy = .dict weights)
    {value present : Json} (given : (Setting.weight name).given data = some value)
    (held : weights.get? name.key = some present) : present = value := by
  have below : (Setting.weight name).given data =
      ((policy.get? "weights").bind fun inner => atPath inner [name.key]).or (policy.get? name.olderKey) := by
    rw [Setting.given, Setting.present, Setting.older, atPath_dict, atPath_dict, found, Option.bind_some,
      Option.bind_some, atPath_dict, atPath_pair]
  rw [below] at given
  rcases weightsData_cases read with own | ⟨null, legacy⟩
  · rw [own, Option.bind_some, atPath_pair, held, Option.some_or] at given
    exact Option.some.inj given
  · have nothing : ((policy.get? "weights").bind fun inner => atPath inner [name.key]) = none := by
      cases own : policy.get? "weights" with
      | none => rfl
      | some json =>
        rw [own, Option.getD_some] at null
        rw [null, Option.bind_some]
        rfl
    rw [nothing, Option.none_or] at given
    exact Option.some.inj (held.symm.trans (legacy name value given))

/-- A parsed configuration has the settings that its data give. -/
theorem Setting.value_of_given {render : Json → String} {data : JsonObject} {source : Option PurePath}
    {config : AgentConfig} (ok : parseAgentConfig render data source = .ok config) (setting : Setting) {value : Json}
    (given : setting.given data = some value) : setting.reads value = some (setting.value config) := by
  obtain ⟨readMemory, readPriority⟩ := parseAgentConfig_ok ok
  obtain ⟨policy, isPolicy, mode, sensitive, provenance, limit⟩ := parseMemoryPolicy_ok readMemory
  obtain ⟨priority, weights, isPriority, found, urgency, risk, userValue, instability, _⟩ := parsePriorityPolicy_ok readPriority
  have memory := get?_of_getD_dict isPolicy
  cases setting with
  | retentionMode =>
    have same := (given_memory memory).symm.trans given
    rw [mode, Option.some.injEq] at same
    rw [← same]
    rfl
  | retainSensitiveData =>
    have same := (given_memory memory).symm.trans given
    rw [sensitive, Option.some.injEq] at same
    rw [← same]
    rfl
  | retainProvenance =>
    have same := (given_memory memory).symm.trans given
    rw [provenance, Option.some.injEq] at same
    rw [← same]
    rfl
  | maxSessionEvents =>
    have same := (given_memory memory).symm.trans given
    rw [eitherEntry, Option.or_self] at same
    rw [same, Option.getD_some] at limit
    rw [Setting.reads, limit]
    rfl
  | weight name =>
    have priorityGiven : data.get? "priority_policy" = some (.dict priority) := by
      cases own : data.get? "priority_policy" with
      | none => simp [Setting.given, Setting.present, Setting.older, atPath_dict, own] at given
      | some json =>
        rw [own, Option.getD_some] at isPriority
        rw [isPriority]
    have held : ∃ present, weights.get? name.key = some present ∧
        numeric? present = some (config.priorityPolicy.weights.get name) := by
      cases name with
      | urgency => exact requireProbability_ok urgency
      | risk => exact requireProbability_ok risk
      | userValue => exact requireProbability_ok userValue
      | instability => exact requireProbability_ok instability
    obtain ⟨present, atName, number⟩ := held
    have same := given_weight priorityGiven found given atName
    rw [Setting.reads, ← same, number]
    rfl

/-- No setting is an object, so what a merge leaves of one is the value of
the override. -/
theorem Setting.reads_mergeValue {setting : Setting} {base : Option Json} {override : Json} {read : SettingValue}
    (ok : setting.reads (mergeValue base override) = some read) : setting.reads override = some read := by
  cases override with
  | dict overlay =>
    have merged : ∃ entries, mergeValue base (.dict overlay) = .dict entries := by
      rcases base with _ | base
      · exact ⟨overlay, by simp [mergeValue]⟩
      · cases base <;> simp [mergeValue]
    obtain ⟨entries, merged⟩ := merged
    rw [merged] at ok
    cases setting <;> cases ok
  | _ => simpa only [mergeValue] using ok

/-- A merged configuration keeps every setting that the child gives, exactly
where no setting that the child gives under the older spelling only is
inherited with another value under the present one. -/
theorem parse_keeps_child_iff (render : Json → String) (source : Option PurePath) {parent child : JsonObject}
    {config : AgentConfig} (wellFormed : Value.WellFormed (.dict child : Json))
    (ok : parseAgentConfig render (deepMerge parent child) source = .ok config) :
    (∀ (setting : Setting) (value : Json), setting.given child = some value →
      setting.reads value = some (setting.value config)) ↔
    ∀ (setting : Setting) (value other : Json), atPath (.dict child) setting.present = none →
      atPath (.dict child) setting.older = some value → setting.inherited parent child = some other →
        setting.reads other = setting.reads value := by
  have merged : (.dict (deepMerge parent child) : Json) = mergeValue (some (.dict parent)) (.dict child) :=
    (mergeValue_dict parent child).symm
  have readMerged (setting : Setting) {value : Json} (given : setting.given (deepMerge parent child) = some value) :=
    setting.value_of_given ok given
  have presentMerged (setting : Setting) (absent : atPath (.dict child) setting.present = none) :
      atPath (.dict (deepMerge parent child)) setting.present = setting.inherited parent child := by
    rw [merged, atPath_mergeValue _ wellFormed, absent, Setting.inherited, Option.bind_some]
  have inheritedWins (setting : Setting) {other : Json} (absent : atPath (.dict child) setting.present = none)
      (inherited : setting.inherited parent child = some other) :
      setting.reads other = some (setting.value config) := by
    apply readMerged
    rw [Setting.given, presentMerged setting absent, inherited, Option.some_or]
  constructor
  · intro kept setting value other absent given inherited
    have own : setting.given child = some value := by
      rw [Setting.given, absent, Option.none_or, given]
    rw [inheritedWins setting absent inherited, kept setting value own]
  · intro agree setting value given
    cases own : atPath (.dict child) setting.present with
    | some present =>
      rw [Setting.given, own, Option.some_or] at given
      rw [← Option.some.inj given]
      apply Setting.reads_mergeValue
      apply readMerged
      rw [Setting.given, merged, atPath_mergeValue _ wellFormed, own, Option.some_or]
    | none =>
      rw [Setting.given, own, Option.none_or] at given
      cases inherited : setting.inherited parent child with
      | some other => rw [← agree setting value other own given inherited, inheritedWins setting own inherited]
      | none =>
        apply Setting.reads_mergeValue
        apply readMerged
        rw [Setting.given, presentMerged setting own, inherited, Option.none_or, merged,
          atPath_mergeValue _ wellFormed, given]

/-- A complete configuration, with the given memory policy. -/
def baseConfig (memoryPolicy : JsonObject) : JsonObject :=
  [(.str "agent_id", .str "agent"), (.str "config_version", .str "1.0"), (.str "display_name", .str "Agent"),
    (.str "role", .str "assistant"), (.str "description", .str "base"), (.str "goals", .list [.str "serve"]),
    (.str "invariants", .list [.str "ask first"]), (.str "memory_policy", .dict memoryPolicy)]

/-- A child that turns sensitive data off, under the older spelling. -/
def discreetChild : JsonObject := [(.str "memory_policy", .dict [(.str "store_sensitive_data", .bool false)])]

def keepingParent (spelling : String) : JsonObject :=
  baseConfig [(.str "retention_mode", .str "session_history"), (.str spelling, .bool true),
    (.str "retain_provenance", .bool true)]

theorem discreetChild_wellFormed : Value.WellFormed (.dict discreetChild : Json) := by
  refine .dict (by decide) fun entry member => ?_
  rw [List.mem_singleton.mp member]
  refine .dict (by decide) fun inner within => ?_
  rw [List.mem_singleton.mp within]
  exact .bool false

/-- Where parent and child use the same spelling, the child turns the retention
of sensitive data off. -/
theorem parse_keeps_child_same_spelling :
    ∃ config, parseAgentConfig (fun _ => "") (deepMerge (keepingParent "store_sensitive_data") discreetChild) none =
        .ok config ∧
      ∀ (setting : Setting) (value : Json), setting.given discreetChild = some value →
        setting.reads value = some (setting.value config) := by
  have accepted : (parseAgentConfig (fun _ => "")
      (deepMerge (keepingParent "store_sensitive_data") discreetChild) none).isOk = true := by
    decide +kernel
  cases parsed : parseAgentConfig (fun _ => "") (deepMerge (keepingParent "store_sensitive_data") discreetChild) none with
  | error e => simp [parsed, Except.isOk, Except.toBool] at accepted
  | ok config =>
    refine ⟨config, rfl, (parse_keeps_child_iff _ none discreetChild_wellFormed parsed).mpr ?_⟩
    intro setting value other _ given inherited
    cases setting with
    | retainSensitiveData => simp [Setting.inherited, Setting.present, blocksPath, atPath, JsonObject.get?,
        keepingParent, baseConfig, discreetChild, Assoc.get?] at inherited
    | _ => simp [Setting.older, atPath, discreetChild, JsonObject.get?, Assoc.get?] at given

/-- The child says under the older spelling that no sensitive data are kept;
the parent's consent under the present one stays in force. -/
theorem inherited_consent_stays : ¬
    ∀ config, parseAgentConfig (fun _ => "") (deepMerge (keepingParent "retain_sensitive_data") discreetChild) none =
        .ok config →
      ∀ (setting : Setting) (value : Json), setting.given discreetChild = some value →
        setting.reads value = some (setting.value config) := by
  intro kept
  have consent : (parseAgentConfig (fun _ => "")
      (deepMerge (keepingParent "retain_sensitive_data") discreetChild) none).toOption.map
        (fun config => config.memoryPolicy.retainSensitiveData) = some true := by
    decide +kernel
  cases parsed : parseAgentConfig (fun _ => "") (deepMerge (keepingParent "retain_sensitive_data") discreetChild) none with
  | error e => simp [parsed, Except.toOption] at consent
  | ok config =>
    have given : Setting.retainSensitiveData.given discreetChild = some (.bool false) := by
      simp [Setting.given, Setting.present, Setting.older, atPath, discreetChild, JsonObject.get?, Assoc.get?]
    have flags := kept config parsed .retainSensitiveData (.bool false) given
    simp only [Setting.reads, Setting.value, Option.some.injEq, SettingValue.flag.injEq] at flags
    simp [parsed, Except.toOption, ← flags] at consent

end Centroid
