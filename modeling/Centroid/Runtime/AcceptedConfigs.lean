import Centroid.Config.ChildSettings
import Centroid.Runtime.ConfiguredPriority
import Centroid.Runtime.ConfiguredSafety
import Centroid.Runtime.MemoryRedaction

namespace Centroid

open Raises

/-- A call on the runtime that is built from a configuration. The identifier
and the time of a summary event are generated in the call. -/
inductive RuntimeCall where
  | retain (generated : String × String) (events : List Event)
  | route (signal : PrioritySignal) (mutatesState : Bool)
  | evaluate (request : ActionRequest)

inductive RuntimeAnswer where
  | retained (result : MemoryRetentionResult)
  | routed (result : ConfiguredPriorityResult)
  | decided (decision : SafetyDecision)

/-- What a call on the runtime raises. -/
inductive RuntimeFault where
  | retention (error : RetentionError)
  | zeroDivision

/-- A call on the runtime of a configuration. -/
def AgentConfig.call (config : AgentConfig) (configHash : String) : RuntimeCall → Except RuntimeFault RuntimeAnswer
  | .retain generated events =>
    match (ConfiguredMemoryManager.mk config.memoryPolicy).retain generated events with
    | .ok result => .ok (.retained result)
    | .error error => .error (.retention error)
  | .route signal mutatesState =>
    match (ConfiguredPriorityScorer.mk config.priorityPolicy).route signal mutatesState with
    | some result => .ok (.routed result)
    | none => .error .zeroDivision
  | .evaluate request =>
    .ok (.decided ((ConfiguredSafetyPolicy.mk config.safetyPolicy configHash).evaluate matchesSecret request))

/-- What an accepted configuration has to be: sane weights and thresholds, and
a runtime that always answers. -/
structure AgentConfig.Sound (config : AgentConfig) (configHash : String) : Prop where
  weights : ∀ name, (config.priorityPolicy.weights.get name).InUnit
  positive : (PyFloat.finite 0).lt (ConfiguredPriorityScorer.mk config.priorityPolicy).total = true
  reflexThreshold : config.priorityPolicy.reflexThreshold.InUnit
  deliberationThreshold : config.priorityPolicy.deliberationThreshold.InUnit
  total : ∀ call, ∃ answer, config.call configHash call = .ok answer

/-- No number under a name is `nan`. -/
def NotNan (data : JsonObject) (fieldName : String) : Prop := data.get? fieldName ≠ some (.num (.float .nan))

/-- The data of a configuration name a mode of retention that there is, and
have a number for every weight and threshold they give. -/
structure RuntimeReady (data : JsonObject) : Prop where
  retentionMode : ∀ policy : JsonObject, data.get? "memory_policy" = some (.dict policy) →
    ∃ mode ∈ ConfiguredMemoryManager.supportedModes,
      eitherEntry policy "retention_mode" "default_retention" = some (.str mode)
  weights : ∀ policy weights : JsonObject, (data.get? "priority_policy").getD (.dict []) = .dict policy →
    weightsData policy = .dict weights → ∀ name : WeightName, NotNan weights name.key
  thresholds : ∀ policy : JsonObject, (data.get? "priority_policy").getD (.dict []) = .dict policy →
    NotNan policy "reflex_threshold" ∧ NotNan policy "deliberation_threshold"

/-- Of the numbers of JSON only one is read as `nan`. -/
theorem toFloat?_eq_nan_iff {n : JsonNumber} {x : PyFloat} (converted : n.toFloat? = some x) :
    x = .nan ↔ n = .float .nan := by
  cases n with
  | int n =>
    have finite : x = .finite n := by
      rw [JsonNumber.toFloat?] at converted
      obtain ⟨_, same⟩ := Option.ite_none_right_eq_some.mp converted
      exact (Option.some.inj same).symm
    rw [finite]
    simp
  | float y =>
    cases converted
    simp

/-- A probability is accepted outside the unit interval only as `nan`. -/
theorem requireProbability_inUnit_iff {data : JsonObject} {fieldName context : String} {default : Option PyFloat}
    {weight : PyFloat} (sane : ∀ value, default = some value → value.InUnit)
    (ok : requireProbability data fieldName default context = .ok weight) :
    weight.InUnit ↔ NotNan data fieldName := by
  unfold NotNan
  rcases requireProbability_cases ok with ⟨absent, given⟩ | ⟨value, found, numeric, lower, upper⟩
  · rw [absent]
    exact ⟨fun _ => by simp, fun _ => sane weight given⟩
  · have same : weight = .nan ↔ value = .num (.float .nan) := by
      cases value with
      | bool b =>
        cases numeric
        simp
      | num n => simpa using toFloat?_eq_nan_iff numeric
      | _ => cases numeric
    rw [found, ne_eq, Option.some.injEq, ← same]
    exact ⟨fun unit => unit.ne_nan, fun number => PyFloat.inUnit_of_not_lt lower upper number⟩

namespace ConfiguredMemoryManager

/-- Events are retained under the supported modes and under no other. -/
theorem exists_retain_iff (self : ConfiguredMemoryManager) (generated : String × String) (events : List Event) :
    (∃ result, self.retain generated events = .ok result) ↔ self.policy.retentionMode ∈ supportedModes := by
  constructor
  · intro retained
    obtain ⟨result, ok⟩ := retained
    obtain ⟨kept, filtered, _⟩ := bind_eq_ok ok
    by_contra unsupported
    simp only [supportedModes, List.mem_cons, List.not_mem_nil, or_false, not_or] at unsupported
    obtain ⟨history, checkpoints, audit, summary⟩ := unsupported
    rw [filter, if_neg history, if_neg checkpoints, if_neg audit, if_neg summary] at filtered
    cases filtered
  · intro supported
    have same : List.Forall₂ Event.SameButSensitive events events :=
      List.forall₂_same.mpr fun event _ => Event.SameButSensitive.refl event
    obtain ⟨kept, _, filtered, _⟩ := @filter_same self generated supported events events same
    exact ⟨_, retain_of_filter generated filtered⟩

end ConfiguredMemoryManager

/-- The runtime of a configuration always answers exactly when its mode of
retention is supported. -/
theorem AgentConfig.total_iff (config : AgentConfig) (configHash : String) :
    (∀ call, ∃ answer, config.call configHash call = .ok answer) ↔
      config.memoryPolicy.retentionMode ∈ ConfiguredMemoryManager.supportedModes := by
  constructor
  · intro total
    obtain ⟨answer, answered⟩ := total (.retain ("", "") [])
    refine ((ConfiguredMemoryManager.mk config.memoryPolicy).exists_retain_iff ("", "") []).mp ?_
    cases retained : (ConfiguredMemoryManager.mk config.memoryPolicy).retain ("", "") [] with
    | ok result => exact ⟨result, rfl⟩
    | error error =>
      simp only [AgentConfig.call, retained] at answered
      cases answered
  · intro supported call
    cases call with
    | retain generated events =>
      obtain ⟨result, retained⟩ :=
        ((ConfiguredMemoryManager.mk config.memoryPolicy).exists_retain_iff generated events).mpr supported
      exact ⟨.retained result, by simp only [AgentConfig.call, retained]⟩
    | route signal mutatesState =>
      obtain ⟨result, routed, _⟩ :=
        (ConfiguredPriorityScorer.mk config.priorityPolicy).exists_route signal mutatesState
      exact ⟨.routed result, by simp only [AgentConfig.call, routed]⟩
    | evaluate request => exact ⟨_, rfl⟩

/-- A sum of numbers that is not at most zero is above zero. -/
theorem positive_of_inUnit {w x y z : PyFloat} (unitW : w.InUnit) (unitX : x.InUnit) (unitY : y.InUnit) (unitZ : z.InUnit)
    (above : (((w.add x).add y).add z).le (.finite 0) = false) :
    (PyFloat.finite 0).lt (((w.add x).add y).add z) = true := by
  obtain ⟨_, rfl, _⟩ := unitW
  obtain ⟨_, rfl, _⟩ := unitX
  obtain ⟨_, rfl, _⟩ := unitY
  obtain ⟨_, rfl, _⟩ := unitZ
  exact decide_eq_true (not_le.mp (of_decide_eq_false above))

/-- An accepted configuration is sound exactly when its data are ready for the
runtime: the parser restricts neither the mode of retention nor `nan`. -/
theorem parseAgentConfig_sound_iff {render : Json → String} {data : JsonObject} {source : Option PurePath}
    {config : AgentConfig} (ok : parseAgentConfig render data source = .ok config) (configHash : String) :
    config.Sound configHash ↔ RuntimeReady data := by
  obtain ⟨readMemory, readPriority⟩ := parseAgentConfig_ok ok
  obtain ⟨policy, isPolicy, mode, _⟩ := parseMemoryPolicy_ok readMemory
  obtain ⟨priority, weights, isPriority, found, urgency, risk, userValue, instability, above, reflex, deliberation⟩ :=
    parsePriorityPolicy_ok readPriority
  have memory := get?_of_getD_dict isPolicy
  have noDefault : ∀ value, (none : Option PyFloat) = some value → value.InUnit := by
    intro value impossible
    cases impossible
  have eachWeight : ∀ name : WeightName, (config.priorityPolicy.weights.get name).InUnit ↔ NotNan weights name.key := by
    intro name
    cases name with
    | urgency => exact requireProbability_inUnit_iff noDefault urgency
    | risk => exact requireProbability_inUnit_iff noDefault risk
    | userValue => exact requireProbability_inUnit_iff noDefault userValue
    | instability => exact requireProbability_inUnit_iff noDefault instability
  have reflexUnit : config.priorityPolicy.reflexThreshold.InUnit ↔ NotNan priority "reflex_threshold" := by
    refine requireProbability_inUnit_iff ?_ reflex
    intro value given
    exact ⟨75 / 100, (Option.some.inj given).symm, by norm_num, by norm_num⟩
  have deliberationUnit : config.priorityPolicy.deliberationThreshold.InUnit ↔ NotNan priority "deliberation_threshold" := by
    refine requireProbability_inUnit_iff ?_ deliberation
    intro value given
    exact ⟨35 / 100, (Option.some.inj given).symm, by norm_num, by norm_num⟩
  constructor
  · intro sound
    refine ⟨?_, ?_, ?_⟩
    · intro other isOther
      rw [memory, Option.some.injEq, Value.dict.injEq] at isOther
      rw [← isOther]
      exact ⟨_, (config.total_iff configHash).mp sound.total, mode⟩
    · intro other others isOther read name
      rw [isPriority, Value.dict.injEq] at isOther
      rw [← isOther, found, Value.dict.injEq] at read
      rw [← read]
      exact (eachWeight name).mp (sound.weights name)
    · intro other isOther
      rw [isPriority, Value.dict.injEq] at isOther
      rw [← isOther]
      exact ⟨reflexUnit.mp sound.reflexThreshold, deliberationUnit.mp sound.deliberationThreshold⟩
  · intro ready
    have units := fun name => (eachWeight name).mpr (ready.weights priority weights isPriority found name)
    obtain ⟨reflexNumber, deliberationNumber⟩ := ready.thresholds priority isPriority
    obtain ⟨supportedMode, supported, given⟩ := ready.retentionMode policy memory
    have isMode : config.memoryPolicy.retentionMode = supportedMode :=
      Value.str.inj (Option.some.inj (mode.symm.trans given))
    refine ⟨units, ?_, reflexUnit.mpr reflexNumber, deliberationUnit.mpr deliberationNumber, ?_⟩
    · exact positive_of_inUnit (units .urgency) (units .risk) (units .userValue) (units .instability) above
    · exact (config.total_iff configHash).mpr (isMode ▸ supported)

/-- A complete configuration with a mode of retention. -/
def modeConfig (mode : String) : JsonObject :=
  baseConfig [(.str "retention_mode", .str mode), (.str "retain_sensitive_data", .bool false),
    (.str "retain_provenance", .bool true)]

theorem modeConfig_ready : RuntimeReady (modeConfig "summary_only") := by
  have noPriority : (modeConfig "summary_only").get? "priority_policy" = none := by
    simp [modeConfig, baseConfig, JsonObject.get?, Assoc.get?]
  have memory : (modeConfig "summary_only").get? "memory_policy" = some (.dict
      [(.str "retention_mode", .str "summary_only"), (.str "retain_sensitive_data", .bool false),
        (.str "retain_provenance", .bool true)]) := by
    simp [modeConfig, baseConfig, JsonObject.get?, Assoc.get?]
  refine ⟨?_, ?_, ?_⟩
  · intro policy isPolicy
    rw [memory, Option.some.injEq, Value.dict.injEq] at isPolicy
    rw [← isPolicy]
    exact ⟨"summary_only", by decide, by simp [eitherEntry, JsonObject.get?, Assoc.get?]⟩
  · intro policy weights isPolicy read name
    rw [noPriority, Option.getD_none, Value.dict.injEq] at isPolicy
    rw [← isPolicy] at read
    cases read
    cases name <;> simp [NotNan, WeightName.key, JsonObject.get?, Assoc.get?]
  · intro policy isPolicy
    rw [noPriority, Option.getD_none, Value.dict.injEq] at isPolicy
    rw [← isPolicy]
    simp [NotNan, JsonObject.get?, Assoc.get?]

theorem parse_modeConfig_sound :
    ∃ config, parseAgentConfig (fun _ => "") (modeConfig "summary_only") none = .ok config ∧ config.Sound "digest" := by
  have accepted : (parseAgentConfig (fun _ => "") (modeConfig "summary_only") none).isOk = true := by decide +kernel
  cases parsed : parseAgentConfig (fun _ => "") (modeConfig "summary_only") none with
  | error e => simp [parsed, Except.isOk, Except.toBool] at accepted
  | ok config => exact ⟨config, rfl, (parseAgentConfig_sound_iff parsed "digest").mpr modeConfig_ready⟩

/-- A mode that is not supported is accepted, and no event can be retained. -/
theorem unsupported_mode_accepted :
    ¬ ∀ config, parseAgentConfig (fun _ => "") (modeConfig "everything") none = .ok config → config.Sound "digest" := by
  intro sound
  have mode : (parseAgentConfig (fun _ => "") (modeConfig "everything") none).toOption.map
      (fun config => config.memoryPolicy.retentionMode) = some "everything" := by
    decide +kernel
  cases parsed : parseAgentConfig (fun _ => "") (modeConfig "everything") none with
  | error e => simp [parsed, Except.toOption] at mode
  | ok config =>
    have supported := (config.total_iff "digest").mp (sound config parsed).total
    simp only [parsed, Except.toOption, Option.map_some, Option.some.injEq] at mode
    rw [mode] at supported
    exact absurd supported (by decide)

end Centroid
