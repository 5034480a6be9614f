import Centroid.Config.ConfigDocuments
import Centroid.Runtime.AcceptedConfigs

namespace Centroid

/-- The decisions of the runtime do not depend on where a configuration was read. -/
theorem AgentConfig.call_congr {a b : AgentConfig} (same : { a with sourcePath := none } = { b with sourcePath := none })
    (configHash : String) (call : RuntimeCall) : a.call configHash call = b.call configHash call := by
  have ofNone : ∀ config : AgentConfig,
      config.call configHash call = { config with sourcePath := none }.call configHash call := by
    intro config
    cases call <;> rfl
  rw [ofNone a, ofNone b, same]

/-- A configuration is known from its document: it is read back from it, and
configurations with one document decide alike, also where the hash of the
document goes into a decision. -/
theorem toDict_determines {render : Json → String} {data : JsonObject} {source : Option PurePath} {config : AgentConfig}
    (accepted : parseAgentConfig render data source = .ok config) :
    parseAgentConfig render config.toDict none = .ok { config with sourcePath := none } ∧
    ∀ data' source' config', parseAgentConfig render data' source' = .ok config' → config.toDict = config'.toDict →
      { config with sourcePath := none } = { config' with sourcePath := none } ∧
      ∀ (digest : JsonObject → String) (call : RuntimeCall),
        config.call (digest config.toDict) call = config'.call (digest config'.toDict) call := by
  have back := parseAgentConfig_toDict accepted none
  refine ⟨back, fun data' source' config' accepted' equal => ?_⟩
  have back' := parseAgentConfig_toDict accepted' none
  rw [← equal, back, Except.ok.injEq] at back'
  refine ⟨back', fun digest call => ?_⟩
  rw [equal]
  exact AgentConfig.call_congr back' _ call

/-- A configuration in the older spelling, with one of the older weights. -/
def aliasConfig : JsonObject :=
  baseConfig [(.str "default_retention", .str "summary_only"), (.str "store_sensitive_data", .bool false),
    (.str "require_provenance", .bool true)] ++
  [(.str "priority_policy", .dict [(.str "urgency_weight", .num (.float (.finite (1 / 2))))])]

/-- The same in the newer spelling. -/
def weightsConfig : JsonObject :=
  modeConfig "summary_only" ++
  [(.str "priority_policy", .dict [(.str "weights", .dict [(.str "urgency", .num (.float (.finite (1 / 2)))),
    (.str "risk", .num (.float (.finite (25 / 100)))), (.str "user_value", .num (.float (.finite (25 / 100)))),
    (.str "instability", .num (.float (.finite (15 / 100))))])])]

theorem toDict_determines_aliases :
    ∃ config config', parseAgentConfig (fun _ => "") aliasConfig none = .ok config ∧
      parseAgentConfig (fun _ => "") weightsConfig none = .ok config' ∧
      parseAgentConfig (fun _ => "") config.toDict none = .ok { config with sourcePath := none } ∧
      { config with sourcePath := none } = { config' with sourcePath := none } ∧
      ∀ (digest : JsonObject → String) (call : RuntimeCall),
        config.call (digest config.toDict) call = config'.call (digest config'.toDict) call := by
  have isOk : (parseAgentConfig (fun _ => "") aliasConfig none).isOk = true := by decide +kernel
  have documents : (parseAgentConfig (fun _ => "") aliasConfig none).map AgentConfig.toDict =
      (parseAgentConfig (fun _ => "") weightsConfig none).map AgentConfig.toDict := by rfl
  cases parsed : parseAgentConfig (fun _ => "") aliasConfig none with
  | error e => simp [parsed, Except.isOk, Except.toBool] at isOk
  | ok config =>
    cases parsed' : parseAgentConfig (fun _ => "") weightsConfig none with
    | error e =>
      rw [parsed, parsed'] at documents
      cases documents
    | ok config' =>
      rw [parsed, parsed'] at documents
      have determined := toDict_determines parsed
      obtain ⟨same, decisions⟩ := determined.2 weightsConfig none config' parsed' (Except.ok.inj documents)
      exact ⟨config, config', rfl, rfl, determined.1, same, decisions⟩

end Centroid
