import Centroid.Providers.RawValues

namespace Centroid

structure ModelCapabilities where
  textGeneration : Bool := true
  streaming : Bool := false
  structuredOutputs : Bool := false
  toolProposals : Bool := false
  vision : Bool := false
  responsesApi : Bool := false
  chatCompletions : Bool := false
  providerManagedConversationState : Bool := false
  remoteMcp : Bool := false
  metadata : JsonObject := []

/-- A provider as its document describes it. The names of variables and the
address are taken over whatever they are. -/
structure ProviderConfig where
  providerId : String
  adapterType : String
  model : String
  protocol : String
  capabilities : ModelCapabilities
  apiKeyEnv : Json := .null
  baseUrlEnv : Json := .null
  modelEnv : Json := .null
  defaultBaseUrl : Json := .null
  liveEnabled : Bool := false
  metadata : JsonObject := []

/-- Why a document is no provider. -/
inductive ProviderConfigError where
  | missingField (field : String)
  | capabilitiesNotObject
  | raised (error : NormalizeError)
  deriving DecidableEq

def ModelCapabilities.toDict (self : ModelCapabilities) : JsonObject :=
  [(.str "text_generation", .bool self.textGeneration), (.str "streaming", .bool self.streaming),
    (.str "structured_outputs", .bool self.structuredOutputs), (.str "tool_proposals", .bool self.toolProposals),
    (.str "vision", .bool self.vision), (.str "responses_api", .bool self.responsesApi),
    (.str "chat_completions", .bool self.chatCompletions),
    (.str "provider_managed_conversation_state", .bool self.providerManagedConversationState),
    (.str "remote_mcp", .bool self.remoteMcp), (.str "metadata", .dict self.metadata)]

namespace ProviderConfig

def publicDict (self : ProviderConfig) : JsonObject :=
  [(.str "provider_id", .str self.providerId), (.str "adapter_type", .str self.adapterType),
    (.str "model", .str self.model),
    (.str "protocol", .str self.protocol), (.str "api_key_env", self.apiKeyEnv), (.str "base_url_env", self.baseUrlEnv),
    (.str "model_env", self.modelEnv), (.str "default_base_url", self.defaultBaseUrl),
    (.str "live_enabled", .bool self.liveEnabled), (.str "capabilities", .dict self.capabilities.toDict),
    (.str "metadata", .dict self.metadata)]

/-- The required fields, in the order of their checks. -/
def requiredFields : List String := ["provider_id", "adapter_type"]

/-- A required field, which is a string. -/
def requireString (data : JsonObject) (field : String) : Except ProviderConfigError String :=
  match data.get? field with
  | some (.str text) => .ok text
  | _ => .error (.missingField field)

/-- `dict(data.get("metadata", {}))`. -/
def metadataOf (data : JsonObject) : Except ProviderConfigError JsonObject :=
  match (data.getD "metadata" (.dict [])).toDict with
  | .ok entries => .ok entries
  | .error e => .error (.raised e)

/-- The name of the model: the one given, or the variable that has it. -/
def modelOf (render : Json → String) (data : JsonObject) : String :=
  let model := data.getD "model" (.str "")
  let modelEnv := data.getD "model_env" .null
  let model := if !model.pyBool && modelEnv.pyBool then .str ("$\x7b" ++ modelEnv.pyStr render ++ "\x7d") else model
  if model.pyBool then model.pyStr render else "unspecified-model"

def capabilitiesOf (data : JsonObject) : Except ProviderConfigError ModelCapabilities := do
  let flag (name : String) (default : Bool) : Bool := (data.getD name (.bool default)).pyBool
  let metadata ← metadataOf data
  return {
    textGeneration := flag "text_generation" true
    streaming := flag "streaming" false
    structuredOutputs := flag "structured_outputs" false
    toolProposals := flag "tool_proposals" false
    vision := flag "vision" false
    responsesApi := flag "responses_api" false
    chatCompletions := flag "chat_completions" false
    providerManagedConversationState := flag "provider_managed_conversation_state" false
    remoteMcp := flag "remote_mcp" false
    metadata }

def readCapabilities : Json → Except ProviderConfigError ModelCapabilities
  | .dict entries => capabilitiesOf entries
  | _ => .error .capabilitiesNotObject

/-- `load_provider_config`, of a document. -/
def loadProviderConfig (render : Json → String) (data : JsonObject) : Except ProviderConfigError ProviderConfig := do
  let providerId ← requireString data "provider_id"
  let adapterType ← requireString data "adapter_type"
  let capabilities ← readCapabilities (data.getD "capabilities" (.dict []))
  let metadata ← metadataOf data
  return {
    providerId
    adapterType
    model := modelOf render data
    protocol := (data.getD "protocol" (.str "mock")).pyStr render
    capabilities
    apiKeyEnv := data.getD "api_key_env" .null
    baseUrlEnv := data.getD "base_url_env" .null
    modelEnv := data.getD "model_env" .null
    defaultBaseUrl := data.getD "default_base_url" .null
    liveEnabled := (data.getD "live_enabled" (.bool false)).pyBool
    metadata }

theorem metadataOf_dict {data entries : JsonObject} (given : data.get? "metadata" = some (.dict entries)) :
    metadataOf data = .ok entries := by
  rw [metadataOf, JsonObject.getD, given]
  rfl

theorem capabilitiesOf_toDict (capabilities : ModelCapabilities) :
    capabilitiesOf capabilities.toDict = .ok capabilities := by
  have metadata : metadataOf capabilities.toDict = .ok capabilities.metadata := metadataOf_dict rfl
  rw [capabilitiesOf, metadata]
  rfl

/-- A provider with a model is what its public description describes. -/
theorem loadProviderConfig_publicDict (render : Json → String) {config : ProviderConfig} (named : config.model ≠ "") :
    loadProviderConfig render config.publicDict = .ok config := by
  have metadata : metadataOf config.publicDict = .ok config.metadata := metadataOf_dict rfl
  have capabilities : config.publicDict.getD "capabilities" (.dict []) = .dict config.capabilities.toDict := rfl
  have model : modelOf render config.publicDict = config.model := by
    have given : config.publicDict.getD "model" (.str "") = .str config.model := rfl
    have isNamed : Value.pyBool (.str config.model) = true := decide_eq_true named
    rw [modelOf, given]
    simp only [isNamed, Bool.not_true, Bool.false_and, Bool.false_eq_true, if_false, if_true]
    rfl
  rw [loadProviderConfig, metadata, capabilities, model, readCapabilities, capabilitiesOf_toDict]
  rfl

/-- A document that describes a provider: two strings, capabilities that are an
object, and metadata that make dictionaries. -/
structure Describes (data : JsonObject) : Prop where
  required : ∀ field ∈ requiredFields, ∃ text, data.get? field = some (.str text)
  capabilities : ∃ entries, data.getD "capabilities" (.dict []) = .dict entries ∧
    (JsonObject.getD entries "metadata" (.dict [])).dictLike = true
  metadata : (data.getD "metadata" (.dict [])).dictLike = true

theorem requireString_returns_iff (data : JsonObject) (field : String) :
    (∃ text, requireString data field = .ok text) ↔ ∃ text, data.get? field = some (.str text) := by
  unfold requireString
  split
  · rename_i text found
    exact iff_of_true ⟨text, rfl⟩ ⟨text, found⟩
  · rename_i other
    refine iff_of_false (fun ⟨_, raised⟩ => nomatch raised) ?_
    rintro ⟨text, found⟩
    exact other text found

theorem metadataOf_returns_iff (data : JsonObject) :
    (∃ entries, metadataOf data = .ok entries) ↔ (data.getD "metadata" (.dict [])).dictLike = true := by
  rw [← (Value.toDict_checked (data.getD "metadata" (.dict []))).returns_iff, metadataOf]
  cases (data.getD "metadata" (.dict [])).toDict with
  | ok entries => exact iff_of_true ⟨entries, rfl⟩ ⟨entries, rfl⟩
  | error e => exact iff_of_false (fun ⟨_, raised⟩ => nomatch raised) (fun ⟨_, raised⟩ => nomatch raised)

theorem capabilitiesOf_returns_iff (data : JsonObject) :
    (∃ capabilities, capabilitiesOf data = .ok capabilities) ↔ (data.getD "metadata" (.dict [])).dictLike = true := by
  rw [← metadataOf_returns_iff, capabilitiesOf]
  cases metadataOf data with
  | ok entries => exact iff_of_true ⟨_, rfl⟩ ⟨entries, rfl⟩
  | error e => exact iff_of_false (fun ⟨_, raised⟩ => nomatch raised) (fun ⟨_, raised⟩ => nomatch raised)

theorem pyStr_ne_empty {render : Json → String} (shown : ∀ value, render value ≠ "") {value : Json}
    (truthy : value.pyBool = true) : value.pyStr render ≠ "" := by
  cases value with
  | null => cases truthy
  | bool b =>
    cases b with
    | false => cases truthy
    | true =>
      change "True" ≠ ""
      decide
  | num n =>
    cases n with
    | int n =>
      cases n with
      | ofNat n => exact Nat.repr_ne_empty
      | negSucc n => simp [Value.pyStr, toString, Int.repr]
    | float x => exact shown _
  | str s => exact of_decide_eq_true truthy
  | _ => exact shown _

theorem modelOf_ne_empty {render : Json → String} (shown : ∀ value, render value ≠ "") (data : JsonObject) :
    modelOf render data ≠ "" := by
  unfold modelOf
  dsimp only
  generalize (if (!(data.getD "model" (.str "")).pyBool && (data.getD "model_env" .null).pyBool) = true then _ else _) = model
  split
  · rename_i truthy
    exact pyStr_ne_empty shown truthy
  · decide

/-- A document is accepted exactly where it describes a provider, and the public
description of what it describes describes the same. -/
theorem loadProviderConfig_iff {render : Json → String} (shown : ∀ value, render value ≠ "") (data : JsonObject) :
    ((∃ config, loadProviderConfig render data = .ok config) ↔ Describes data) ∧
      ∀ config, loadProviderConfig render data = .ok config → loadProviderConfig render config.publicDict = .ok config := by
  refine ⟨⟨fun ⟨config, loaded⟩ => ?_, fun describes => ?_⟩, fun config loaded => ?_⟩
  · obtain ⟨providerId, hasId, loaded⟩ := Raises.bind_eq_ok loaded
    obtain ⟨adapterType, hasType, loaded⟩ := Raises.bind_eq_ok loaded
    obtain ⟨capabilities, hasCapabilities, loaded⟩ := Raises.bind_eq_ok loaded
    obtain ⟨metadata, hasMetadata, -⟩ := Raises.bind_eq_ok loaded
    refine ⟨?_, ?_, (metadataOf_returns_iff data).mp ⟨metadata, hasMetadata⟩⟩
    · intro field required
      simp only [requiredFields, List.mem_cons, List.not_mem_nil, or_false] at required
      rcases required with rfl | rfl
      · exact (requireString_returns_iff data _).mp ⟨providerId, hasId⟩
      · exact (requireString_returns_iff data _).mp ⟨adapterType, hasType⟩
    · unfold readCapabilities at hasCapabilities
      split at hasCapabilities
      · rename_i entries given
        exact ⟨entries, given, (capabilitiesOf_returns_iff entries).mp ⟨capabilities, hasCapabilities⟩⟩
      · cases hasCapabilities
  · obtain ⟨required, ⟨entries, given, inner⟩, outer⟩ := describes
    obtain ⟨providerId, hasId⟩ := (requireString_returns_iff data "provider_id").mpr (required _ (by decide))
    obtain ⟨adapterType, hasType⟩ := (requireString_returns_iff data "adapter_type").mpr (required _ (by decide))
    obtain ⟨capabilities, hasCapabilities⟩ := (capabilitiesOf_returns_iff entries).mpr inner
    obtain ⟨metadata, hasMetadata⟩ := (metadataOf_returns_iff data).mpr outer
    rw [loadProviderConfig, hasId, hasType, given, hasMetadata, readCapabilities, hasCapabilities]
    exact ⟨_, rfl⟩
  · obtain ⟨providerId, -, loaded'⟩ := Raises.bind_eq_ok loaded
    obtain ⟨adapterType, -, loaded'⟩ := Raises.bind_eq_ok loaded'
    obtain ⟨capabilities, -, loaded'⟩ := Raises.bind_eq_ok loaded'
    obtain ⟨metadata, -, made⟩ := Raises.bind_eq_ok loaded'
    refine loadProviderConfig_publicDict render ?_
    rw [← Except.ok.inj made]
    exact modelOf_ne_empty shown data

/-- The document of the mock provider, without what it says of itself. -/
def mockDocument : JsonObject :=
  [(.str "provider_id", .str "mock"), (.str "adapter_type", .str "mock"), (.str "protocol", .str "mock"),
    (.str "model", .str "mock-centroid-model"), (.str "capabilities", .dict [(.str "tool_proposals", .bool true)])]

theorem loadProviderConfig_iff_mock :
    ((∃ config, loadProviderConfig (fun _ => "?") mockDocument = .ok config) ↔ Describes mockDocument) ∧
      ∀ config, loadProviderConfig (fun _ => "?") mockDocument = .ok config →
        loadProviderConfig (fun _ => "?") config.publicDict = .ok config :=
  loadProviderConfig_iff (fun _ => by decide) mockDocument

end ProviderConfig

end Centroid
