import Centroid.Providers.ProviderConfig
import Centroid.Providers.ResponseNormalization

namespace Centroid

structure ModelMessage where
  role : String
  content : String
  metadata : JsonObject := []

def ModelMessage.toDict (self : ModelMessage) : Json :=
  .dict [(.str "role", .str self.role), (.str "content", .str self.content), (.str "metadata", .dict self.metadata)]

/-- A request with all that an adapter reads of it. -/
structure GenerationRequest extends ModelRequest where
  messages : List ModelMessage
  system : Option String := none
  temperature : Option PyFloat := none
  maxOutputTokens : Option ℤ := none

/-- A call of the network: a request that `urlopen` is given, or one that a client of
the provider is. -/
inductive NetworkCall where
  | post (endpoint : String) (headers : List (String × String)) (payload : Json)
  | openai (apiKey baseUrl : Option String) (payload : Json)
  | anthropic (apiKey : Option String) (payload : Json)

/-- How an adapter fails. -/
inductive ProviderFault where
  | configuration (message : String)
  | typeError
  | valueError
  | attributeError
  | unknownUrlType (url : String)
  | unreadable (exc : String)
  | client (exc : String)
  | transport (exc : String)
  | normalize (error : NormalizeError)

/-- The check of a `urllib.request.Request`. -/
def urlTyped (url : String) : Bool :=
  let url := ModelAdapter.strip url
  let url := if url.startsWith "<" ∧ url.endsWith ">" then
    ModelAdapter.strip (String.ofList (url.toList.tail.dropLast)) else url
  let url := if url.startsWith "URL:" then ModelAdapter.strip (String.ofList (url.toList.drop 4)) else url
  let chars := url.toList
  let path := if '#' ∈ chars then (chars.rdropWhile (· ≠ '#')).dropLast else chars
  let rest := path.dropWhile fun c => c ≠ '/' ∧ c ≠ ':'
  rest.head? = some ':' ∧ rest.length < path.length

example : urlTyped "http://localhost:11434/v1/responses" = true ∧ urlTyped "localhost/responses" = false := by
  decide +kernel

/-- The text of an integer, which has no more than 4300 digits. -/
def dumpsNumber : JsonNumber → Except ProviderFault Unit
  | .int n => if n.natAbs < 10 ^ 4300 then .ok () else .error .valueError
  | .float _ => .ok ()

def dumpsKey : Key JsonNumber → Except ProviderFault Unit
  | .null | .str _ => .ok ()
  | .num x => dumpsNumber x
  | .stamp _ _ => .error .typeError

mutual

/-- What `json.dumps` raises. The depth of the value, at which the interpreter may give up, is left out. -/
def dumps : Json → Except ProviderFault Unit
  | .null | .bool _ | .str _ => .ok ()
  | .num x => dumpsNumber x
  | .stamp _ _ | .bytes _ | .set _ => .error .typeError
  | .list items => dumpsItems items
  | .dict entries => dumpsEntries entries

def dumpsItems : List Json → Except ProviderFault Unit
  | [] => .ok ()
  | item :: items => do
    dumps item
    dumpsItems items

def dumpsEntries : JsonObject → Except ProviderFault Unit
  | [] => .ok ()
  | (key, value) :: entries => do
    dumpsKey key
    dumps value
    dumpsEntries entries

end

/-- What an adapter runs in: the variables, the installed clients and their
constructors, and what comes back of a call. -/
structure ProviderWorld where
  env : String → Option String
  installed : String → Bool
  client : String → Option String → Option String → Except String Unit
  respond : NetworkCall → Except String Json
  runtime : PythonRuntime

/-- `_env`. -/
def ProviderWorld.lookup (world : ProviderWorld) (name : Json) : Except ProviderFault (Option String) :=
  if name.pyBool then
    match name with
    | .str text => .ok (world.env text)
    | _ => .error .typeError
  else .ok none

inductive AdapterKind where
  | mock
  | openai
  | anthropic
  | openaiCompatible
  deriving DecidableEq

def AdapterKind.ofName : String → Option AdapterKind
  | "mock" => some .mock
  | "openai" => some .openai
  | "anthropic" => some .anthropic
  | "openai_compatible" => some .openaiCompatible
  | _ => none

/-- An adapter of one of the four classes. -/
structure ProviderAdapter where
  config : ProviderConfig
  kind : AdapterKind
  live : Bool
  modelId : String

/-- What `generate` sends, and what it returns or raises. -/
structure Generation where
  calls : List NetworkCall
  outcome : Except ProviderFault ModelResponse

namespace ProviderAdapter

variable (world : ProviderWorld)

/-- The constructor: a model that is not given is looked up. -/
def init (kind : AdapterKind) (config : ProviderConfig) (live : Bool) (modelOverride : Option String) :
    Except ProviderFault ProviderAdapter := do
  match modelOverride.filter (· ≠ "") with
  | some model => return ⟨config, kind, live, model⟩
  | none =>
    let found ← world.lookup config.modelEnv
    return ⟨config, kind, live, (found.filter (· ≠ "")).getD config.model⟩

def adapter (self : ProviderAdapter) : ModelAdapter := ⟨self.config.providerId, self.modelId⟩

/-- `_require_live_ready`. -/
def requireLiveReady (self : ProviderAdapter) : Except ProviderFault Unit := do
  if !self.live then
    .error (.configuration ("provider '" ++ self.config.providerId ++
      "' requires --live before any network call; mock mode is the default"))
  else
    let key ← world.lookup self.config.apiKeyEnv
    if self.config.apiKeyEnv.pyBool && (key.filter (· ≠ "")).isNone then
      .error (.configuration ("provider '" ++ self.config.providerId ++ "' requires environment variable " ++
        self.config.apiKeyEnv.pyStr world.runtime.render ++ " for --live"))
    else .ok ()

/-- `len(text.split())`. -/
def wordCount (text : String) : ℕ := ((text.toList.splitOnP TextLines.isSpace).filter (· ≠ [])).length

def textForScenario (scenario : String) : String :=
  if scenario = "tool-proposal" then
    "Centroid mock provider proposes a bounded operational action for safety review."
  else if scenario = "project-companion" then
    "Centroid mock provider restored project context while preserving configured constraints."
  else "Centroid mock provider produced deterministic text through the provider contract."

/-- The one proposal that the mock adapter makes. -/
def mockProposal (self : ProviderAdapter) : ModelToolProposal where
  proposalId := .str "mock-proposal-restart-service"
  name := "restart_service"
  arguments := [(.str "resource", .str "checkout-worker"),
    (.str "intended_effect", .str "restart service checkout-worker"), (.str "risk_level", .str "high"),
    (.str "reversible", .bool true), (.str "mutates_state", .bool true)]
  providerId := self.config.providerId
  modelId := self.modelId

/-- `generate` of the mock adapter. -/
def mockResponse (self : ProviderAdapter) (request : GenerationRequest) : ModelResponse :=
  let scenario := (request.scenarioId.filter (· ≠ "")).getD "default"
  let text := textForScenario scenario
  let proposals :=
    if scenario ∈ ["tool-proposal", "operations-observer", "safety-gate"] then [self.mockProposal] else []
  { text
    toolProposals := proposals
    providerId := self.config.providerId
    modelId := self.modelId
    usage := [(.str "input_tokens", .num (.int (request.messages.map fun m => wordCount m.content).sum)),
      (.str "output_tokens", .num (.int (wordCount text)))]
    finishReason := .str "stop"
    providerMetadata := [(.str "fixture", .str scenario)]
    audit := some (self.adapter.audit request.toModelRequest proposals.length "mock_fixture") }

/-- A call with the normalization of what comes back. -/
abbrev Prepared := NetworkCall × (JsonObject → Except NormalizeError ModelResponse)

/-- The client of a provider, which has to be installed. -/
def connect (package : String) (apiKey baseUrl : Option String) : Except ProviderFault Unit :=
  match world.client package apiKey baseUrl with
  | .error exc => .error (.client exc)
  | .ok () => .ok ()

def requireInstalled (package : String) : Except ProviderFault Unit :=
  if world.installed package then .ok ()
  else .error (.configuration ("install centroid-cognitive-architecture[" ++ package ++ "] to use provider '" ++ package ++ "'"))

def prepareOpenai (self : ProviderAdapter) (request : GenerationRequest) : Except ProviderFault Prepared := do
  self.requireLiveReady world
  requireInstalled world "openai"
  let apiKey ← world.lookup self.config.apiKeyEnv
  let baseUrl ← world.lookup self.config.baseUrlEnv
  connect world "openai" apiKey baseUrl
  let payload : JsonObject :=
    [(.str "model", .str self.modelId), (.str "input", .list (request.messages.map ModelMessage.toDict))] ++
    ((request.system.filter (· ≠ "")).map fun system => (.str "instructions", .str system)).toList ++
    (request.maxOutputTokens.map fun n => (.str "max_output_tokens", .num (.int n))).toList ++
    (request.temperature.map fun x => (.str "temperature", .num (.float x))).toList
  return (.openai apiKey baseUrl (.dict payload),
    fun raw => OpenAIResponsesAdapter.normalizeResponse self.adapter world.runtime raw request.toModelRequest)

def prepareAnthropic (self : ProviderAdapter) (request : GenerationRequest) : Except ProviderFault Prepared := do
  self.requireLiveReady world
  requireInstalled world "anthropic"
  let apiKey ← world.lookup self.config.apiKeyEnv
  connect world "anthropic" apiKey none
  let payload : JsonObject :=
    [(.str "model", .str self.modelId),
      (.str "max_tokens", .num (.int ((request.maxOutputTokens.filter (· ≠ 0)).getD 512))),
      (.str "system", (request.system.filter (· ≠ "")).elim .null .str),
      (.str "messages", .list (request.messages.map fun m =>
        .dict [(.str "role", .str m.role), (.str "content", .str m.content)]))]
  return (.anthropic apiKey (.dict payload),
    fun raw => AnthropicMessagesAdapter.normalizeResponse self.adapter world.runtime raw request.toModelRequest)

/-- The address of the provider: the variable, or the default of the document. -/
def baseUrl (self : ProviderAdapter) : Except ProviderFault Json := do
  let found ← world.lookup self.config.baseUrlEnv
  return ((found.filter (· ≠ "")).map Value.str).getD self.config.defaultBaseUrl

/-- `rstrip("/")`, which only a text has. -/
def trimmedUrl : Json → Except ProviderFault String
  | .str url => .ok (String.ofList (url.toList.rdropWhile (· = '/')))
  | _ => .error .attributeError

/-- The headers of `_post_json`. -/
def headers (apiKey : Option String) : List (String × String) :=
  ("Content-Type", "application/json") ::
    ((apiKey.filter (· ≠ "")).map fun key => ("Authorization", "Bearer " ++ key)).toList

/-- `_post_json`, up to the call of `urlopen`. -/
def postJson (self : ProviderAdapter) (endpoint : String) (payload : Json) : Except ProviderFault NetworkCall := do
  dumps payload
  let apiKey ← world.lookup self.config.apiKeyEnv
  if urlTyped endpoint then return .post endpoint (headers apiKey) payload
  else .error (.unknownUrlType endpoint)

def prepareCompatible (self : ProviderAdapter) (request : GenerationRequest) : Except ProviderFault Prepared := do
  self.requireLiveReady world
  let url ← self.baseUrl world
  if !url.pyBool then
    .error (.configuration ("provider '" ++ self.config.providerId ++ "' requires " ++
      (if self.config.baseUrlEnv.pyBool then self.config.baseUrlEnv.pyStr world.runtime.render else "a base URL") ++
      " for --live"))
  else
    let address ← trimmedUrl url
    let messages : Json := .list (request.messages.map ModelMessage.toDict)
    if self.config.protocol = "responses" then
      let call ← self.postJson world (address ++ "/responses")
        (.dict [(.str "model", .str self.modelId), (.str "input", messages)])
      return (call, fun raw => OpenAIResponsesAdapter.normalizeResponse self.adapter world.runtime raw request.toModelRequest)
    else
      let call ← self.postJson world (address ++ "/chat/completions")
        (.dict [(.str "model", .str self.modelId), (.str "messages", messages)])
      return (call,
        fun raw => OpenAICompatibleAdapter.normalizeChatCompletions self.adapter world.runtime raw request.toModelRequest)

/-- What is prepared is sent, and what comes back is normalized. -/
def exchange : Except ProviderFault Prepared → Generation
  | .error fault => ⟨[], .error fault⟩
  | .ok (call, normalize) =>
    { calls := [call]
      outcome :=
        match world.respond call with
        | .error exc => .error (.transport exc)
        | .ok raw =>
          match raw.asDict >>= normalize with
          | .error e => .error (.normalize e)
          | .ok response => .ok response }

def generate (self : ProviderAdapter) (request : GenerationRequest) : Generation :=
  match self.kind with
  | .mock => ⟨[], .ok (self.mockResponse request)⟩
  | .openai => exchange world (self.prepareOpenai world request)
  | .anthropic => exchange world (self.prepareAnthropic world request)
  | .openaiCompatible => exchange world (self.prepareCompatible world request)

def builtinProviderPaths : List (String × String) :=
  [("mock", "configs/providers/mock.json"), ("openai", "configs/providers/openai.json.example"),
    ("anthropic", "configs/providers/anthropic.json.example"), ("ollama", "configs/providers/ollama.json.example"),
    ("vllm", "configs/providers/vllm.json.example")]

/-- `get_provider_config`, with what the files of the providers hold. -/
def getProviderConfig (documents : String → Except String JsonObject) (providerId : String) :
    Except ProviderFault ProviderConfig :=
  match builtinProviderPaths.lookup providerId with
  | none => .error (.configuration ("unknown provider '" ++ providerId ++ "'. Available providers: " ++
      ", ".intercalate ((builtinProviderPaths.map Prod.fst).mergeSort)))
  | some path =>
    match documents path with
    | .error exc => .error (.unreadable exc)
    | .ok data =>
      match ProviderConfig.loadProviderConfig world.runtime.render data with
      | .error (.missingField field) =>
        .error (.configuration ("provider config missing required string field: " ++ field))
      | .error .capabilitiesNotObject => .error (.configuration "provider config capabilities must be an object")
      | .error (.raised e) => .error (.normalize e)
      | .ok config => .ok config

/-- `create_provider_adapter`. -/
def createProviderAdapter (documents : String → Except String JsonObject) (providerId : String) (live : Bool)
    (model : Option String) : Except ProviderFault ProviderAdapter := do
  let config ← getProviderConfig world documents providerId
  match AdapterKind.ofName config.adapterType with
  | none => .error (.configuration ("unsupported provider adapter_type: " ++ config.adapterType))
  | some kind => init world kind config live model

/-- A document asks for no key, or the variable that it names holds one. -/
def KeyReady (config : ProviderConfig) : Prop :=
  config.apiKeyEnv.pyBool = false ∨
    ∃ name key, config.apiKeyEnv = .str name ∧ name ≠ "" ∧ world.env name = some key ∧ key ≠ ""

/-- The key that the variable of the document holds. -/
def keyOf (config : ProviderConfig) : Option String :=
  match config.apiKeyEnv with
  | .str name => if name = "" then none else (world.env name).filter (· ≠ "")
  | _ => none

/-- What `_post_json` is asked for beside the address of the provider. -/
def path (self : ProviderAdapter) : String :=
  if self.config.protocol = "responses" then "/responses" else "/chat/completions"

/-- What the class needs beside the flag and the key before it can send. -/
def Connects (self : ProviderAdapter) (request : GenerationRequest) : Prop :=
  match self.kind with
  | .mock => False
  | .openai => world.installed "openai" = true ∧ ∃ baseUrl, world.lookup self.config.baseUrlEnv = .ok baseUrl ∧
      world.client "openai" (keyOf world self.config) baseUrl = .ok ()
  | .anthropic => world.installed "anthropic" = true ∧ world.client "anthropic" (keyOf world self.config) none = .ok ()
  | .openaiCompatible => ∃ url address, self.baseUrl world = .ok (.str url) ∧ url ≠ "" ∧
      trimmedUrl (.str url) = .ok address ∧ urlTyped (address ++ self.path) = true ∧
      ∀ message ∈ request.messages, dumps (.dict message.metadata) = .ok ()

end ProviderAdapter

/-- A call shows this key, in its header or to its client, and no other. -/
def NetworkCall.Shows (key : Option String) : NetworkCall → Prop
  | .post _ headers _ => headers =
      ("Content-Type", "application/json") :: (key.map fun key => ("Authorization", "Bearer " ++ key)).toList
  | .openai apiKey _ _ => apiKey = key
  | .anthropic apiKey _ => apiKey = key

namespace ProviderAdapter

section

variable {world : ProviderWorld} {self : ProviderAdapter}

variable (request : GenerationRequest)

/-- What an adapter prepares, where it does, for a call that shows its key. -/
def Prepares (world : ProviderWorld) (self : ProviderAdapter) (request : GenerationRequest)
    (prepared : Except ProviderFault Prepared) : Prop :=
  ((∃ result, prepared = .ok result) ↔ self.live = true ∧ KeyReady world self.config ∧ self.Connects world request) ∧
    (∀ result, prepared = .ok result → result.1.Shows (keyOf world self.config)) ∧
    (self.live = false → prepared = .error (.configuration ("provider '" ++ self.config.providerId ++
      "' requires --live before any network call; mock mode is the default")))

/-- What is prepared is all that is sent. -/
theorem exchange_spec {prepared : Except ProviderFault Prepared} :
    ((exchange world prepared).calls ≠ [] ↔ ∃ result, prepared = .ok result) ∧
      (exchange world prepared).calls.length ≤ 1 ∧
      ∀ call ∈ (exchange world prepared).calls, ∃ result, prepared = .ok result ∧ call = result.1 := by
  cases prepared with
  | error fault =>
    exact ⟨iff_of_false (fun some => some rfl) (fun ⟨_, raised⟩ => nomatch raised), Nat.zero_le 1, by simp [exchange]⟩
  | ok result =>
    refine ⟨iff_of_true (List.cons_ne_nil _ _) ⟨result, rfl⟩, Nat.le_refl 1, fun call member => ?_⟩
    exact ⟨result, rfl, List.mem_singleton.mp member⟩

theorem Prepares.exchange {prepared : Except ProviderFault Prepared} (prepares : Prepares world self request prepared) :
    ((exchange world prepared).calls ≠ [] ↔ self.live = true ∧ KeyReady world self.config ∧ self.Connects world request) ∧
      (exchange world prepared).calls.length ≤ 1 ∧
      (∀ call ∈ (exchange world prepared).calls, call.Shows (keyOf world self.config)) ∧
      (self.live = false → (exchange world prepared).outcome = .error (.configuration ("provider '" ++
        self.config.providerId ++ "' requires --live before any network call; mock mode is the default"))) := by
  obtain ⟨returns, shows, off⟩ := prepares
  obtain ⟨sends, once, sent⟩ := @exchange_spec world prepared
  refine ⟨sends.trans returns, once, fun call member => ?_, fun notLive => ?_⟩
  · obtain ⟨result, made, rfl⟩ := sent call member
    exact shows result made
  · rw [off notLive]
    rfl

end

end ProviderAdapter

end Centroid
