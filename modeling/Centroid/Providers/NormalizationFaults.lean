import Centroid.Providers.ResponseNormalization
import Mathlib.Data.List.Forall2

namespace Centroid

open Raises

/-- Arguments that become a dictionary. -/
def SoundArguments (runtime : PythonRuntime) : Json → Prop
  | .str text => ∃ value, runtime.loads (argumentsText text) = .ok value ∧ value.dictLike
  | value => value.dictLike

/-- A text of arguments that is no JSON. -/
def UndecodableArguments (runtime : PythonRuntime) : Json → Prop
  | .str text => runtime.loads (argumentsText text) = .error .jsonDecodeError
  | _ => False

/-- A response whose main list, each item of it and the usage have the shape
that a normalization expects. -/
def WellShaped (sound : Json → Prop) (field : String) (raw : JsonObject) : Prop :=
  ((raw.getD field (.list [])).iterable ∧ ∀ item ∈ (raw.getD field (.list [])).items, sound item) ∧
    (raw.getD "usage" (.dict [])).dictLike

/-- A response of which the first item of another shape is undecodable. -/
def FirstUndecodable (sound undecodable : Json → Prop) (field : String) (raw : JsonObject) : Prop :=
  (raw.getD field (.list [])).iterable ∧ StopsAt sound undecodable (raw.getD field (.list [])).items

/-- What a tool item is proposed as. -/
structure Proposes (adapter : ModelAdapter) (runtime : PythonRuntime) (decode : Json → Except NormalizeError Json)
    (call : ToolCall) (proposal : ModelToolProposal) : Prop where
  name : proposal.name = call.name.pyStr runtime.render
  arguments : decode call.arguments >>= Value.toDict = .ok proposal.arguments
  proposalId : call.proposalId.pyBool = true → proposal.proposalId = call.proposalId
  providerId : proposal.providerId = adapter.providerId
  modelId : proposal.modelId = adapter.modelId
  executed : proposal.executed = false
  gated : proposal.requiresCentroidPolicyEvaluation = true

/-- A normalization that raises nothing but a `ProviderResponseError` and
otherwise has one proposal for each tool item, all counted. -/
structure KeepsContract (proposes : ToolCall → ModelToolProposal → Prop) (calls : List ToolCall)
    (normalized : Except NormalizeError ModelResponse) : Prop where
  raises : RaisesOnly NormalizeError.IsProviderResponse normalized
  proposals : ∀ response, normalized = .ok response → List.Forall₂ proposes calls response.toolProposals
  counted : ∀ response, normalized = .ok response →
    ∃ audit, response.audit = some audit ∧ audit.toolProposalCount = response.toolProposals.length

namespace ModelAdapter

variable {adapter : ModelAdapter} {runtime : PythonRuntime} {decode : Json → Except NormalizeError Json}

theorem propose_eq (gathered : Gathered) (call : ToolCall) :
    adapter.propose runtime decode gathered call = (decode call.arguments >>= Value.toDict) >>= fun arguments =>
      .ok { gathered with
        proposals := gathered.proposals ++ [{
          proposalId := orElse call.proposalId (.str (runtime.uuid4 gathered.proposals.length))
          name := call.name.pyStr runtime.render
          arguments
          providerId := adapter.providerId
          modelId := adapter.modelId }] } := by
  simp only [propose, ModelToolProposal.create, bind_assoc]
  rfl

theorem propose_meets {sound fails : Prop}
    {call : ToolCall} (decoded : Meets NormalizeError.IsProviderResponse (decode call.arguments >>= Value.toDict) sound fails)
    (gathered : Gathered) :
    Meets NormalizeError.IsProviderResponse (adapter.propose runtime decode gathered call) sound fails := by
  rw [propose_eq]
  exact decoded.bind_total fun _ => ⟨_, rfl⟩

theorem propose_ok {gathered next : Gathered} {call : ToolCall}
    (ok : adapter.propose runtime decode gathered call = .ok next) :
    ∃ proposal, next.proposals = gathered.proposals ++ [proposal] ∧ Proposes adapter runtime decode call proposal := by
  rw [propose_eq] at ok
  obtain ⟨arguments, decoded, same⟩ := bind_eq_ok ok
  cases same
  exact ⟨_, rfl, rfl, decoded, fun stated => if_pos stated, rfl, rfl, rfl, rfl⟩

theorem proposes_nothing (gathered : Gathered) :
    ∃ more, gathered.proposals = gathered.proposals ++ more ∧ List.Forall₂ (Proposes adapter runtime decode) [] more :=
  ⟨[], (List.append_nil _).symm, List.Forall₂.nil⟩

theorem proposes_of_ite {tool : Bool} {gathered next : Gathered} {call : ToolCall}
    (ok : (if tool then adapter.propose runtime decode gathered call else .ok gathered) = .ok next) :
    ∃ more, next.proposals = gathered.proposals ++ more ∧
      List.Forall₂ (Proposes adapter runtime decode) (if tool then [call] else []) more := by
  cases tool with
  | true =>
    obtain ⟨proposal, grown, proposed⟩ := propose_ok ok
    exact ⟨[proposal], grown, List.Forall₂.cons proposed List.Forall₂.nil⟩
  | false =>
    cases ok
    exact proposes_nothing gathered

theorem respond_meets (raw : JsonObject) (request : ModelRequest) (gathered : Gathered) (path : String)
    (finishReason : Json) (idField : String) :
    Value.Checked (adapter.respond raw request gathered path finishReason idField)
      (raw.getD "usage" (.dict [])).dictLike :=
  (Value.toDict_checked _).bind_total fun _ => ⟨_, rfl⟩

/-- What a response says of the proposals gathered. -/
theorem respond_ok {raw : JsonObject} {request : ModelRequest} {gathered : Gathered} {path idField : String}
    {finishReason : Json} {response : ModelResponse}
    (ok : adapter.respond raw request gathered path finishReason idField = .ok response) :
    response.toolProposals = gathered.proposals ∧
      response.audit = some (adapter.audit request gathered.proposals.length path) := by
  obtain ⟨usage, -, same⟩ := bind_eq_ok ok
  cases same
  exact ⟨rfl, rfl⟩

variable {step : Gathered → Json → Except NormalizeError Gathered} {sound undecodable : Json → Prop}
  {callsOf : Json → List ToolCall}

/-- Where each turn proposes its own tool items, a loop proposes those of all its
items, in order. -/
theorem foldlM_proposes
    (proposed : ∀ gathered item next, step gathered item = .ok next →
      ∃ more, next.proposals = gathered.proposals ++ more ∧
        List.Forall₂ (Proposes adapter runtime decode) (callsOf item) more)
    {items : List Json} {gathered next : Gathered} (ran : items.foldlM step gathered = .ok next) :
    ∃ more, next.proposals = gathered.proposals ++ more ∧
      List.Forall₂ (Proposes adapter runtime decode) (items.flatMap callsOf) more := by
  have start : ∃ more, gathered.proposals = gathered.proposals ++ more ∧
      List.Forall₂ (Proposes adapter runtime decode) (([] : List Json).flatMap callsOf) more :=
    proposes_nothing gathered
  refine foldlM_invariant (P := fun done reached => ∃ more, reached.proposals = gathered.proposals ++ more ∧
    List.Forall₂ (Proposes adapter runtime decode) (done.flatMap callsOf) more) ?_ start ran
  rintro done item reached after ⟨more, held, matched⟩ ok
  obtain ⟨added, grown, new⟩ := proposed reached item after ok
  refine ⟨more ++ added, by rw [grown, held, List.append_assoc], ?_⟩
  rw [List.flatMap_append, List.flatMap_singleton]
  exact List.rel_append matched new

/-- The three normalizations are this loop with their own turns. -/
theorem keepsContract_iff
    (turn : ∀ gathered item, Meets NormalizeError.IsProviderResponse (step gathered item) (sound item) (undecodable item))
    (proposed : ∀ gathered item next, step gathered item = .ok next →
      ∃ more, next.proposals = gathered.proposals ++ more ∧
        List.Forall₂ (Proposes adapter runtime decode) (callsOf item) more)
    (field : String) (raw : JsonObject) (request : ModelRequest) (path : String) (finishReason : Gathered → Json)
    (idField : String) :
    KeepsContract (Proposes adapter runtime decode) ((raw.getD field (.list [])).items.flatMap callsOf) (do
        let items ← (raw.getD field (.list [])).iter
        let gathered ← items.foldlM step {}
        adapter.respond raw request gathered path (finishReason gathered) idField) ↔
      WellShaped sound field raw ∨ FirstUndecodable sound undecodable field raw := by
  have whole := Meets.bind (Value.meets_loop turn (raw.getD field (.list [])) {}) fun gathered _ =>
    adapter.respond_meets raw request gathered path (finishReason gathered) idField
  rw [bind_assoc] at whole
  have raises := whole.raisesOnly_iff
  constructor
  · intro kept
    rcases raises.mp kept.raises with shaped | ⟨-, stops⟩ | ⟨-, impossible⟩
    · exact Or.inl shaped
    · exact Or.inr stops
    · exact impossible.elim
  · intro condition
    constructor
    · rw [raises]
      rcases condition with shaped | stops
      · exact Or.inl shaped
      · exact Or.inr (Or.inl ⟨fun shaped => StopsAt.not_all stops.2 shaped.2, stops⟩)
    · intro response ok
      obtain ⟨items, iterated, ok⟩ := bind_eq_ok ok
      obtain ⟨gathered, ran, ok⟩ := bind_eq_ok ok
      rw [← Value.iter_ok iterated, (respond_ok ok).1]
      obtain ⟨more, grown, matched⟩ := foldlM_proposes proposed ran
      rw [grown]
      exact matched
    · intro response ok
      obtain ⟨items, -, ok⟩ := bind_eq_ok ok
      obtain ⟨gathered, -, ok⟩ := bind_eq_ok ok
      obtain ⟨proposals, audit⟩ := respond_ok ok
      exact ⟨_, audit, by rw [proposals]; rfl⟩

end ModelAdapter

variable {runtime : PythonRuntime} {adapter : ModelAdapter}

theorem decodeArguments_meets (message : String) (arguments : Json) :
    Meets NormalizeError.IsProviderResponse (decodeArguments runtime.loads message arguments >>= Value.toDict)
      (SoundArguments runtime arguments) (UndecodableArguments runtime arguments) := by
  cases arguments with
  | str text =>
    rw [SoundArguments, UndecodableArguments, decodeArguments]
    cases read : runtime.loads (argumentsText text) with
    | ok value =>
      refine (Value.toDict_checked value).congr ?_ fun _ => ?_
      · simp only [Except.ok.injEq, exists_eq_left']
      · simp only [reduceCtorEq]
    | error failure =>
      have unsound : ¬∃ value, (.error failure : Except DecodeFailure Json) = .ok value ∧ value.dictLike := by
        rintro ⟨_, ⟨⟩, -⟩
      cases failure with
      | jsonDecodeError => exact Meets.error unsound ⟨fun _ => rfl, fun _ => ⟨message, rfl⟩⟩
      | valueError | recursionError =>
        refine Meets.error unsound ⟨?_, ?_⟩
        · rintro ⟨_, ⟨⟩⟩
        · rintro ⟨⟩
  | null | bool | num | stamp | list | dict | bytes | set => exact Value.toDict_checked _

namespace OpenAIResponsesAdapter

def SoundContent (content : Json) : Prop :=
  ∃ fields : JsonObject, content = .dict fields ∧ (fields.getD "type" .null).hashable

def isTool (item : JsonObject) : Bool := ["function_call", "tool_call"].any (item.getD "type" .null).isStr

def SoundItem (runtime : PythonRuntime) (item : Json) : Prop :=
  ∃ fields : JsonObject, item = .dict fields ∧
    if (fields.getD "type" .null).isStr "message" then
      (fields.getD "content" (.list [])).iterable ∧ ∀ content ∈ (fields.getD "content" (.list [])).items, SoundContent content
    else (fields.getD "type" .null).hashable ∧ (isTool fields → SoundArguments runtime (toolCall fields).arguments)

def UndecodableItem (runtime : PythonRuntime) (item : Json) : Prop :=
  ∃ fields : JsonObject, item = .dict fields ∧ isTool fields ∧ UndecodableArguments runtime (toolCall fields).arguments

def callsOf : Json → List ToolCall
  | .dict fields => if isTool fields then [toolCall fields] else []
  | _ => []

def toolCalls (raw : JsonObject) : List ToolCall := (raw.getD "output" (.list [])).items.flatMap callsOf

theorem readContent_meets (textParts : List String) (content : Json) :
    Value.Checked (readContent runtime textParts content) (SoundContent content) := by
  refine Value.Checked.asDict_bind (fun fields => ?_) content
  exact (Value.inTexts_checked _ _).bind_total fun _ => ⟨_, rfl⟩

theorem type_of_isTool {fields : JsonObject} (tool : isTool fields = true) :
    fields.getD "type" .null = .str "function_call" ∨ fields.getD "type" .null = .str "tool_call" := by
  obtain ⟨text, listed, same⟩ := List.any_eq_true.mp tool
  rw [Value.isStr_iff.mp same]
  simpa using listed

theorem not_isTool_of_message {fields : JsonObject} (isMessage : (fields.getD "type" .null).isStr "message" = true) :
    ¬isTool fields = true := by
  intro tool
  rcases type_of_isTool tool with same | same
  all_goals rw [same] at isMessage; cases isMessage

theorem readItem_meets (gathered : Gathered) (item : Json) :
    Meets NormalizeError.IsProviderResponse (readItem adapter runtime gathered item) (SoundItem runtime item)
      (UndecodableItem runtime item) := by
  refine Value.meets_asDict_bind (fun fields => ?_) item
  by_cases isMessage : (fields.getD "type" .null).isStr "message" = true
  · have contents := (Value.meets_loop (@readContent_meets runtime) (fields.getD "content" (.list []))
      gathered.textParts).bind_total (f := fun textParts => .ok { gathered with textParts }) fun _ => ⟨_, rfl⟩
    rw [bind_assoc] at contents
    simp only [isMessage, if_true]
    refine contents.congr Iff.rfl fun _ => ⟨fun stops => ?_, fun both => (not_isTool_of_message isMessage both.1).elim⟩
    obtain ⟨-, _, _, _, -, -, -, impossible⟩ := stops
    exact impossible.elim
  · simp only [isMessage]
    have proposes (found : Bool)
        (ok : (fields.getD "type" .null).inTexts ["function_call", "tool_call"] = .ok found) :
        Meets NormalizeError.IsProviderResponse
          (if found then adapter.propose runtime (decode runtime) gathered (toolCall fields) else .ok gathered)
          (isTool fields → SoundArguments runtime (toolCall fields).arguments)
          (isTool fields ∧ UndecodableArguments runtime (toolCall fields).arguments) := by
      rw [Value.inTexts_ok ok]
      exact Meets.ite gathered fun _ => ModelAdapter.propose_meets (decodeArguments_meets _ _) gathered
    refine (Meets.bind_of_never (Value.inTexts_checked _ _) proposes).congr Iff.rfl fun _ => and_iff_right_of_imp ?_
    rintro ⟨tool, -⟩
    rcases type_of_isTool tool with same | same
    all_goals rw [same]; rfl

theorem readItem_proposes (gathered : Gathered) (item : Json) (next : Gathered)
    (ok : readItem adapter runtime gathered item = .ok next) :
    ∃ more, next.proposals = gathered.proposals ++ more ∧
      List.Forall₂ (Proposes adapter runtime (decode runtime)) (callsOf item) more := by
  obtain ⟨fields, read, ok⟩ := bind_eq_ok ok
  rw [Value.asDict_ok read, callsOf]
  by_cases isMessage : (fields.getD "type" .null).isStr "message" = true
  · simp only [isMessage, if_true] at ok
    obtain ⟨contents, -, ok⟩ := bind_eq_ok ok
    obtain ⟨textParts, -, same⟩ := bind_eq_ok ok
    cases same
    rw [if_neg (not_isTool_of_message isMessage)]
    exact ModelAdapter.proposes_nothing gathered
  · simp only [isMessage] at ok
    obtain ⟨found, searched, ok⟩ := bind_eq_ok ok
    rw [Value.inTexts_ok searched] at ok
    exact ModelAdapter.proposes_of_ite ok

theorem normalizeResponse_keepsContract_iff (adapter : ModelAdapter) (runtime : PythonRuntime) (raw : JsonObject)
    (request : ModelRequest) :
    KeepsContract (Proposes adapter runtime (decode runtime)) (toolCalls raw) (normalizeResponse adapter runtime raw request) ↔
      WellShaped (SoundItem runtime) "output" raw ∨ FirstUndecodable (SoundItem runtime) (UndecodableItem runtime) "output" raw :=
  ModelAdapter.keepsContract_iff readItem_meets readItem_proposes "output" raw request "responses"
    (fun _ => raw.getD "status" .null) "response_id"

end OpenAIResponsesAdapter

namespace AnthropicMessagesAdapter

def isTool (block : JsonObject) : Bool := (block.getD "type" .null).isStr "tool_use"

def SoundBlock (block : Json) : Prop :=
  ∃ fields : JsonObject, block = .dict fields ∧ (isTool fields → (toolCall fields).arguments.dictLike)

def callsOf : Json → List ToolCall
  | .dict fields => if isTool fields then [toolCall fields] else []
  | _ => []

def toolCalls (raw : JsonObject) : List ToolCall := (raw.getD "content" (.list [])).items.flatMap callsOf

theorem decode_meets (input : Json) : Value.Checked (decode input >>= Value.toDict) input.dictLike := by
  rw [decode, bind_assoc]
  exact (Value.toDict_checked input).bind_total fun _ => ⟨_, rfl⟩

theorem not_isTool_of_text {fields : JsonObject} (isText : (fields.getD "type" .null).isStr "text" = true) :
    ¬isTool fields = true := by
  rw [isTool, Value.isStr_iff.mp isText]
  decide

theorem readBlock_checked (gathered : Gathered) (block : Json) :
    Value.Checked (readBlock adapter runtime gathered block) (SoundBlock block) := by
  refine Value.Checked.asDict_bind (fun fields => ?_) block
  by_cases isText : (fields.getD "type" .null).isStr "text" = true
  · simp only [isText, if_true]
    exact Meets.ok _ fun tool => (not_isTool_of_text isText tool).elim
  · simp only [isText]
    exact Value.Checked.ite gathered fun _ => ModelAdapter.propose_meets (decode_meets _) gathered

theorem readBlock_proposes (gathered : Gathered) (block : Json) (next : Gathered)
    (ok : readBlock adapter runtime gathered block = .ok next) :
    ∃ more, next.proposals = gathered.proposals ++ more ∧
      List.Forall₂ (Proposes adapter runtime decode) (callsOf block) more := by
  obtain ⟨fields, read, ok⟩ := bind_eq_ok ok
  rw [Value.asDict_ok read, callsOf]
  by_cases isText : (fields.getD "type" .null).isStr "text" = true
  · simp only [isText, if_true] at ok
    cases ok
    rw [if_neg (not_isTool_of_text isText)]
    exact ModelAdapter.proposes_nothing gathered
  · simp only [isText] at ok
    exact ModelAdapter.proposes_of_ite ok

theorem normalizeResponse_keepsContract_iff (adapter : ModelAdapter) (runtime : PythonRuntime) (raw : JsonObject)
    (request : ModelRequest) :
    KeepsContract (Proposes adapter runtime decode) (toolCalls raw) (normalizeResponse adapter runtime raw request) ↔
      WellShaped SoundBlock "content" raw := by
  refine (ModelAdapter.keepsContract_iff readBlock_checked readBlock_proposes "content" raw request "messages"
    (fun _ => raw.getD "stop_reason" .null) "message_id").trans (or_iff_left ?_)
  rintro ⟨-, _, _, _, -, -, -, impossible⟩
  exact impossible

end AnthropicMessagesAdapter

namespace OpenAICompatibleAdapter

def callOf : Json → List ToolCall
  | .dict item =>
    match JsonObject.getD item "function" (.dict []) with
    | .dict function => [toolCall item function]
    | _ => []
  | _ => []

def callsOf : Json → List ToolCall
  | .dict choice =>
    match JsonObject.getD choice "message" (.dict []) with
    | .dict message => (toolCallsOf message).items.flatMap callOf
    | _ => []
  | _ => []

def toolCalls (raw : JsonObject) : List ToolCall := (raw.getD "choices" (.list [])).items.flatMap callsOf

def SoundToolCall (runtime : PythonRuntime) (item : Json) : Prop :=
  ∃ fields : JsonObject, item = .dict fields ∧ ∃ function : JsonObject, fields.getD "function" (.dict []) = .dict function ∧
    SoundArguments runtime (toolCall fields function).arguments

def UndecodableToolCall (runtime : PythonRuntime) (item : Json) : Prop :=
  ∃ fields : JsonObject, item = .dict fields ∧ ∃ function : JsonObject, fields.getD "function" (.dict []) = .dict function ∧
    UndecodableArguments runtime (toolCall fields function).arguments

def SoundChoice (runtime : PythonRuntime) (choice : Json) : Prop :=
  ∃ fields : JsonObject, choice = .dict fields ∧ ∃ message : JsonObject, fields.getD "message" (.dict []) = .dict message ∧
    (toolCallsOf message).iterable ∧ ∀ item ∈ (toolCallsOf message).items, SoundToolCall runtime item

/-- A choice of whose tool calls the first of another shape is undecodable. -/
def UndecodableChoice (runtime : PythonRuntime) (choice : Json) : Prop :=
  ∃ fields : JsonObject, choice = .dict fields ∧ ∃ message : JsonObject, fields.getD "message" (.dict []) = .dict message ∧
    (toolCallsOf message).iterable ∧ StopsAt (SoundToolCall runtime) (UndecodableToolCall runtime) (toolCallsOf message).items

theorem readToolCall_meets (gathered : Gathered) (item : Json) :
    Meets NormalizeError.IsProviderResponse (readToolCall adapter runtime gathered item) (SoundToolCall runtime item)
      (UndecodableToolCall runtime item) := by
  refine Value.meets_asDict_bind (fun fields => ?_) item
  refine Value.meets_asDict_bind (fun function => ?_) (fields.getD "function" (.dict []))
  exact ModelAdapter.propose_meets (decodeArguments_meets _ _) gathered

theorem readChoice_meets (gathered : Gathered) (choice : Json) :
    Meets NormalizeError.IsProviderResponse (readChoice adapter runtime gathered choice) (SoundChoice runtime choice)
      (UndecodableChoice runtime choice) := by
  refine Value.meets_asDict_bind (fun fields => ?_) choice
  refine Value.meets_asDict_bind (fun message => ?_) (fields.getD "message" (.dict []))
  exact Value.meets_loop readToolCall_meets (toolCallsOf message) _

theorem readToolCall_proposes (gathered : Gathered) (item : Json) (next : Gathered)
    (ok : readToolCall adapter runtime gathered item = .ok next) :
    ∃ more, next.proposals = gathered.proposals ++ more ∧
      List.Forall₂ (Proposes adapter runtime (decode runtime)) (callOf item) more := by
  obtain ⟨fields, read, ok⟩ := bind_eq_ok ok
  obtain ⟨function, readFunction, ok⟩ := bind_eq_ok ok
  obtain ⟨proposal, grown, proposed⟩ := ModelAdapter.propose_ok ok
  simp only [callOf, Value.asDict_ok read, Value.asDict_ok readFunction]
  exact ⟨[proposal], grown, List.Forall₂.cons proposed List.Forall₂.nil⟩

theorem readChoice_proposes (gathered : Gathered) (choice : Json) (next : Gathered)
    (ok : readChoice adapter runtime gathered choice = .ok next) :
    ∃ more, next.proposals = gathered.proposals ++ more ∧
      List.Forall₂ (Proposes adapter runtime (decode runtime)) (callsOf choice) more := by
  obtain ⟨fields, read, ok⟩ := bind_eq_ok ok
  obtain ⟨message, readMessage, ok⟩ := bind_eq_ok ok
  obtain ⟨items, iterated, ran⟩ := bind_eq_ok ok
  simp only [callsOf, Value.asDict_ok read, Value.asDict_ok readMessage, ← Value.iter_ok iterated]
  obtain ⟨more, grown, matched⟩ := ModelAdapter.foldlM_proposes readToolCall_proposes ran
  exact ⟨more, grown, matched⟩

theorem normalizeChatCompletions_keepsContract_iff (adapter : ModelAdapter) (runtime : PythonRuntime) (raw : JsonObject)
    (request : ModelRequest) :
    KeepsContract (Proposes adapter runtime (decode runtime)) (toolCalls raw)
        (normalizeChatCompletions adapter runtime raw request) ↔
      WellShaped (SoundChoice runtime) "choices" raw ∨
        FirstUndecodable (SoundChoice runtime) (UndecodableChoice runtime) "choices" raw :=
  ModelAdapter.keepsContract_iff readChoice_meets readChoice_proposes "choices" raw request "chat_completions"
    Gathered.finishReason "response_id"

end OpenAICompatibleAdapter

theorem normalize_keepsContract_iff (adapter : ModelAdapter) (runtime : PythonRuntime) (raw : JsonObject)
    (request : ModelRequest) :
    (KeepsContract (Proposes adapter runtime (OpenAIResponsesAdapter.decode runtime)) (OpenAIResponsesAdapter.toolCalls raw)
        (OpenAIResponsesAdapter.normalizeResponse adapter runtime raw request) ↔
      WellShaped (OpenAIResponsesAdapter.SoundItem runtime) "output" raw ∨
        FirstUndecodable (OpenAIResponsesAdapter.SoundItem runtime) (OpenAIResponsesAdapter.UndecodableItem runtime)
          "output" raw) ∧
    (KeepsContract (Proposes adapter runtime AnthropicMessagesAdapter.decode) (AnthropicMessagesAdapter.toolCalls raw)
        (AnthropicMessagesAdapter.normalizeResponse adapter runtime raw request) ↔
      WellShaped AnthropicMessagesAdapter.SoundBlock "content" raw) ∧
    (KeepsContract (Proposes adapter runtime (OpenAICompatibleAdapter.decode runtime)) (OpenAICompatibleAdapter.toolCalls raw)
        (OpenAICompatibleAdapter.normalizeChatCompletions adapter runtime raw request) ↔
      WellShaped (OpenAICompatibleAdapter.SoundChoice runtime) "choices" raw ∨
        FirstUndecodable (OpenAICompatibleAdapter.SoundChoice runtime) (OpenAICompatibleAdapter.UndecodableChoice runtime)
          "choices" raw) :=
  ⟨OpenAIResponsesAdapter.normalizeResponse_keepsContract_iff adapter runtime raw request,
    AnthropicMessagesAdapter.normalizeResponse_keepsContract_iff adapter runtime raw request,
    OpenAICompatibleAdapter.normalizeChatCompletions_keepsContract_iff adapter runtime raw request⟩

/-- A runtime that reads no JSON. -/
def plainRuntime : PythonRuntime where
  loads _ := .error .jsonDecodeError
  render _ := ""
  uuid4 := toString

/-- A call of a tool without arguments, spelled as a null. -/
def nullArguments : JsonObject :=
  [(.str "output", .list [.dict [(.str "type", .str "function_call"), (.str "name", .str "f"), (.str "arguments", .null)]])]

theorem null_arguments_break_contract : ¬KeepsContract
    (Proposes ⟨"openai", "gpt"⟩ plainRuntime (OpenAIResponsesAdapter.decode plainRuntime))
    (OpenAIResponsesAdapter.toolCalls nullArguments)
    (OpenAIResponsesAdapter.normalizeResponse ⟨"openai", "gpt"⟩ plainRuntime nullArguments ⟨none⟩) := by
  intro kept
  obtain ⟨_, impossible⟩ := kept.raises .typeError rfl
  cases impossible

end Centroid
