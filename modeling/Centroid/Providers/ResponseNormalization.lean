import Centroid.Lib.TextLines
import Centroid.Providers.RawValues
import Centroid.Runtime.ProviderProposals
import Mathlib.Data.List.DropRight

namespace Centroid

/-- How `json.loads` fails. Only the first of these is a `JSONDecodeError`; the
others are a number of too many digits and a nesting that is too deep. -/
inductive DecodeFailure where
  | jsonDecodeError
  | valueError
  | recursionError

structure ModelRequest where
  scenarioId : Option String

/-- What an adapter is configured with. -/
structure ModelAdapter where
  providerId : String
  modelId : String

/-- What is handed to `ModelToolProposal.create` for one tool item. -/
structure ToolCall where
  proposalId : Json
  name : Json
  arguments : Json

/-- The functions of the runtime that a normalization calls: the reader of
JSON, the text of a value and the new identifiers. -/
structure PythonRuntime where
  loads : String → Except DecodeFailure Json
  render : Json → String
  uuid4 : ℕ → String

/-- `first or second`. -/
def orElse (first second : Json) : Json := if first.pyBool then first else second

def ModelToolProposal.create (name : String) (arguments : Json) (providerId modelId : String) (proposalId : Json)
    (fresh : String) : Except NormalizeError ModelToolProposal := do
  let arguments ← arguments.toDict
  return { proposalId := orElse proposalId (.str fresh), name, arguments, providerId, modelId }

/-- `text or "{}"`. -/
def argumentsText (text : String) : String := if text = "" then "\x7b\x7d" else text

/-- Arguments that are a text are read as JSON. -/
def decodeArguments (loads : String → Except DecodeFailure Json) (message : String) : Json → Except NormalizeError Json
  | .str text =>
    match loads (argumentsText text) with
    | .ok value => .ok value
    | .error .jsonDecodeError => .error (.providerResponse message)
    | .error .valueError => .error .valueError
    | .error .recursionError => .error .recursionError
  | value => .ok value

/-- What the loop over a response has gathered. -/
structure Gathered where
  textParts : List String := []
  proposals : List ModelToolProposal := []
  finishReason : Json := .null

namespace ModelAdapter

variable (self : ModelAdapter) (runtime : PythonRuntime)

def audit (request : ModelRequest) (toolCount : ℕ) (path : String) : ProviderAuditRecord where
  providerId := self.providerId
  modelId := self.modelId
  scenario := request.scenarioId
  capabilityPathUsed := path
  toolProposalCount := toolCount
  safetyDisposition := "pending_centroid_policy"

/-- A proposal for a tool item, behind those there are. -/
def propose (decode : Json → Except NormalizeError Json) (gathered : Gathered) (call : ToolCall) :
    Except NormalizeError Gathered := do
  let arguments ← decode call.arguments
  let proposal ← ModelToolProposal.create (call.name.pyStr runtime.render) arguments self.providerId self.modelId
    call.proposalId (runtime.uuid4 gathered.proposals.length)
  return { gathered with proposals := gathered.proposals ++ [proposal] }

/-- `strip`. -/
def strip (text : String) : String := String.ofList ((text.toList.dropWhile TextLines.isSpace).rdropWhile TextLines.isSpace)

/-- The response made of what was gathered. -/
def respond (raw : JsonObject) (request : ModelRequest) (gathered : Gathered) (path : String) (finishReason : Json)
    (idField : String) : Except NormalizeError ModelResponse := do
  let usage ← (raw.getD "usage" (.dict [])).toDict
  return {
    text := strip ("\n".intercalate (gathered.textParts.filter (· ≠ "")))
    toolProposals := gathered.proposals
    providerId := self.providerId
    modelId := self.modelId
    usage
    finishReason
    providerMetadata := [(.str idField, raw.getD "id" .null)]
    audit := some (self.audit request gathered.proposals.length path) }

end ModelAdapter

namespace OpenAIResponsesAdapter

variable (adapter : ModelAdapter) (runtime : PythonRuntime)

def toolCall (item : JsonObject) : ToolCall where
  proposalId := orElse (item.getD "call_id" .null) (item.getD "id" .null)
  name := item.getD "name" (.str "unknown_tool")
  arguments := item.getD "arguments" (.dict [])

def decode : Json → Except NormalizeError Json :=
  decodeArguments runtime.loads "OpenAI tool arguments were not valid JSON"

def readContent (textParts : List String) (content : Json) : Except NormalizeError (List String) := do
  let content ← content.asDict
  let isText ← (content.getD "type" .null).inTexts ["output_text", "text"]
  return if isText then textParts ++ [(content.getD "text" (.str "")).pyStr runtime.render] else textParts

def readItem (gathered : Gathered) (item : Json) : Except NormalizeError Gathered := do
  let item ← item.asDict
  let itemType := item.getD "type" .null
  if itemType.isStr "message" then
    let contents ← (item.getD "content" (.list [])).iter
    let textParts ← contents.foldlM (readContent runtime) gathered.textParts
    return { gathered with textParts }
  else
    let isTool ← itemType.inTexts ["function_call", "tool_call"]
    if isTool then adapter.propose runtime (decode runtime) gathered (toolCall item)
    else return gathered

def normalizeResponse (raw : JsonObject) (request : ModelRequest) : Except NormalizeError ModelResponse := do
  let items ← (raw.getD "output" (.list [])).iter
  let gathered ← items.foldlM (readItem adapter runtime) {}
  adapter.respond raw request gathered "responses" (raw.getD "status" .null) "response_id"

end OpenAIResponsesAdapter

namespace AnthropicMessagesAdapter

variable (adapter : ModelAdapter) (runtime : PythonRuntime)

def toolCall (block : JsonObject) : ToolCall where
  proposalId := block.getD "id" .null
  name := block.getD "name" (.str "unknown_tool")
  arguments := block.getD "input" (.dict [])

/-- The input of a tool is taken as it is, text included. -/
def decode (input : Json) : Except NormalizeError Json := do
  return .dict (← input.toDict)

def readBlock (gathered : Gathered) (block : Json) : Except NormalizeError Gathered := do
  let block ← block.asDict
  let blockType := block.getD "type" .null
  if blockType.isStr "text" then
    return { gathered with textParts := gathered.textParts ++ [(block.getD "text" (.str "")).pyStr runtime.render] }
  else if blockType.isStr "tool_use" then adapter.propose runtime decode gathered (toolCall block)
  else return gathered

def normalizeResponse (raw : JsonObject) (request : ModelRequest) : Except NormalizeError ModelResponse := do
  let blocks ← (raw.getD "content" (.list [])).iter
  let gathered ← blocks.foldlM (readBlock adapter runtime) {}
  adapter.respond raw request gathered "messages" (raw.getD "stop_reason" .null) "message_id"

end AnthropicMessagesAdapter

namespace OpenAICompatibleAdapter

variable (adapter : ModelAdapter) (runtime : PythonRuntime)

def toolCall (item function : JsonObject) : ToolCall where
  proposalId := item.getD "id" .null
  name := function.getD "name" (.str "unknown_tool")
  arguments := function.getD "arguments" (.dict [])

def decode : Json → Except NormalizeError Json :=
  decodeArguments runtime.loads "OpenAI-compatible tool arguments were not valid JSON"

def readToolCall (gathered : Gathered) (item : Json) : Except NormalizeError Gathered := do
  let item ← item.asDict
  let function ← (item.getD "function" (.dict [])).asDict
  adapter.propose runtime (decode runtime) gathered (toolCall item function)

/-- Only here a null stands for no tool calls. -/
def toolCallsOf (message : JsonObject) : Json := orElse (message.getD "tool_calls" (.list [])) (.list [])

def readChoice (gathered : Gathered) (choice : Json) : Except NormalizeError Gathered := do
  let choice ← choice.asDict
  let finishReason := choice.getD "finish_reason" gathered.finishReason
  let message ← (choice.getD "message" (.dict [])).asDict
  let content := message.getD "content" .null
  let textParts :=
    if content.pyBool then gathered.textParts ++ [content.pyStr runtime.render] else gathered.textParts
  let toolCalls ← (toolCallsOf message).iter
  toolCalls.foldlM (readToolCall adapter runtime) { gathered with textParts, finishReason }

def normalizeChatCompletions (raw : JsonObject) (request : ModelRequest) : Except NormalizeError ModelResponse := do
  let choices ← (raw.getD "choices" (.list [])).iter
  let gathered ← choices.foldlM (readChoice adapter runtime) {}
  adapter.respond raw request gathered "chat_completions" gathered.finishReason "response_id"

end OpenAICompatibleAdapter

end Centroid
