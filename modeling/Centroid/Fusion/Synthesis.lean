import Centroid.Fusion.BridgeDetector
import Centroid.Memory.TfidfIndex
import Centroid.Providers.LiveCalls
import Mathlib.Data.Finset.Sort

namespace Centroid

/-- A description of a bridge, with whether the server gave it. -/
structure SynthesisResult where
  bridge : BridgeCandidate
  synthesisText : String
  llmAvailable : Bool
  generatedAt : ℚ

/-- A request that is posted to the server. -/
structure OllamaCall where
  url : String
  payload : Json

/-- What a posted request comes to: the text of a response, an error of the kind
that is caught, or any other exception. -/
inductive OllamaReply where
  | body (text : String)
  | osError
  | raised (exc : String)

/-- What a synthesis raises. -/
inductive SynthesisError where
  | unknownUrlType (url : String)
  | response (error : NormalizeError)
  | raised (exc : String)

/-- What a synthesizer runs in. The reply to a request may depend on the requests
before it. -/
structure SynthesisWorld where
  respond : List OllamaCall → OllamaCall → OllamaReply
  loads : String → Except DecodeFailure Json
  clock : ℕ → ℚ

/-- `sorted` of a set. -/
def sorted {α : Type} [LinearOrder α] (items : Finset α) : List α := items.sort

structure BridgeSynthesizer where
  ollamaHost : String
  model : String

namespace BridgeSynthesizer

def init (env : String → Option String) (ollamaHost : Option String) : BridgeSynthesizer where
  ollamaHost :=
    match ollamaHost.filter (· ≠ "") with
    | some host => host
    | none =>
      match (env "OLLAMA_HOST").filter (· ≠ "") with
      | some host => host
      | none => (env "CENTROID_OLLAMA_URL").getD ""
  model := (env "CENTROID_OLLAMA_MODEL").getD "phi4-mini:latest"

/-- `sorted(a & b)` of the concepts of the two modules. -/
def sharedIn (conceptGraph : ConceptGraph) (bridge : BridgeCandidate) : List String :=
  sorted
    ((conceptGraph.moduleIndex.get? bridge.moduleA).getD ∅ ∩ (conceptGraph.moduleIndex.get? bridge.moduleB).getD ∅)

/-- The text that needs no server. -/
def fallbackText (bridge : BridgeCandidate) (sharedConcepts : List String) : String :=
  "Modules '" ++ bridge.moduleA ++ "' and '" ++ bridge.moduleB ++ "' share " ++ toString bridge.sharedConceptCount ++
    " concepts including: " ++ ", ".intercalate (sharedConcepts.take 3) ++ "."

variable (self : BridgeSynthesizer) (world : SynthesisWorld)

def url : String := String.ofList (self.ollamaHost.toList.rdropWhile (· = '/')) ++ "/api/chat"

def prompt (bridge : BridgeCandidate) (concepts : List String) : String :=
  "Module '" ++ bridge.moduleA ++ "' and module '" ++ bridge.moduleB ++ "' share these concepts: " ++
    ", ".intercalate (concepts.take 5) ++
    ".\nIn one sentence, describe the latent architectural relationship between them."

def ollamaCall (bridge : BridgeCandidate) (concepts : List String) : OllamaCall where
  url := self.url
  payload := .dict
    [(.str "model", .str self.model),
      (.str "messages", .list [.dict [(.str "role", .str "user"), (.str "content", .str (prompt bridge concepts))]]),
      (.str "stream", .bool false),
      (.str "options", .dict [(.str "num_predict", .num (.int 64)), (.str "temperature", .num (.float (.finite (3 / 10))))])]

/-- The content of a response, if it has any. -/
def readMessage (data : Json) : Except NormalizeError (Option String) := do
  let data ← data.asDict
  let msg ← (data.getD "message" (.dict [])).asDict
  match orElse (msg.getD "content" (.str "")) (msg.getD "thinking" (.str "")) with
  | .str content => return if content = "" then none else some (ModelAdapter.strip content)
  | content => if content.pyBool then .error .attributeError else return none

/-- What a reply tells. Errors of the connection and texts that are no JSON tell
nothing. -/
def readReply (loads : String → Except DecodeFailure Json) : OllamaReply → Except SynthesisError (Option String)
  | .osError => .ok none
  | .raised exc => .error (.raised exc)
  | .body text =>
    match loads text with
    | .error .recursionError => .error (.response .recursionError)
    | .error _ => .ok none
    | .ok data =>
      match readMessage data with
      | .error e => .error (.response e)
      | .ok told => .ok told

/-- `_call_ollama`, with the requests made so far. -/
def callOllama (made : List OllamaCall) (bridge : BridgeCandidate) (concepts : List String) :
    List OllamaCall × Except SynthesisError (Option String) :=
  let call := self.ollamaCall bridge concepts
  if urlTyped call.url then (made ++ [call], readReply world.loads (world.respond made call))
  else (made, .error (.unknownUrlType call.url))

/-- `synthesize`, with the requests made so far. -/
def synthesize (now : ℚ) (made : List OllamaCall) (bridge : BridgeCandidate) (conceptGraph : ConceptGraph) :
    List OllamaCall × Except SynthesisError SynthesisResult :=
  let sharedConcepts := sharedIn conceptGraph bridge
  let fallback : SynthesisResult := ⟨bridge, fallbackText bridge sharedConcepts, false, now⟩
  if self.ollamaHost = "" then (made, .ok fallback)
  else
    match self.callOllama world made bridge sharedConcepts with
    | (made, .error e) => (made, .error e)
    | (made, .ok none) => (made, .ok fallback)
    | (made, .ok (some text)) => (made, .ok ⟨bridge, text, true, now⟩)

/-- The bridges one after the other, until one raises. -/
def synthesizeEach (conceptGraph : ConceptGraph) :
    ℕ → List OllamaCall → List BridgeCandidate → List OllamaCall × Except SynthesisError (List SynthesisResult)
  | _, made, [] => (made, .ok [])
  | i, made, bridge :: bridges =>
    match self.synthesize world (world.clock i) made bridge conceptGraph with
    | (made, .error e) => (made, .error e)
    | (made, .ok result) =>
      match synthesizeEach conceptGraph (i + 1) made bridges with
      | (made, .error e) => (made, .error e)
      | (made, .ok results) => (made, .ok (result :: results))

/-- `synthesize_all`: the bridges of the highest scores. -/
def synthesizeAll (bridges : List BridgeCandidate) (conceptGraph : ConceptGraph) (maxBridges : ℤ := 5) :
    List OllamaCall × Except SynthesisError (List SynthesisResult) :=
  let top := sliceTo maxBridges (bridges.mergeSort fun c d => decide (d.bridgeScore ≤ c.bridgeScore))
  self.synthesizeEach world conceptGraph 0 [] top

end BridgeSynthesizer

end Centroid
