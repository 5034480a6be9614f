import Centroid.Config.AgentConfig
import Centroid.Memory.Store

namespace Centroid

def sensitiveMetadataKeys : List String := ["customer_id", "contact_email", "api_key", "token"]

structure MemoryRetentionResult where
  retentionMode : String
  retainedEvents : List Event
  redactedFields : List String
  primaryRecord : String

/-- What `persist` raises: about the retention mode, or about a file that holds
no events. -/
inductive RetentionError where
  | valueError (message : String)
  | unreadable

structure ConfiguredMemoryManager where
  policy : MemoryPolicy

namespace ConfiguredMemoryManager

variable (self : ConfiguredMemoryManager) (generated : String × String)

/-- The summary event, with the identifier and the time generated for it. -/
def summaryOf (source : Event) : Event where
  eventType := "task_summary"
  content := "summary: " ++ source.content
  source := source.source
  eventId := generated.1
  timestamp := generated.2
  metadata :=
    let summaryMetadata := (Dict.empty.set "memory_kind" "summary").set "summary" "true"
    match source.metadata.get? "provenance" with
    | some provenance =>
      if self.policy.retainProvenance then summaryMetadata.set "provenance" provenance else summaryMetadata
    | none => summaryMetadata

/-- `_filter`. -/
def filter (events : List Event) : Except RetentionError (List Event) :=
  if self.policy.retentionMode = "session_history" then .ok events
  else if self.policy.retentionMode = "explicit_checkpoints" then
    .ok (events.filter fun event => event.metadata.get? "memory_kind" = some "checkpoint")
  else if self.policy.retentionMode = "audit_only" then
    .ok (events.filter fun event => event.metadata.get? "memory_kind" = some "audit")
  else if self.policy.retentionMode = "summary_only" then
    .ok (events.getLast?.map (self.summaryOf generated)).toList
  else .error (.valueError ("unsupported memory retention mode: " ++ self.policy.retentionMode))

/-- The redaction of one key of the metadata. -/
def redactKey (state : Dict String String × List String) (key : String) : Dict String String × List String :=
  if key ∈ sensitiveMetadataKeys then (state.1.set key "[redacted]", state.2 ++ [key]) else state

/-- The metadata without the provenance that is not retained. -/
def retainedMetadata (metadata : Dict String String) : Dict String String :=
  if self.policy.retainProvenance then metadata else metadata.erase "provenance"

/-- `_sanitize_event`. -/
def sanitizeEvent (event : Event) : Event × List String :=
  let metadata := self.retainedMetadata event.metadata
  let (metadata, redactedFields) :=
    if self.policy.retainSensitiveData then (metadata, []) else metadata.keys.foldl redactKey (metadata, [])
  ({ event with metadata := metadata }, redactedFields)

/-- `sorted(set(names))`. -/
def sortedSet (names : List String) : List String := names.dedup.mergeSort

/-- The result of cleaned events, each with the keys that were redacted. -/
def resultOf (cleaned : List (Event × List String)) : MemoryRetentionResult :=
  let redactedFields := cleaned.flatMap Prod.snd
  let sanitized := cleaned.map Prod.fst
  let sanitized :=
    if 0 < self.policy.maxSessionEvents then sliceFrom (-self.policy.maxSessionEvents) sanitized else sanitized
  { retentionMode := self.policy.retentionMode
    retainedEvents := sanitized
    redactedFields := sortedSet redactedFields
    primaryRecord := (sanitized.getLast?.map Event.eventType).getD "none" }

def retain (events : List Event) : Except RetentionError MemoryRetentionResult := do
  let retained ← self.filter generated events
  return self.resultOf (retained.map self.sanitizeEvent)

section Persist

variable (tools : TextTools) (scanOther : List Char → Option (Json × List Char)) (drawn : Json → String × String)

/-- `persist`, with what it leaves of the file. -/
def persist (file : MemoryStore.File) (events : List Event) :
    Except RetentionError (MemoryRetentionResult × MemoryStore.File) := do
  let result ← self.retain generated events
  match MemoryStore.construct tools scanOther drawn {} file with
  | none => .error .unreadable
  | some store =>
    let (_, file) := result.retainedEvents.foldl (fun (state : MemoryStore × MemoryStore.File) event =>
      state.1.append tools state.2 event) (store, file)
    return (result, file)

end Persist

end ConfiguredMemoryManager

end Centroid
