import Centroid.Memory.Event
import Centroid.Memory.MemoryPyramid

namespace Centroid

/-- A single result of a memory search. -/
structure SearchResult where
  docId : String
  score : ℚ
  content : String
  source : String
  eventType : String
  salience : ℚ
  provenanceWeight : ℚ
  provenanceRecord : ProvenanceRecord

structure MemoryStore where
  index : TfidfIndex
  pyramid : MemoryPyramid
  provenance : Dict String ProvenanceRecord

/-- What the index holds beside the text of an event: the metadata of the event
over its type and time. -/
def Event.indexMetadata (event : Event) : Dict String String :=
  LoadLoop.assign ((Dict.empty.set "event_type" event.eventType).set "timestamp" event.timestamp) event.metadata.entries

theorem Event.get?_indexMetadata (event : Event) (key : String) : event.indexMetadata.get? key =
    (event.metadata.get? key).or
      (((Dict.empty.set "event_type" event.eventType).set "timestamp" event.timestamp).get? key) :=
  LoadLoop.get?_assign event.metadata.distinct _ key

namespace MemoryStore

/-- The text of the file, none while it does not exist. -/
abbrev File := Option (List Char)

section Index

variable (tools : TextTools)

/-- The entry of an event. -/
def entryOf (event : Event) : IndexEntry :=
  TfidfIndex.entryOf tools tools.math event.eventId (event.eventType ++ ": " ++ event.content) event.source event.indexMetadata

def indexEvent (index : TfidfIndex) (event : Event) : TfidfIndex :=
  index.add tools tools.math event.eventId (event.eventType ++ ": " ++ event.content) event.source event.indexMetadata

def append (self : MemoryStore) (file : File) (event : Event) : MemoryStore × File :=
  ({ self with index := (indexEvent tools self.index event).recomputeIdf tools.math },
    some (file.getD [] ++ event.line ++ ['\n']))

end Index

section Open

variable (tools : TextTools) (scanOther : List Char → Option (Json × List Char)) (drawn : Json → String × String)

/-- `tail`, none where it raises or finds what is no event. -/
def tail (file : File) (limit : ℤ) : Option (List Event) :=
  match file with
  | none => some []
  | some text =>
    let lines := sliceFrom (-limit) (TextLines.splitLines text)
    (lines.filter fun line => !TextLines.isBlankLine line).mapM fun line =>
      (JsonText.loads scanOther line).bind (Event.ofJson drawn)

/-- `_rebuild_index`. -/
def rebuildIndex (file : File) : Option TfidfIndex :=
  match file with
  | none => some .empty
  | some text => (tail scanOther drawn (some text) 5000).map fun events =>
      (events.foldl (indexEvent tools) .empty).recomputeIdf tools.math

/-- `MemoryStore(path, capacity=capacity)`. -/
def construct (capacity : TierCapacity) (file : File) : Option MemoryStore :=
  (rebuildIndex tools scanOther drawn file).map fun index => ⟨index, ⟨capacity, defaultWeights⟩, ∅⟩

end Open

section Query

variable (tools : TextTools) (now : ℚ)

/-- The record of a document that is retrieved once more. -/
def retrieve (provenance : Dict String ProvenanceRecord) (entry : IndexEntry) : ProvenanceRecord :=
  match provenance.get? entry.docId with
  | some record => { record with
      retrievalCount := record.retrievalCount + 1
      sources := record.sources ++ [entry.source]
      lastRetrieved := tools.isoformat now }
  | none => ⟨entry.docId, 1, [entry.source], tools.isoformat now⟩

/-- The loop over what the index finds. The source reads the clock at every
entry, and here once. -/
def collect : List (IndexEntry × ℚ) → Dict String ProvenanceRecord → Dict String ProvenanceRecord × List SearchResult
  | [], provenance => (provenance, [])
  | (entry, score) :: rest, provenance =>
    let record := retrieve tools now provenance entry
    let result : SearchResult := {
      docId := entry.docId
      score := score
      content := entry.text
      source := entry.source
      eventType := entry.eventType
      salience := computeSalience tools defaultWeights entry
      provenanceWeight := computeProvenanceWeight tools now record
      provenanceRecord := record }
    let (provenance, results) := collect rest (provenance.set entry.docId record)
    (provenance, result :: results)

def search (self : MemoryStore) (query : String) (topK : ℤ) : MemoryStore × List SearchResult :=
  let raw := self.index.search tools tools.math query topK (some (retrievalScorer tools defaultWeights))
  let (provenance, results) := collect tools now raw self.provenance
  ({ self with provenance := provenance }, results)

/-- The identifiers of what is retained and of what is evicted. -/
def compact (self : MemoryStore) : List String × List String :=
  let (retained, evicted) := self.pyramid.compact tools now self.index.entries
  (retained.map IndexEntry.docId, evicted.map IndexEntry.docId)

def tierCounts (self : MemoryStore) : Tier → ℕ :=
  MemoryPyramid.tierCounts (self.pyramid.classifyAll tools now self.index.entries)

end Query

end MemoryStore

end Centroid
