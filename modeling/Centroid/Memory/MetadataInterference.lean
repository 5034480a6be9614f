import Centroid.Memory.Rebuild

namespace Centroid

/-- The event type that the metadata of an event report, or else its own. -/
def Event.reportedType (event : Event) : String := (event.metadata.get? "event_type").getD event.eventType

/-- The timestamp that they report, or else its own. -/
def Event.reportedTimestamp (event : Event) : String := (event.metadata.get? "timestamp").getD event.timestamp

/-- Events that differ at most in metadata, and report the same type and the
same instant. -/
structure Event.SameReading (tools : TextTools) (a b : Event) : Prop where
  rest : b = { a with metadata := b.metadata }
  eventType : a.reportedType = b.reportedType
  instant : instantOf tools a.reportedTimestamp = instantOf tools b.reportedTimestamp

theorem Event.SameReading.refl (tools : TextTools) (event : Event) : event.SameReading tools event := ⟨rfl, rfl, rfl⟩

namespace MemoryStore

section Entries

variable (tools : TextTools) (event : Event)

theorem eventType_entryOf : (entryOf tools event).eventType = event.reportedType := by
  show (event.indexMetadata.get? "event_type").getD "" = event.reportedType
  rw [Event.get?_indexMetadata, Event.reportedType]
  cases event.metadata.get? "event_type" with
  | none => rfl
  | some value => rfl

theorem timestamp_entryOf : (entryOf tools event).timestamp = event.reportedTimestamp := by
  show (event.indexMetadata.get? "timestamp").getD "" = event.reportedTimestamp
  rw [Event.get?_indexMetadata, Event.reportedTimestamp]
  cases event.metadata.get? "timestamp" with
  | none => rfl
  | some value => rfl

end Entries

variable {tools : TextTools}

theorem alike_of_sameReading {a b : Event} (same : a.SameReading tools b) : (entryOf tools a).Alike tools (entryOf tools b) := by
  obtain ⟨rest, eventType, instant⟩ := same
  have eventTypes : (entryOf tools a).eventType = (entryOf tools b).eventType := by
    rw [eventType_entryOf, eventType_entryOf, eventType]
  have instants : instantOf tools (entryOf tools a).timestamp = instantOf tools (entryOf tools b).timestamp := by
    rw [timestamp_entryOf, timestamp_entryOf, instant]
  clear eventType instant
  rw [rest] at eventTypes instants ⊢
  exact ⟨rfl, rfl, rfl, rfl, rfl, eventTypes, instants⟩

/-- Calls that differ at most in the metadata of the event they append. -/
inductive Call.Paired (related : Event → Event → Prop) : Call → Call → Prop where
  | append {a b : Event} (both : related a b) : Paired related (.append a) (.append b)
  | search (now : ℚ) (query : String) (topK : ℤ) : Paired related (.search now query topK) (.search now query topK)
  | reopen : Paired related .reopen .reopen

theorem Call.Paired.refl (tools : TextTools) (made : Call) : made.Paired (Event.SameReading tools) made := by
  cases made with
  | append event => exact .append (.refl tools event)
  | search now query topK => exact .search now query topK
  | reopen => exact .reopen

/-- What a store answers at an instant. -/
def answers (tools : TextTools) (store : MemoryStore) (now : ℚ) (query : String) (topK : ℤ) :
    List SearchResult × (List String × List String) × (Tier → ℕ) :=
  ((store.search tools now query topK).2, store.compact tools now, store.tierCounts tools now)

theorem Alike.answers {a b : MemoryStore} (alike : Alike tools a b) (provenance : a.provenance = b.provenance) :
    answers tools a = answers tools b := by
  funext now query topK
  rw [MemoryStore.answers, MemoryStore.answers, (alike.search provenance now query topK).1, alike.compact now,
    alike.tierCounts now]

/-- An entry more on each side. -/
theorem Alike.append {a b : MemoryStore} (alike : Alike tools a b) {event event' : Event}
    (same : event.SameReading tools event') (file file' : File) :
    Alike tools (a.append tools file event).1 (b.append tools file' event').1 := by
  have entries : List.Forall₂ (IndexEntry.Alike tools) (a.index.entries ++ [entryOf tools event])
      (b.index.entries ++ [entryOf tools event']) :=
    List.rel_append alike.entries (.cons (alike_of_sameReading same) .nil)
  refine ⟨entries, ?_, alike.pyramid⟩
  show computeIdf tools.math ((a.index.entries ++ [entryOf tools event]).map IndexEntry.tokens) = computeIdf tools.math _
  rw [IndexEntry.tokens_of_alike entries]
  rfl

section Runs

variable (scanOther : List Char → Option (Json × List Char)) (drawn : Json → String × String) {capacity : TierCapacity}

/-- Two stores that have gone the same way, up to metadata that nothing reads. -/
structure Alongside (tools : TextTools) (capacity : TierCapacity) (left right : MemoryStore × File) : Prop where
  stores : Alike tools left.1 right.1
  provenance : left.1.provenance = right.1.provenance
  journals : ∃ events events', List.Forall₂ (Event.SameReading tools) events events' ∧
    Holds tools capacity events left ∧ Holds tools capacity events' right

theorem Alongside.call {left right : MemoryStore × File} (alongside : Alongside tools capacity left right) {made made' : Call}
    (same : Call.Paired (Event.SameReading tools) made made') :
    ∃ after after', call tools scanOther drawn capacity left made = some after ∧
      call tools scanOther drawn capacity right made' = some after' ∧ Alongside tools capacity after after' := by
  obtain ⟨events, events', journals, holds, holds'⟩ := alongside.journals
  cases same with
  | append both =>
    obtain ⟨after, first, later⟩ := holds.call scanOther drawn (.append _)
    obtain ⟨after', first', later'⟩ := holds'.call scanOther drawn (.append _)
    cases first
    cases first'
    exact ⟨_, _, rfl, rfl, alongside.stores.append both _ _, alongside.provenance,
      _, _, List.rel_append journals (.cons both .nil), later, later'⟩
  | search now query topK =>
    obtain ⟨after, first, later⟩ := holds.call scanOther drawn (.search now query topK)
    obtain ⟨after', first', later'⟩ := holds'.call scanOther drawn (.search now query topK)
    cases first
    cases first'
    have stores : Alike tools (left.1.search tools now query topK).1 (right.1.search tools now query topK).1 :=
      ⟨alongside.stores.entries, alongside.stores.idf, alongside.stores.pyramid⟩
    exact ⟨_, _, rfl, rfl, stores, (alongside.stores.search alongside.provenance now query topK).2,
      _, _, List.rel_append journals .nil, later, later'⟩
  | reopen =>
    obtain ⟨store, opened, anew, forgotten⟩ := construct_journal tools scanOther drawn capacity events
    obtain ⟨store', opened', anew', forgotten'⟩ := construct_journal tools scanOther drawn capacity events'
    rw [MemoryStore.call, MemoryStore.call, holds.file, holds'.file, opened, opened']
    have kept : List.Forall₂ (fun event event' => (entryOf tools event).Alike tools (entryOf tools event'))
        (events.drop (events.length - 5000)) (events'.drop (events'.length - 5000)) := by
      rw [journals.length_eq]
      exact List.forall₂_drop _ (journals.imp fun _ _ both => alike_of_sameReading both)
    exact ⟨_, _, rfl, rfl, anew.alike anew' kept, forgotten.trans forgotten'.symm,
      _, _, journals, ⟨rfl, _, Nat.le_refl _, anew⟩, ⟨rfl, _, Nat.le_refl _, anew'⟩⟩

/-- Runs that differ at most in metadata that nothing reads give the same
answers. -/
theorem answers_runCalls {calls calls' : List Call} (same : List.Forall₂ (Call.Paired (Event.SameReading tools)) calls calls') :
    (runCalls tools scanOther drawn capacity calls).map (fun state => answers tools state.1) =
      (runCalls tools scanOther drawn capacity calls').map fun state => answers tools state.1 := by
  have steps : ∀ left right, Alongside tools capacity left right →
      (calls.foldlM (MemoryStore.call tools scanOther drawn capacity) left).map (fun state => answers tools state.1) =
        (calls'.foldlM (MemoryStore.call tools scanOther drawn capacity) right).map fun state => answers tools state.1 := by
    induction same with
    | nil => exact fun left right alongside => congrArg some (alongside.stores.answers alongside.provenance)
    | cons first _ ih =>
      intro left right alongside
      obtain ⟨after, after', made, made', later⟩ := alongside.call scanOther drawn first
      rw [List.foldlM_cons, List.foldlM_cons, made, made']
      exact ih _ _ later
  exact steps _ _ ⟨⟨.nil, rfl, rfl⟩, rfl, [], [], .nil, holds_fresh, holds_fresh⟩

end Runs

end MemoryStore

end Centroid
