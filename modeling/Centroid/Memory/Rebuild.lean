import Centroid.Memory.AlikeEntries

namespace Centroid

/-- Entries with the same fields, the metadata as maps. -/
structure IndexEntry.Same (a b : IndexEntry) : Prop where
  docId : a.docId = b.docId
  text : a.text = b.text
  source : a.source = b.source
  tokens : a.tokens = b.tokens
  tf : a.tf = b.tf
  metadata : ∀ key, a.metadata.get? key = b.metadata.get? key

theorem IndexEntry.Same.refl (a : IndexEntry) : a.Same a := ⟨rfl, rfl, rfl, rfl, rfl, fun _ => rfl⟩

theorem IndexEntry.Same.alike {a b : IndexEntry} (same : a.Same b) (tools : TextTools) : a.Alike tools b where
  docId := same.docId
  text := same.text
  source := same.source
  tokens := same.tokens
  tf := same.tf
  eventType := by rw [eventType, eventType, same.metadata]
  instant := by rw [timestamp, timestamp, same.metadata]

namespace MemoryStore

section Journal

variable (tools : TextTools)

/-- The file of the events appended so far. -/
def journal (events : List Event) : File :=
  if events = [] then none else some (events.flatMap fun event => event.line ++ ['\n'])

theorem journal_append (events : List Event) (event : Event) :
    some ((journal events).getD [] ++ event.line ++ ['\n']) = journal (events ++ [event]) := by
  have some : events ++ [event] ≠ [] := List.append_ne_nil_of_right_ne_nil _ (List.cons_ne_nil _ _)
  rw [journal, journal, if_neg some, List.flatMap_append, List.flatMap_singleton, List.append_assoc]
  split
  · next none => rw [none, Option.getD_none, List.flatMap_nil]
  · rw [Option.getD_some]

theorem file_foldl_append (store : MemoryStore) (old events : List Event) :
    (events.foldl (fun (state : MemoryStore × File) event => state.1.append tools state.2 event) (store, journal old)).2 =
      journal (old ++ events) := by
  induction events generalizing store old with
  | nil => rw [List.append_nil, List.foldl_nil]
  | cons event events ih =>
    rw [List.foldl_cons]
    have file : store.append tools (journal old) event =
        ((store.append tools (journal old) event).1, journal (old ++ [event])) :=
      Prod.ext rfl (journal_append old event)
    rw [file, ih, List.append_assoc, List.singleton_append]

variable (scanOther : List Char → Option (Json × List Char)) (drawn : Json → String × String)

/-- What is read of the file is the last events, and all of them where the limit
is zero. -/
theorem tail_journal (events : List Event) (limit : ℕ) : tail scanOther drawn (journal events) limit =
    some ((if limit = 0 then events else events.drop (events.length - limit)).map Event.stored) := by
  rw [journal]
  split
  · next none =>
    rw [none, List.drop_nil, ite_self]
    rfl
  · have lines := TextLines.splitLines_flatMap Event.line events fun event _ => event.line_plain
    have kept : ∀ read : List Event, (read.map Event.line).filter (fun line => !TextLines.isBlankLine line) =
        read.map Event.line := by
      refine fun read => List.filter_eq_self.mpr fun line listed => ?_
      obtain ⟨event, -, rfl⟩ := List.mem_map.mp listed
      rw [event.line_not_blank]
      rfl
    have decoded : (fun line => (JsonText.loads scanOther line).bind (Event.ofJson drawn)) ∘ Event.line =
        fun event => pure event.stored :=
      funext fun event => event.ofJson_loads_line scanOther drawn
    rw [tail, lines, sliceFrom_map, sliceFrom_neg]
    rw [kept, List.mapM_map, decoded]
    exact List.mapM_pure

theorem tail_journal_of_pos (events : List Event) {limit : ℕ} (positive : 0 < limit) :
    tail scanOther drawn (journal events) limit = some ((events.drop (events.length - limit)).map Event.stored) := by
  rw [tail_journal, if_neg positive.ne']

variable {tools}

/-- Whatever else a step does to the index. -/
theorem entries_foldl {step : TfidfIndex → Event → TfidfIndex}
    (adds : ∀ index event, (step index event).entries = index.entries ++ [entryOf tools event]) (events : List Event)
    (index : TfidfIndex) : (events.foldl step index).entries = index.entries ++ events.map (entryOf tools) := by
  induction events generalizing index with
  | nil => exact (List.append_nil _).symm
  | cons event events ih =>
    rw [List.foldl_cons, ih, adds, List.map_cons]
    exact (List.append_cons index.entries _ _).symm

theorem entries_foldl_indexEvent (events : List Event) (index : TfidfIndex) :
    (events.foldl (indexEvent tools) index).entries = index.entries ++ events.map (entryOf tools) :=
  entries_foldl (fun _ _ => rfl) events index

/-- The entry of an event that is read back is that of the event. -/
theorem entryOf_stored (event : Event) : (entryOf tools event.stored).Same (entryOf tools event) where
  docId := rfl
  text := rfl
  source := rfl
  tokens := rfl
  tf := rfl
  metadata key := by
    show event.stored.indexMetadata.get? key = event.indexMetadata.get? key
    rw [Event.get?_indexMetadata, Event.get?_indexMetadata]
    exact congrArg (Option.or · _) (get?_sortedMetadata event.metadata key)

end Journal

/-- A call on the store of a path. -/
inductive Call where
  | append (event : Event)
  | search (now : ℚ) (query : String) (topK : ℤ)
  | reopen

/-- The events that a call appends. -/
def Call.appended : Call → List Event
  | .append event => [event]
  | .search _ _ _ => []
  | .reopen => []

section Runs

variable (tools : TextTools) (scanOther : List Char → Option (Json × List Char)) (drawn : Json → String × String)
  (capacity : TierCapacity)

/-- What a call leaves of the store and the file. -/
def call (state : MemoryStore × File) : Call → Option (MemoryStore × File)
  | .append event => some (state.1.append tools state.2 event)
  | .search now query topK => some ((state.1.search tools now query topK).1, state.2)
  | .reopen => (construct tools scanOther drawn capacity state.2).map fun store => (store, state.2)

/-- The calls on the store of a path where there is no file yet. -/
def runCalls (calls : List Call) : Option (MemoryStore × File) := do
  let store ← construct tools scanOther drawn capacity none
  calls.foldlM (call tools scanOther drawn capacity) (store, none)

/-- The entries of a store are those of some events, with their weights. -/
structure Indexes (events : List Event) (store : MemoryStore) : Prop where
  entries : List.Forall₂ IndexEntry.Same store.index.entries (events.map (entryOf tools))
  idf : store.index.idf = computeIdf tools.math (store.index.entries.map IndexEntry.tokens)
  pyramid : store.pyramid = ⟨capacity, defaultWeights⟩

/-- The store and the file after some events: the file has all of them, the
index the last of them, and all as long as a rebuilding reads all. -/
structure Holds (events : List Event) (state : MemoryStore × File) : Prop where
  file : state.2 = journal events
  index : ∃ start ≤ events.length - 5000, Indexes tools capacity (events.drop start) state.1

theorem rebuildIndex_of_tail {text : List Char} {events : List Event}
    (read : tail scanOther drawn (some text) 5000 = some events) :
    rebuildIndex tools scanOther drawn (some text) =
      some ((events.foldl (indexEvent tools) .empty).recomputeIdf tools.math) := by
  rw [rebuildIndex, read]
  rfl

theorem indexes_stored (events : List Event) : Indexes tools capacity events
    ⟨((events.map Event.stored).foldl (indexEvent tools) .empty).recomputeIdf tools.math, ⟨capacity, defaultWeights⟩, ∅⟩ where
  entries := by
    show List.Forall₂ IndexEntry.Same ((events.map Event.stored).foldl (indexEvent tools) .empty).entries _
    rw [entries_foldl_indexEvent, List.map_map]
    show List.Forall₂ IndexEntry.Same (events.map (entryOf tools ∘ Event.stored)) _
    rw [List.forall₂_map_left_iff, List.forall₂_map_right_iff, List.forall₂_same]
    exact fun event _ => entryOf_stored event
  idf := rfl
  pyramid := rfl

/-- A store on the file of some events has the last 5000 of them, and nothing
retrieved yet. -/
theorem construct_journal (events : List Event) : ∃ store,
    construct tools scanOther drawn capacity (journal events) = some store ∧
      Indexes tools capacity (events.drop (events.length - 5000)) store ∧ store.provenance = ∅ := by
  have read : tail scanOther drawn (journal events) 5000 = some ((events.drop (events.length - 5000)).map Event.stored) :=
    tail_journal_of_pos scanOther drawn events (by omega : 0 < 5000)
  have indexed := indexes_stored tools capacity (events.drop (events.length - 5000))
  by_cases none : events = []
  · rw [none, List.drop_nil] at indexed ⊢
    exact ⟨_, rfl, indexed, rfl⟩
  · rw [journal, if_neg none] at read ⊢
    rw [construct, rebuildIndex_of_tail tools scanOther drawn read]
    exact ⟨_, rfl, indexed, rfl⟩

variable {tools capacity}

theorem Indexes.append {events : List Event} {store : MemoryStore} (indexes : Indexes tools capacity events store)
    (file : File) (event : Event) : Indexes tools capacity (events ++ [event]) (store.append tools file event).1 where
  entries := by
    rw [List.map_append]
    exact List.rel_append indexes.entries (.cons (IndexEntry.Same.refl _) .nil)
  idf := rfl
  pyramid := indexes.pyramid

theorem holds_fresh : Holds tools capacity [] (⟨.empty, ⟨capacity, defaultWeights⟩, ∅⟩, none) :=
  ⟨rfl, 0, Nat.le_refl _, .nil, rfl, rfl⟩

/-- A call succeeds and appends its events, whatever it is. -/
theorem Holds.call {events : List Event} {state : MemoryStore × File} (holds : Holds tools capacity events state) (made : Call) :
    ∃ after, MemoryStore.call tools scanOther drawn capacity state made = some after ∧
      Holds tools capacity (events ++ made.appended) after := by
  obtain ⟨start, old, indexes⟩ := holds.index
  cases made with
  | append event =>
    have later := indexes.append state.2 event
    have inside : start ≤ events.length := by omega
    rw [← List.drop_append_of_le_length inside] at later
    refine ⟨_, rfl, ?_, start, ?_, later⟩
    · show some (state.2.getD [] ++ event.line ++ ['\n']) = _
      rw [holds.file]
      exact journal_append events event
    · have longer : events.length ≤ (events ++ [event]).length := (List.sublist_append_left _ _).length_le
      exact old.trans (Nat.sub_le_sub_right longer 5000)
  | search now query topK =>
    rw [Call.appended, List.append_nil]
    exact ⟨_, rfl, holds.file, start, old, indexes.entries, indexes.idf, indexes.pyramid⟩
  | reopen =>
    obtain ⟨store, opened, anew, -⟩ := construct_journal tools scanOther drawn capacity events
    rw [Call.appended, List.append_nil, MemoryStore.call, holds.file, opened]
    exact ⟨_, rfl, rfl, _, Nat.le_refl _, anew⟩

theorem Holds.calls {events : List Event} {state : MemoryStore × File} (holds : Holds tools capacity events state)
    (calls : List Call) : ∃ after, calls.foldlM (MemoryStore.call tools scanOther drawn capacity) state = some after ∧
      Holds tools capacity (events ++ calls.flatMap Call.appended) after := by
  induction calls generalizing events state with
  | nil =>
    rw [List.flatMap_nil, List.append_nil]
    exact ⟨state, rfl, holds⟩
  | cons made calls ih =>
    obtain ⟨between, first, then_⟩ := holds.call scanOther drawn made
    obtain ⟨after, rest, last⟩ := ih then_
    rw [List.flatMap_cons, ← List.append_assoc]
    refine ⟨after, ?_, last⟩
    rw [List.foldlM_cons, first]
    exact rest

/-- Stores of alike events are alike. -/
theorem Indexes.alike {events events' : List Event} {a b : MemoryStore} (left : Indexes tools capacity events a)
    (right : Indexes tools capacity events' b)
    (same : List.Forall₂ (fun event event' => (entryOf tools event).Alike tools (entryOf tools event')) events events') :
    Alike tools a b := by
  have listed : List.Forall₂ (IndexEntry.Alike tools) (events.map (entryOf tools)) (events'.map (entryOf tools)) := by
    rw [List.forall₂_map_left_iff, List.forall₂_map_right_iff]
    exact same
  have first : List.Forall₂ (IndexEntry.Alike tools) a.index.entries (events'.map (entryOf tools)) :=
    related_through left.entries listed fun _ _ _ held alike => (held.alike tools).trans alike
  have last : List.Forall₂ (fun x y => IndexEntry.Same y x) (events'.map (entryOf tools)) b.index.entries :=
    right.entries.flip
  have both : List.Forall₂ (IndexEntry.Alike tools) a.index.entries b.index.entries :=
    related_through first last fun _ _ _ alike held => alike.trans (held.alike tools).symm
  refine ⟨both, ?_, left.pyramid.trans right.pyramid.symm⟩
  rw [left.idf, right.idf, IndexEntry.tokens_of_alike both]

variable (tools capacity)

/-- Calls on a fresh path succeed. -/
theorem holds_runCalls (calls : List Call) : ∃ after, runCalls tools scanOther drawn capacity calls = some after ∧
    Holds tools capacity (calls.flatMap Call.appended) after :=
  holds_fresh.calls scanOther drawn calls

end Runs

/-- Tools that do what the real ones do for the texts without words at the start
of the epoch. -/
def epochTools : TextTools where
  lower text := String.ofList (text.toList.map Char.toLower)
  lower_empty := rfl
  isWord c := c.isAlphanum ∨ c = '_'
  log _ := 0
  sqrt _ := 0
  isoformat _ := "1970-01-01T00:00:00+00:00"
  fromisoformat text := if text = "1970-01-01T00:00:00+00:00" then some ⟨0, true⟩ else none

end MemoryStore

end Centroid
