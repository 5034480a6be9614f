import Centroid.Runtime.ConfiguredMemory

namespace Centroid

/-- Events that differ at most in values under the sensitive keys. -/
structure Event.SameButSensitive (a b : Event) : Prop where
  rest : b = { a with metadata := b.metadata }
  keys : ∀ key, key ∈ a.metadata.keys ↔ key ∈ b.metadata.keys
  metadata : ∀ key, key ∉ sensitiveMetadataKeys → a.metadata.get? key = b.metadata.get? key

theorem Event.SameButSensitive.refl (a : Event) : a.SameButSensitive a := ⟨rfl, fun _ => Iff.rfl, fun _ _ => rfl⟩

/-- The same result, the metadata of the events as maps. -/
structure MemoryRetentionResult.Same (a b : MemoryRetentionResult) : Prop where
  retentionMode : a.retentionMode = b.retentionMode
  retainedEvents : List.Forall₂ Event.Same a.retainedEvents b.retainedEvents
  redactedFields : a.redactedFields = b.redactedFields
  primaryRecord : a.primaryRecord = b.primaryRecord

namespace ConfiguredMemoryManager

section Sanitized

theorem foldl_redactKey (keys : List String) (metadata : Dict String String) (fields : List String) :
    keys.foldl redactKey (metadata, fields) =
      ((keys.filter (· ∈ sensitiveMetadataKeys)).foldl (fun d key => d.set key "[redacted]") metadata,
        fields ++ keys.filter (· ∈ sensitiveMetadataKeys)) := by
  induction keys generalizing metadata fields with
  | nil => rw [List.filter_nil, List.append_nil, List.foldl_nil, List.foldl_nil]
  | cons key keys ih =>
    by_cases sensitive : key ∈ sensitiveMetadataKeys
    · have kept : (key :: keys).filter (· ∈ sensitiveMetadataKeys) = key :: keys.filter (· ∈ sensitiveMetadataKeys) :=
        List.filter_cons_of_pos (decide_eq_true sensitive)
      rw [List.foldl_cons, redactKey, if_pos sensitive, ih, kept, List.foldl_cons, List.append_assoc, List.singleton_append]
    · have kept : (key :: keys).filter (· ∈ sensitiveMetadataKeys) = keys.filter (· ∈ sensitiveMetadataKeys) :=
        List.filter_cons_of_neg (by simpa using sensitive)
      rw [List.foldl_cons, redactKey, if_neg sensitive, ih, kept]

variable {self : ConfiguredMemoryManager} (redacts : self.policy.retainSensitiveData = false)

include redacts in
theorem get?_sanitizeEvent (event : Event) (key : String) : (self.sanitizeEvent event).1.metadata.get? key =
    if key ∈ (self.retainedMetadata event.metadata).keys ∧ key ∈ sensitiveMetadataKeys then some "[redacted]"
    else (self.retainedMetadata event.metadata).get? key := by
  have loop := foldl_redactKey (self.retainedMetadata event.metadata).keys (self.retainedMetadata event.metadata) []
  rw [sanitizeEvent, redacts]
  dsimp only
  rw [if_neg Bool.false_ne_true, loop, Dict.get?_foldl_set]
  simp only [List.mem_filter, decide_eq_true_iff]

include redacts in
theorem sanitizeEvent_snd (event : Event) : (self.sanitizeEvent event).2 =
    (self.retainedMetadata event.metadata).keys.filter (· ∈ sensitiveMetadataKeys) := by
  have loop := foldl_redactKey (self.retainedMetadata event.metadata).keys (self.retainedMetadata event.metadata) []
  rw [sanitizeEvent, redacts]
  dsimp only
  rw [if_neg Bool.false_ne_true, loop, List.nil_append]

theorem keys_foldl_set_of_mem (keys : List String) (value : String) (metadata : Dict String String)
    (present : ∀ key ∈ keys, key ∈ metadata.keys) :
    (keys.foldl (fun d key => d.set key value) metadata).keys = metadata.keys := by
  induction keys generalizing metadata with
  | nil => rfl
  | cons key keys ih =>
    have unchanged := metadata.keys_set_of_mem (present key List.mem_cons_self) value
    rw [List.foldl_cons, ih, unchanged]
    intro other later
    rw [unchanged]
    exact present other (List.mem_cons_of_mem _ later)

/-- Redaction adds and removes no key. -/
theorem keys_sanitizeEvent (event : Event) :
    (self.sanitizeEvent event).1.metadata.keys = (self.retainedMetadata event.metadata).keys := by
  rw [sanitizeEvent]
  cases self.policy.retainSensitiveData with
  | true => rfl
  | false =>
    dsimp only
    rw [if_neg Bool.false_ne_true, foldl_redactKey]
    exact keys_foldl_set_of_mem _ _ _ fun key listed => List.mem_of_mem_filter listed

theorem get?_retainedMetadata (metadata : Dict String String) (key : String) : (self.retainedMetadata metadata).get? key =
    if self.policy.retainProvenance = false ∧ key = "provenance" then none else metadata.get? key := by
  rw [retainedMetadata]
  cases self.policy.retainProvenance with
  | true => rw [if_pos rfl, if_neg (by simp)]
  | false =>
    rw [if_neg Bool.false_ne_true, Dict.get?_erase]
    simp only [true_and, eq_comm]

include redacts in
/-- What is cleaned does not show the values under sensitive keys. -/
theorem sanitizeEvent_same {a b : Event} (same : a.SameButSensitive b) :
    (self.sanitizeEvent a).1.Same (self.sanitizeEvent b).1 ∧
      ∀ key, key ∈ (self.sanitizeEvent a).2 ↔ key ∈ (self.sanitizeEvent b).2 := by
  have keys : ∀ key, key ∈ (self.retainedMetadata a.metadata).keys ↔ key ∈ (self.retainedMetadata b.metadata).keys := by
    intro key
    have whole := same.keys key
    rw [Dict.mem_keys_iff, Dict.mem_keys_iff] at whole ⊢
    rw [get?_retainedMetadata, get?_retainedMetadata]
    split
    · exact Iff.rfl
    · exact whole
  refine ⟨⟨?_, ?_⟩, ?_⟩
  · have rest := same.rest
    show { b with metadata := (self.sanitizeEvent b).1.metadata } = { a with metadata := (self.sanitizeEvent b).1.metadata }
    rw [rest]
  · intro key
    rw [get?_sanitizeEvent redacts, get?_sanitizeEvent redacts]
    by_cases sensitive : key ∈ sensitiveMetadataKeys
    · by_cases present : key ∈ (self.retainedMetadata b.metadata).keys
      · rw [if_pos ⟨(keys key).mpr present, sensitive⟩, if_pos ⟨present, sensitive⟩]
      · have absent := mt (keys key).mp present
        rw [if_neg fun both => absent both.1, if_neg fun both => present both.1,
          ((self.retainedMetadata a.metadata).get?_eq_none_iff key).mpr absent,
          ((self.retainedMetadata b.metadata).get?_eq_none_iff key).mpr present]
    · rw [if_neg fun both => sensitive both.2, if_neg fun both => sensitive both.2, get?_retainedMetadata,
        get?_retainedMetadata, same.metadata key sensitive]
  · intro key
    rw [sanitizeEvent_snd redacts, sanitizeEvent_snd redacts, List.mem_filter, List.mem_filter]
    exact and_congr_left fun _ => keys key

end Sanitized

section Retained

variable {self : ConfiguredMemoryManager} (generated : String × String)

def supportedModes : List String := ["session_history", "explicit_checkpoints", "audit_only", "summary_only"]

theorem getLast?_related {α : Type} {related : α → α → Prop} {xs ys : List α} (same : List.Forall₂ related xs ys) :
    xs.getLast? = none ∧ ys.getLast? = none ∨
      ∃ x y, xs.getLast? = some x ∧ ys.getLast? = some y ∧ related x y := by
  induction same with
  | nil => exact Or.inl ⟨rfl, rfl⟩
  | @cons x y xs ys first _ ih =>
    rw [List.getLast?_cons, List.getLast?_cons]
    rcases ih with ⟨left, right⟩ | ⟨x', y', left, right, last⟩
    · rw [left, right]
      exact Or.inr ⟨x, y, rfl, rfl, first⟩
    · rw [left, right]
      exact Or.inr ⟨x', y', rfl, rfl, last⟩

/-- The kind of an event is not sensitive. -/
theorem filter_kind_same {events events' : List Event} (same : List.Forall₂ Event.SameButSensitive events events')
    (kind : String) :
    List.Forall₂ Event.SameButSensitive (events.filter fun event => event.metadata.get? "memory_kind" = some kind)
      (events'.filter fun event => event.metadata.get? "memory_kind" = some kind) := by
  have open_ : "memory_kind" ∉ sensitiveMetadataKeys := by decide
  refine List.rel_filter ?_ same
  intro a b both
  show decide (a.metadata.get? "memory_kind" = some kind) = true ↔ decide (b.metadata.get? "memory_kind" = some kind) = true
  rw [both.metadata _ open_]

theorem summaryOf_same {a b : Event} (same : a.SameButSensitive b) :
    self.summaryOf generated a = self.summaryOf generated b := by
  have open_ : "provenance" ∉ sensitiveMetadataKeys := by decide
  rw [summaryOf, summaryOf, same.metadata _ open_, same.rest]

/-- A supported mode filters alike events alike. -/
theorem filter_same (supported : self.policy.retentionMode ∈ supportedModes) {events events' : List Event}
    (same : List.Forall₂ Event.SameButSensitive events events') :
    ∃ kept kept', self.filter generated events = .ok kept ∧ self.filter generated events' = .ok kept' ∧
      List.Forall₂ Event.SameButSensitive kept kept' := by
  simp only [supportedModes, List.mem_cons, List.not_mem_nil, or_false] at supported
  rcases supported with mode | mode | mode | mode
  · exact ⟨events, events', by rw [filter, mode]; rfl, by rw [filter, mode]; rfl, same⟩
  · exact ⟨_, _, by rw [filter, mode]; rfl, by rw [filter, mode]; rfl, filter_kind_same same "checkpoint"⟩
  · exact ⟨_, _, by rw [filter, mode]; rfl, by rw [filter, mode]; rfl, filter_kind_same same "audit"⟩
  · have read : ∀ events, self.filter generated events = .ok (events.getLast?.map (self.summaryOf generated)).toList := by
      intro events
      rw [filter, mode]
      rfl
    rw [read, read]
    rcases getLast?_related same with ⟨left, right⟩ | ⟨a, b, left, right, both⟩
    · rw [left, right]
      exact ⟨[], [], rfl, rfl, .nil⟩
    · rw [left, right, Option.map_some, Option.map_some, summaryOf_same generated both]
      exact ⟨_, _, rfl, rfl, .cons (Event.SameButSensitive.refl _) .nil⟩

theorem retain_of_filter {events kept : List Event} (filtered : self.filter generated events = .ok kept) :
    self.retain generated events = .ok (self.resultOf (kept.map self.sanitizeEvent)) := by
  rw [retain, filtered]
  rfl

theorem sortedSet_congr {names names' : List String} (same : ∀ name, name ∈ names ↔ name ∈ names') :
    sortedSet names = sortedSet names' := by
  have perm : names.dedup.Perm names'.dedup := by
    refine (List.perm_ext_iff_of_nodup names.nodup_dedup names'.nodup_dedup).mpr fun name => ?_
    rw [List.mem_dedup, List.mem_dedup, same]
  have sorted : ∀ names : List String, (sortedSet names).Pairwise fun a b => decide (a ≤ b) = true :=
    fun names => List.pairwise_mergeSort decide_string_le_trans decide_string_le_total _
  have both : (sortedSet names).Perm (sortedSet names') :=
    (List.mergeSort_perm _ _).trans (perm.trans (List.mergeSort_perm _ _).symm)
  refine both.eq_of_pairwise ?_ (sorted names) (sorted names')
  intro a b _ _ below above
  exact String.le_antisymm (of_decide_eq_true below) (of_decide_eq_true above)

/-- The last of the retained events, all of them without a limit. -/
theorem retainedEvents_resultOf (cleaned : List (Event × List String)) : (self.resultOf cleaned).retainedEvents =
    if self.policy.maxSessionEvents = 0 then cleaned.map Prod.fst
    else (cleaned.map Prod.fst).drop (cleaned.length - self.policy.maxSessionEvents) := by
  show (if 0 < self.policy.maxSessionEvents then sliceFrom (-(self.policy.maxSessionEvents : ℤ)) (cleaned.map Prod.fst)
    else cleaned.map Prod.fst) = _
  rw [sliceFrom_neg, List.length_map]
  by_cases unlimited : self.policy.maxSessionEvents = 0
  · rw [if_pos unlimited, if_neg (by omega)]
  · rw [if_neg unlimited, if_pos (by omega)]

/-- Events that were cleaned alike give the same result. -/
theorem resultOf_same {cleaned cleaned' : List (Event × List String)}
    (same : List.Forall₂ (fun a b => a.1.Same b.1 ∧ ∀ key, key ∈ a.2 ↔ key ∈ b.2) cleaned cleaned') :
    (self.resultOf cleaned).Same (self.resultOf cleaned') := by
  have events : List.Forall₂ Event.Same (self.resultOf cleaned).retainedEvents (self.resultOf cleaned').retainedEvents := by
    have all : List.Forall₂ Event.Same (cleaned.map Prod.fst) (cleaned'.map Prod.fst) := by
      rw [List.forall₂_map_left_iff, List.forall₂_map_right_iff]
      exact same.imp fun _ _ both => both.1
    rw [retainedEvents_resultOf, retainedEvents_resultOf, same.length_eq]
    split
    · exact all
    · exact List.forall₂_drop _ all
  have redacted : ∀ key, key ∈ cleaned.flatMap Prod.snd ↔ key ∈ cleaned'.flatMap Prod.snd := by
    clear events
    intro key
    induction same with
    | nil => exact Iff.rfl
    | cons first _ ih => rw [List.flatMap_cons, List.flatMap_cons, List.mem_append, List.mem_append, first.2 key, ih]
  refine ⟨rfl, events, sortedSet_congr redacted, ?_⟩
  show ((self.resultOf cleaned).retainedEvents.getLast?.map Event.eventType).getD "none" =
    ((self.resultOf cleaned').retainedEvents.getLast?.map Event.eventType).getD "none"
  rcases getLast?_related events with ⟨left, right⟩ | ⟨a, b, left, right, both⟩
  · rw [left, right]
  · rw [left, right, both.rest]
    rfl

theorem retain_same (redacts : self.policy.retainSensitiveData = false) (supported : self.policy.retentionMode ∈ supportedModes)
    {events events' : List Event} (same : List.Forall₂ Event.SameButSensitive events events') :
    ∃ result result', self.retain generated events = .ok result ∧ self.retain generated events' = .ok result' ∧
      result.Same result' := by
  obtain ⟨kept, kept', filtered, filtered', left⟩ := filter_same generated supported same
  refine ⟨_, _, retain_of_filter generated filtered, retain_of_filter generated filtered', resultOf_same ?_⟩
  rw [List.forall₂_map_left_iff, List.forall₂_map_right_iff]
  exact left.imp fun _ _ both => sanitizeEvent_same redacts both

end Retained

section Persisted

variable {self : ConfiguredMemoryManager} (generated : String × String) (tools : TextTools)
  (scanOther : List Char → Option (Json × List Char)) (drawn : Json → String × String)

/-- Equal events are appended to a file alike, whatever the stores hold. -/
theorem file_append_same {events events' : List Event} (same : List.Forall₂ Event.Same events events')
    (store store' : MemoryStore) (file : MemoryStore.File) :
    (events.foldl (fun state event => state.1.append tools state.2 event) (store, file)).2 =
      (events'.foldl (fun state event => state.1.append tools state.2 event) (store', file)).2 := by
  induction same generalizing store store' file with
  | nil => rfl
  | @cons a b _ _ first _ ih =>
    have written : (store.append tools file a).2 = (store'.append tools file b).2 :=
      congrArg (fun line => some (file.getD [] ++ line ++ ['\n'])) first.line
    rw [List.foldl_cons, List.foldl_cons]
    show (List.foldl _ ((store.append tools file a).1, (store.append tools file a).2) _).2 =
      (List.foldl _ ((store'.append tools file b).1, (store'.append tools file b).2) _).2
    rw [written]
    exact ih _ _ _

theorem persist_of_retain {events : List Event} {result : MemoryRetentionResult}
    (retained : self.retain generated events = .ok result) (file : MemoryStore.File) :
    (self.persist generated tools scanOther drawn file events).map Prod.snd =
      match MemoryStore.construct tools scanOther drawn {} file with
      | none => .error RetentionError.unreadable
      | some store => .ok
        (result.retainedEvents.foldl (fun state event => state.1.append tools state.2 event) (store, file)).2 := by
  rw [persist, retained]
  cases MemoryStore.construct tools scanOther drawn {} file with
  | none => rfl
  | some store => rfl

/-- What is persisted does not show the values under sensitive keys. -/
theorem persist_same (redacts : self.policy.retainSensitiveData = false) (supported : self.policy.retentionMode ∈ supportedModes)
    {events events' : List Event} (same : List.Forall₂ Event.SameButSensitive events events') (file : MemoryStore.File) :
    (self.persist generated tools scanOther drawn file events).map Prod.snd =
      (self.persist generated tools scanOther drawn file events').map Prod.snd := by
  obtain ⟨result, result', left, right, both⟩ := retain_same generated redacts supported same
  rw [persist_of_retain generated tools scanOther drawn left, persist_of_retain generated tools scanOther drawn right]
  cases MemoryStore.construct tools scanOther drawn {} file with
  | none => rfl
  | some store => exact congrArg Except.ok (file_append_same tools both.retainedEvents store store file)

end Persisted

section Selected

variable {self : ConfiguredMemoryManager} (generated : String × String)

/-- The events that a mode without a summary selects. -/
def Selects (mode : String) (event : Event) : Prop :=
  mode = "session_history" ∨ mode = "explicit_checkpoints" ∧ event.metadata.get? "memory_kind" = some "checkpoint" ∨
    mode = "audit_only" ∧ event.metadata.get? "memory_kind" = some "audit"

instance (mode : String) (event : Event) : Decidable (Selects mode event) := inferInstanceAs (Decidable (_ ∨ _ ∧ _ ∨ _ ∧ _))

theorem filter_selects (supported : self.policy.retentionMode ∈ supportedModes)
    (each : self.policy.retentionMode ≠ "summary_only") (events : List Event) :
    self.filter generated events = .ok (events.filter (Selects self.policy.retentionMode ·)) := by
  simp only [supportedModes, List.mem_cons, List.not_mem_nil, or_false] at supported
  rcases supported with mode | mode | mode | mode
  · have all : events.filter (Selects self.policy.retentionMode ·) = events :=
      List.filter_eq_self.mpr fun event _ => decide_eq_true (Or.inl mode)
    rw [all, filter, mode]
    rfl
  · have read : self.filter generated events =
        .ok (events.filter fun event => event.metadata.get? "memory_kind" = some "checkpoint") := by
      rw [filter, mode]
      rfl
    rw [read]
    refine congrArg Except.ok (List.filter_congr fun event _ => decide_eq_decide.mpr ?_)
    rw [Selects, mode]
    simp
  · have read : self.filter generated events =
        .ok (events.filter fun event => event.metadata.get? "memory_kind" = some "audit") := by
      rw [filter, mode]
      rfl
    rw [read]
    refine congrArg Except.ok (List.filter_congr fun event _ => decide_eq_decide.mpr ?_)
    rw [Selects, mode]
    simp
  · exact absurd mode each

/-- The provenance is in no cleaned event that is not to keep it. -/
theorem provenance_not_mem (dropped : self.policy.retainProvenance = false) (event : Event) :
    "provenance" ∉ (self.sanitizeEvent event).1.metadata.keys := by
  rw [keys_sanitizeEvent, ← Dict.get?_eq_none_iff, get?_retainedMetadata, if_pos ⟨dropped, rfl⟩]

/-- Without a summary the last of the selected events are retained, in their
order and changed in nothing but their metadata. -/
theorem retain_selects (supported : self.policy.retentionMode ∈ supportedModes)
    (each : self.policy.retentionMode ≠ "summary_only") (events : List Event) :
    ∃ result, self.retain generated events = .ok result ∧
      let selected := events.filter (Selects self.policy.retentionMode ·)
      List.Forall₂ (fun kept event => kept = { event with metadata := kept.metadata }) result.retainedEvents
          (if self.policy.maxSessionEvents = 0 then selected
            else selected.drop (selected.length - self.policy.maxSessionEvents)) ∧
        (self.policy.retainProvenance = false → ∀ kept ∈ result.retainedEvents, "provenance" ∉ kept.metadata.keys) := by
  have filtered := filter_selects generated supported each events
  refine ⟨_, retain_of_filter generated filtered, ?_, ?_⟩
  · have all : List.Forall₂ (fun kept event => kept = { event with metadata := kept.metadata })
        (((events.filter (Selects self.policy.retentionMode ·)).map self.sanitizeEvent).map Prod.fst)
        (events.filter (Selects self.policy.retentionMode ·)) := by
      rw [List.map_map, List.forall₂_map_left_iff, List.forall₂_same]
      exact fun event _ => rfl
    rw [retainedEvents_resultOf, List.length_map]
    split
    · exact all
    · exact List.forall₂_drop _ all
  · intro dropped kept member
    have cleaned : kept ∈ ((events.filter (Selects self.policy.retentionMode ·)).map self.sanitizeEvent).map Prod.fst := by
      rw [retainedEvents_resultOf] at member
      split at member
      · exact member
      · exact List.mem_of_mem_drop member
    rw [List.map_map] at cleaned
    obtain ⟨event, -, rfl⟩ := List.mem_map.mp cleaned
    exact provenance_not_mem dropped event

variable (tools : TextTools) (scanOther : List Char → Option (Json × List Char)) (drawn : Json → String × String)

/-- Without sensitive data to be retained, neither the result nor the file show
the values under sensitive keys. What is retained without a summary are the last
of the selected events. -/
theorem retain_hides_sensitive (redacts : self.policy.retainSensitiveData = false)
    (supported : self.policy.retentionMode ∈ supportedModes) :
    (∀ events events', List.Forall₂ Event.SameButSensitive events events' →
        (∃ result result', self.retain generated events = .ok result ∧ self.retain generated events' = .ok result' ∧
            result.Same result') ∧
          ∀ file, (self.persist generated tools scanOther drawn file events).map Prod.snd =
            (self.persist generated tools scanOther drawn file events').map Prod.snd) ∧
      (self.policy.retentionMode ≠ "summary_only" → ∀ events, ∃ result, self.retain generated events = .ok result ∧
        let selected := events.filter (Selects self.policy.retentionMode ·)
        List.Forall₂ (fun kept event => kept = { event with metadata := kept.metadata }) result.retainedEvents
            (if self.policy.maxSessionEvents = 0 then selected
              else selected.drop (selected.length - self.policy.maxSessionEvents)) ∧
          (self.policy.retainProvenance = false → ∀ kept ∈ result.retainedEvents, "provenance" ∉ kept.metadata.keys)) := by
  refine ⟨fun events events' same => ⟨?_, ?_⟩, fun each events => ?_⟩
  · exact retain_same generated redacts supported same
  · exact persist_same generated tools scanOther drawn redacts supported same
  · exact retain_selects generated supported each events

/-- A support case of one customer and of another. -/
theorem retain_hides_sensitive_customer :
    let manager : ConfiguredMemoryManager := ⟨⟨"session_history", false, false, 1⟩⟩
    let opened : Event := ⟨"support_issue_opened", "fictional support case", "test", "e1", "2026-01-01T00:00:00+00:00",
      Dict.empty.set "customer_id" "fictional-customer-17"⟩
    let other : Event := { opened with metadata := Dict.empty.set "customer_id" "fictional-customer-18" }
    ∃ result result', manager.retain ("e2", "2026-01-01T00:00:00+00:00") [opened] = .ok result ∧
      manager.retain ("e2", "2026-01-01T00:00:00+00:00") [other] = .ok result' ∧ result.Same result' := by
  intro manager opened other
  have tools : TextTools := ⟨⟨id, id⟩, id, rfl, fun _ => false, fun _ => "", fun _ => none⟩
  have hidden := @retain_hides_sensitive manager ("e2", "2026-01-01T00:00:00+00:00") tools (fun _ => none)
    (fun _ => ("", "")) rfl (by decide)
  have keys : ∀ key, key ∉ sensitiveMetadataKeys → opened.metadata.get? key = other.metadata.get? key := by
    intro key open_
    have apart : "customer_id" ≠ key := by
      rintro rfl
      exact open_ (by decide)
    show (Dict.empty.set "customer_id" "fictional-customer-17").get? key =
      (Dict.empty.set "customer_id" "fictional-customer-18").get? key
    rw [Dict.get?_set_of_ne _ _ apart, Dict.get?_set_of_ne _ _ apart]
  exact (hidden.1 [opened] [other] (.cons ⟨rfl, fun _ => Iff.rfl, keys⟩ .nil)).1

end Selected

end ConfiguredMemoryManager

end Centroid
