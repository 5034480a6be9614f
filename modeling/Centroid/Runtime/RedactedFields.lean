import Centroid.Runtime.MemoryRedaction

namespace Centroid

namespace ConfiguredMemoryManager

/-- The cleaning of an event puts a mark in the place of the value under a key. -/
structure Replaces (manager : ConfiguredMemoryManager) (source : Event) (key : String) : Prop where
  given : key ∈ source.metadata.keys
  sensitive : key ∈ sensitiveMetadataKeys
  active : manager.policy.retainSensitiveData = false
  marked : (manager.sanitizeEvent source).1.metadata.get? key = some "[redacted]"

variable (self : ConfiguredMemoryManager) (generated : String × String)

/-- The selected events that the limit lets through. -/
def withinLimit (selected : List Event) : List Event :=
  if self.policy.maxSessionEvents = 0 then selected else selected.drop (selected.length - self.policy.maxSessionEvents)

/-- The selected events that the limit cuts off. -/
def beyondLimit (selected : List Event) : List Event :=
  if self.policy.maxSessionEvents = 0 then [] else selected.take (selected.length - self.policy.maxSessionEvents)

theorem beyondLimit_append (selected : List Event) : self.beyondLimit selected ++ self.withinLimit selected = selected := by
  rw [beyondLimit, withinLimit]
  split
  · rfl
  · exact List.take_append_drop _ _

variable {self}

theorem mem_keys_retainedMetadata {event : Event} {key : String} (sensitive : key ∈ sensitiveMetadataKeys) :
    key ∈ (self.retainedMetadata event.metadata).keys ↔ key ∈ event.metadata.keys := by
  have other : key ≠ "provenance" := by
    rintro rfl
    exact absurd sensitive (by decide)
  rw [Dict.mem_keys_iff, Dict.mem_keys_iff, get?_retainedMetadata, if_neg fun both => other both.2]

/-- What an event reports is what was replaced in it. -/
theorem mem_sanitizeEvent_snd {source : Event} {key : String} :
    key ∈ (self.sanitizeEvent source).2 ↔ self.Replaces source key := by
  cases active : self.policy.retainSensitiveData with
  | true =>
    have nothing : (self.sanitizeEvent source).2 = [] := by rw [sanitizeEvent, active]; rfl
    rw [nothing]
    refine ⟨fun member => ?_, fun replaces => ?_⟩
    · cases member
    · cases active.symm.trans replaces.active
  | false =>
    rw [sanitizeEvent_snd active, List.mem_filter, decide_eq_true_iff]
    constructor
    · rintro ⟨member, sensitive⟩
      refine ⟨(mem_keys_retainedMetadata sensitive).mp member, sensitive, active, ?_⟩
      rw [get?_sanitizeEvent active, if_pos ⟨member, sensitive⟩]
    · intro replaces
      exact ⟨(mem_keys_retainedMetadata replaces.sensitive).mpr replaces.given, replaces.sensitive⟩

theorem replaces_iff {source : Event} {key : String} :
    self.Replaces source key ↔
      self.policy.retainSensitiveData = false ∧ key ∈ sensitiveMetadataKeys ∧ key ∈ source.metadata.keys := by
  refine ⟨fun replaces => ⟨replaces.active, replaces.sensitive, replaces.given⟩, ?_⟩
  rintro ⟨active, sensitive, given⟩
  rw [← mem_sanitizeEvent_snd, sanitizeEvent_snd active, List.mem_filter, decide_eq_true_iff]
  exact ⟨(mem_keys_retainedMetadata sensitive).mpr given, sensitive⟩

/-- The fields of all selected events are reported, cut off or not. -/
theorem mem_redactedFields_resultOf {selected : List Event} {key : String} :
    key ∈ (self.resultOf (selected.map self.sanitizeEvent)).redactedFields ↔
      ∃ source ∈ selected, self.Replaces source key := by
  have collected : key ∈ (self.resultOf (selected.map self.sanitizeEvent)).redactedFields ↔
      key ∈ (selected.map self.sanitizeEvent).flatMap Prod.snd := by
    show key ∈ sortedSet ((selected.map self.sanitizeEvent).flatMap Prod.snd) ↔ _
    rw [sortedSet, List.mem_mergeSort, List.mem_dedup]
  rw [collected, List.flatMap_map, List.mem_flatMap]
  exact exists_congr fun source => and_congr_right fun _ => mem_sanitizeEvent_snd

theorem retainedEvents_of_selected (selected : List Event) :
    (self.resultOf (selected.map self.sanitizeEvent)).retainedEvents =
      (self.withinLimit selected).map fun source => (self.sanitizeEvent source).1 := by
  rw [retainedEvents_resultOf, withinLimit, List.map_map, List.length_map]
  split
  · rfl
  · rw [List.map_drop]
    rfl

/-- The report is exact unless the limit cuts off the only events with a field. -/
theorem redactedFields_exact_iff {events selected : List Event} (filtered : self.filter generated events = .ok selected) :
    ∃ result, self.retain generated events = .ok result ∧
      result.retainedEvents = (self.withinLimit selected).map (fun source => (self.sanitizeEvent source).1) ∧
      ((∀ key, key ∈ result.redactedFields ↔ ∃ source ∈ self.withinLimit selected, self.Replaces source key) ↔
        self.policy.retainSensitiveData = true ∨ ∀ lost ∈ self.beyondLimit selected, ∀ key ∈ lost.metadata.keys,
          key ∈ sensitiveMetadataKeys → ∃ source ∈ self.withinLimit selected, key ∈ source.metadata.keys) := by
  refine ⟨_, retain_of_filter generated filtered, retainedEvents_of_selected selected, ?_⟩
  have parts := self.beyondLimit_append selected
  constructor
  · intro exact_
    by_cases active : self.policy.retainSensitiveData = false
    · refine Or.inr fun lost member key given sensitive => ?_
      have inSelected : lost ∈ selected := by
        rw [← parts]
        exact List.mem_append_left _ member
      have replaces : self.Replaces lost key := replaces_iff.mpr ⟨active, sensitive, given⟩
      obtain ⟨source, kept, marked⟩ := (exact_ key).mp (mem_redactedFields_resultOf.mpr ⟨lost, inSelected, replaces⟩)
      exact ⟨source, kept, marked.given⟩
    · exact Or.inl (Bool.eq_true_of_not_eq_false active)
  · intro covered key
    rw [mem_redactedFields_resultOf]
    constructor
    · rintro ⟨source, member, replaces⟩
      rw [← parts] at member
      rcases List.mem_append.mp member with lost | kept
      · rcases covered with inactive | covered
        · cases inactive.symm.trans replaces.active
        · obtain ⟨source', kept, given⟩ := covered source lost key replaces.given replaces.sensitive
          exact ⟨source', kept, replaces_iff.mpr ⟨replaces.active, replaces.sensitive, given⟩⟩
      · exact ⟨source, kept, replaces⟩
    · rintro ⟨source, kept, replaces⟩
      refine ⟨source, ?_, replaces⟩
      rw [← parts]
      exact List.mem_append_right _ kept

/-- A session of two events of which the limit keeps one. -/
def oneEventSession : ConfiguredMemoryManager := ⟨⟨"session_history", false, false, 1⟩⟩

def caseOpened : Event := ⟨"support_issue_opened", "fictional support case", "test", "e1", "2026-01-01T00:00:00+00:00",
  Dict.empty.set "customer_id" "fictional-customer-17"⟩

def caseClosed : Event := ⟨"support_issue_closed", "fictional support case", "test", "e2", "2026-01-01T00:00:00+00:00",
  Dict.empty.set "memory_kind" "audit"⟩

theorem redactedFields_exact_oneEvent :
    ∃ result, oneEventSession.retain ("e3", "2026-01-01T00:00:00+00:00") [caseClosed, caseOpened] = .ok result ∧
      ∀ key, key ∈ result.redactedFields ↔
        ∃ source ∈ oneEventSession.withinLimit [caseClosed, caseOpened], oneEventSession.Replaces source key := by
  have filtered : oneEventSession.filter ("e3", "2026-01-01T00:00:00+00:00") [caseClosed, caseOpened] =
      .ok [caseClosed, caseOpened] := rfl
  obtain ⟨result, retained, _, exactly⟩ := redactedFields_exact_iff _ filtered
  exact ⟨result, retained, exactly.mpr (Or.inr (by decide +kernel))⟩

/-- The customer of a case that was cut off is reported. -/
theorem reports_field_of_lost_event :
    ∃ result, oneEventSession.retain ("e3", "2026-01-01T00:00:00+00:00") [caseOpened, caseClosed] = .ok result ∧
      "customer_id" ∈ result.redactedFields ∧ ∀ event ∈ result.retainedEvents, "customer_id" ∉ event.metadata.keys := by
  have lost : oneEventSession.Replaces caseOpened "customer_id" := replaces_iff.mpr ⟨rfl, by decide, by decide +kernel⟩
  refine ⟨_, @retain_of_filter oneEventSession _ _ [caseOpened, caseClosed] rfl, ?_, ?_⟩
  · exact mem_redactedFields_resultOf.mpr ⟨caseOpened, List.mem_cons_self, lost⟩
  · rw [retainedEvents_of_selected]
    decide +kernel

end ConfiguredMemoryManager

end Centroid
