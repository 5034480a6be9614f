import Centroid.Memory.MetadataInterference

namespace Centroid

open Rounding

section Found

variable (tools : TextTools)

theorem computeSalience_pos (entry : IndexEntry) : 0 < computeSalience tools defaultWeights entry := by
  have source : 0 ≤ (Assoc.get? defaultWeights.source entry.source).getD 0 := by
    have each : ∀ pair ∈ defaultWeights.source, 0 ≤ pair.2 := by decide +kernel
    cases found : Assoc.get? defaultWeights.source entry.source with
    | none => exact le_rfl
    | some weight => exact each _ (Assoc.mem_of_get? found)
  have eventType : 0 ≤ (Assoc.get? defaultWeights.eventType entry.eventType).getD 0 := by
    have each : ∀ pair ∈ defaultWeights.eventType, 0 ≤ pair.2 := by decide +kernel
    cases found : Assoc.get? defaultWeights.eventType entry.eventType with
    | none => exact le_rfl
    | some weight => exact each _ (Assoc.mem_of_get? found)
  have signals : 0 ≤ ((defaultWeights.signalTerms.filter fun signal =>
      signal.1.toList <:+: (tools.lower entry.text).toList).map Prod.snd).sum := by
    have each : ∀ pair ∈ defaultWeights.signalTerms, 0 ≤ pair.2 := by decide +kernel
    refine List.sum_nonneg fun weight listed => ?_
    obtain ⟨pair, kept, rfl⟩ := List.mem_map.mp listed
    exact each pair (List.mem_of_mem_filter kept)
  refine roundTo_pos 3 (le_min ?_ (by norm_num))
  linarith

theorem baseScore_empty (idf : Dict String ℚ) (entry : IndexEntry) :
    TfidfIndex.baseScore tools.math idf (computeTf tools.math (tokenize tools "")) entry = 0 := by
  have none : tokenize tools "" = [] := by
    rw [tokenize, tools.lower_empty]
    rfl
  rw [none]
  show sparseCosine tools.math ∅ (TfidfIndex.weigh idf entry.tf) = 0
  have noDot : (((∅ : Dict String ℚ).keys.filter (· ∈ (TfidfIndex.weigh idf entry.tf).keys)).map fun term =>
      ((∅ : Dict String ℚ).get? term).getD 0 * ((TfidfIndex.weigh idf entry.tf).get? term).getD 0).sum = 0 := rfl
  rw [sparseCosine, noDot]
  split
  · rfl
  · exact zero_div _

/-- A store of one document finds it whatever is asked. -/
theorem eventType_search_lone {store : MemoryStore} {entry : IndexEntry} (lone : store.index.entries = [entry]) (now : ℚ) :
    (store.search tools now "" 1).2.map SearchResult.eventType = [entry.eventType] := by
  have positive : 0 < MemoryStore.queryScore tools store.index.idf "" entry := by
    have salient := computeSalience_pos tools entry
    show 0 < TfidfIndex.baseScore tools.math store.index.idf (computeTf tools.math (tokenize tools "")) entry * (7 / 10) +
      computeSalience tools defaultWeights entry * (3 / 10)
    rw [baseScore_empty]
    linarith
  have found : store.index.search tools tools.math "" 1 (some (retrievalScorer tools defaultWeights)) =
      [(entry, roundTo 6 (MemoryStore.queryScore tools store.index.idf "" entry))] := by
    show TfidfIndex.ranked (MemoryStore.queryScore tools store.index.idf "") 1 store.index.entries = _
    simp only [lone, TfidfIndex.ranked, List.filterMap_cons, List.filterMap_nil, if_pos positive, List.mergeSort_singleton]
    rfl
  rw [MemoryStore.search, found]
  rfl

end Found

section Order

/-- The age of what stands for an instant, if any. -/
def ageAt (now : ℚ) : Option ℚ → ℚ
  | some instant => (now - instant) / 3600
  | none => 999

theorem estimateAgeHours_eq (tools : TextTools) (now : ℚ) (entry : IndexEntry) :
    estimateAgeHours tools now entry = ageAt now (instantOf tools entry.timestamp) := by
  rw [estimateAgeHours]
  cases instantOf tools entry.timestamp with
  | none => rfl
  | some instant => rfl

/-- Different instants give different ages at some time, even as they are
rounded. -/
theorem exists_age_ne {a b : Option ℚ} (ne : a ≠ b) : ∃ now, roundTo 1 (ageAt now a) ≠ roundTo 1 (ageAt now b) := by
  have unknown : roundTo 1 (999 : ℚ) = 999 := by exact_mod_cast roundTo_intCast 1 999
  cases a with
  | none =>
    cases b with
    | none => exact absurd rfl ne
    | some instant =>
      refine ⟨instant, ?_⟩
      rw [ageAt, ageAt, sub_self, zero_div, roundTo_zero, unknown]
      norm_num
  | some earlier =>
    cases b with
    | none =>
      refine ⟨earlier, ?_⟩
      rw [ageAt, ageAt, sub_self, zero_div, roundTo_zero, unknown]
      norm_num
    | some later =>
      have apart : (later - earlier) / 3600 ≠ 0 := by
        have differ : later - earlier ≠ 0 := fun zero => ne (congrArg some (sub_eq_zero.mp zero).symm)
        exact div_ne_zero differ (by norm_num)
      obtain ⟨age, seen⟩ := exists_roundTo_sub_ne 1 apart
      have left : ageAt (earlier + age * 3600) (some earlier) = age := by
        rw [ageAt]
        ring
      have right : ageAt (earlier + age * 3600) (some later) = age - (later - earlier) / 3600 := by
        rw [ageAt]
        ring
      refine ⟨earlier + age * 3600, ?_⟩
      rw [left, right]
      exact seen

/-- The place of a tier in what is evicted. -/
def Tier.rank : Tier → ℕ
  | .active => 0
  | .working => 1
  | .longTerm => 2
  | .archive => 3

theorem classifyOne_rank {tools : TextTools} {now : ℚ} {a b : IndexEntry}
    (salience : computeSalience tools defaultWeights a = computeSalience tools defaultWeights b)
    (newer : estimateAgeHours tools now a ≤ estimateAgeHours tools now b) :
    (classifyOne tools defaultWeights now a).tier.rank ≤ (classifyOne tools defaultWeights now b).tier.rank := by
  unfold classifyOne
  dsimp only
  rw [salience]
  split_ifs <;> simp only [Tier.rank] <;> first | omega | (exfalso; grind)

variable {α : Type}

/-- Everything, tier by tier. -/
def byTier (decided : List (α × TierDecision)) : List (α × TierDecision) :=
  tierBucket decided .active ++ tierBucket decided .working ++ tierBucket decided .longTerm ++ tierBucket decided .archive

/-- Without room everything is evicted, tier by tier. -/
theorem compactDecided_zero (docId : α → String) (decided : List (α × TierDecision)) :
    compactDecided docId ⟨0, 0, 0⟩ decided = ([], (byTier decided).map Prod.fst) := by
  have noRoom : ∀ tier, ¬ (0 : ℤ) < 0 - (countIn docId ([] : List α) (decided.map Prod.snd) tier : ℤ) := by
    intro tier
    omega
  have kept : ∀ items : List (α × TierDecision), sliceTo 0 items = [] := fun items => rfl
  have dropped : ∀ items : List (α × TierDecision), sliceFrom 0 items = items := fun items => rfl
  rw [compactDecided]
  simp only [kept, dropped, List.map_nil, if_neg (noRoom _), byTier, List.map_append]

theorem mergeSort_pair (le : α → α → Bool) (p q : α) : [p, q].mergeSort le = if le p q then [p, q] else [q, p] := by
  rw [List.mergeSort]
  simp [List.MergeSort.Internal.splitInTwo, List.merge]

theorem tierBucket_pair {p q : α × TierDecision} (salience : p.2.salience = q.2.salience) (tier : Tier) :
    tierBucket [p, q] tier =
      if p.2.tier = tier then
        if q.2.tier = tier then if p.2.ageHours ≤ q.2.ageHours then [p, q] else [q, p] else [p]
      else if q.2.tier = tier then [q] else [] := by
  rw [tierBucket]
  by_cases here : p.2.tier = tier <;> by_cases there : q.2.tier = tier
  · simp [here, there, mergeSort_pair, salience]
  · simp [here, there]
  · simp [here, there]
  · simp [here, there]

/-- Decisions of one tier, salience and age stay in their order. -/
theorem byTier_tied {p q : α × TierDecision} (tier : p.2.tier = q.2.tier) (salience : p.2.salience = q.2.salience)
    (age : p.2.ageHours = q.2.ageHours) : byTier [p, q] = [p, q] := by
  simp only [byTier, tierBucket_pair salience, age, le_refl, if_true, tier]
  cases q.2.tier <;> rfl

/-- Of two that are as salient the newer comes first. -/
theorem byTier_newer {p q : α × TierDecision} (rank : q.2.tier.rank ≤ p.2.tier.rank) (salience : p.2.salience = q.2.salience)
    (newer : q.2.ageHours < p.2.ageHours) : byTier [p, q] = [q, p] := by
  simp only [byTier, tierBucket_pair salience, if_neg newer.not_ge]
  generalize p.2.tier = here at rank
  generalize q.2.tier = there at rank
  cases here <;> cases there <;> simp [Tier.rank] at rank ⊢

end Order

namespace MemoryStore

variable {tools : TextTools} (scanOther : List Char → Option (Json × List Char)) (drawn : Json → String × String)

variable (tools) in
/-- What is evicted of two events without room for any. -/
theorem compact_pair (now : ℚ) (first second : Event) : ∃ state,
    runCalls tools scanOther drawn ⟨0, 0, 0⟩ [.append first, .append second] = some state ∧
      state.1.compact tools now = ([], (byTier ([entryOf tools first, entryOf tools second].map fun entry =>
        (entry, classifyOne tools defaultWeights now entry))).map fun pair => pair.1.docId) := by
  refine ⟨_, rfl, ?_⟩
  have kept := compactDecided_zero IndexEntry.docId
    ([entryOf tools first, entryOf tools second].map fun entry => (entry, classifyOne tools defaultWeights now entry))
  show Prod.map (List.map IndexEntry.docId) (List.map IndexEntry.docId) (compactDecided IndexEntry.docId ⟨0, 0, 0⟩
    ([entryOf tools first, entryOf tools second].map fun entry => (entry, classifyOne tools defaultWeights now entry))) = _
  rw [kept, Prod.map_apply, List.map_map]
  rfl

/-- Whether an event is the newer one shows beside a copy of it. -/
theorem newer_seen {newer older : Event}
    (salience : computeSalience tools defaultWeights (entryOf tools newer) =
      computeSalience tools defaultWeights (entryOf tools older)) {now : ℚ}
    (age : roundTo 1 (estimateAgeHours tools now (entryOf tools newer)) <
      roundTo 1 (estimateAgeHours tools now (entryOf tools older))) :
    ∃ copy,
      (runCalls tools scanOther drawn ⟨0, 0, 0⟩ [.append newer, .append copy]).map (fun state => answers tools state.1) ≠
        (runCalls tools scanOther drawn ⟨0, 0, 0⟩ [.append older, .append copy]).map fun state => answers tools state.1 := by
  let copy : Event := { newer with eventId := newer.eventId ++ "'" }
  obtain ⟨left, ranLeft, compactLeft⟩ := compact_pair tools scanOther drawn now newer copy
  obtain ⟨right, ranRight, compactRight⟩ := compact_pair tools scanOther drawn now older copy
  refine ⟨copy, fun agree => ?_⟩
  rw [ranLeft, ranRight] at agree
  have compacts : left.1.compact tools now = right.1.compact tools now :=
    congrArg (fun given => (given now "" 1).2.1) (Option.some.inj agree)
  have tied := byTier_tied (p := (entryOf tools newer, classifyOne tools defaultWeights now (entryOf tools newer)))
    (q := (entryOf tools copy, classifyOne tools defaultWeights now (entryOf tools copy))) rfl rfl rfl
  have before : estimateAgeHours tools now (entryOf tools copy) ≤ estimateAgeHours tools now (entryOf tools older) := by
    by_contra after
    exact absurd age (not_lt.mpr (roundTo_mono 1 (not_le.mp after).le))
  have swapped := byTier_newer (p := (entryOf tools older, classifyOne tools defaultWeights now (entryOf tools older)))
    (q := (entryOf tools copy, classifyOne tools defaultWeights now (entryOf tools copy)))
    (classifyOne_rank salience before) salience.symm age
  rw [compactLeft, compactRight, List.map_cons, List.map_cons, List.map_nil, List.map_cons, List.map_cons, List.map_nil,
    tied, swapped] at compacts
  have ids : newer.eventId = newer.eventId ++ "'" := (List.cons.inj (Prod.mk.inj compacts).2).1
  have lengths := congrArg String.length ids
  rw [String.length_append] at lengths
  have one : "'".length = 1 := rfl
  omega

/-- The reported event type shows in a search. -/
theorem reportedType_seen {capacity : TierCapacity} {a b : Event}
    (agree : (runCalls tools scanOther drawn capacity [.append a]).map (fun state => answers tools state.1) =
      (runCalls tools scanOther drawn capacity [.append b]).map fun state => answers tools state.1) :
    a.reportedType = b.reportedType := by
  have found : ∀ event, ∃ state, runCalls tools scanOther drawn capacity [.append event] = some state ∧
      (state.1.search tools 0 "" 1).2.map SearchResult.eventType = [event.reportedType] := by
    intro event
    refine ⟨_, rfl, ?_⟩
    rw [← eventType_entryOf tools event]
    exact eventType_search_lone tools rfl 0
  obtain ⟨left, ranLeft, foundLeft⟩ := found a
  obtain ⟨right, ranRight, foundRight⟩ := found b
  rw [ranLeft, ranRight] at agree
  have results : (left.1.search tools 0 "" 1).2 = (right.1.search tools 0 "" 1).2 :=
    congrArg (fun given => (given 0 "" 1).1) (Option.some.inj agree)
  rw [results, foundRight] at foundLeft
  exact (List.cons.inj foundLeft).1.symm

/-- Metadata that could be replaced in every history report the same event type
and the same instant. -/
theorem sameReading_of_answers {a b : Event} (rest : b = { a with metadata := b.metadata })
    (agree : ∀ capacity earlier later,
      (runCalls tools scanOther drawn capacity (earlier ++ .append a :: later)).map (fun state => answers tools state.1) =
        (runCalls tools scanOther drawn capacity (earlier ++ .append b :: later)).map fun state => answers tools state.1) :
    a.SameReading tools b := by
  have types := reportedType_seen scanOther drawn (agree {} [] [])
  refine ⟨rest, types, ?_⟩
  by_contra differ
  have salience : computeSalience tools defaultWeights (entryOf tools a) =
      computeSalience tools defaultWeights (entryOf tools b) := by
    have eventTypes : (entryOf tools a).eventType = (entryOf tools b).eventType := by
      rw [eventType_entryOf, eventType_entryOf, types]
    rw [computeSalience, computeSalience, eventTypes, rest]
    rfl
  obtain ⟨now, ages⟩ := exists_age_ne differ
  rw [← timestamp_entryOf tools a, ← timestamp_entryOf tools b, ← estimateAgeHours_eq, ← estimateAgeHours_eq] at ages
  rcases lt_or_gt_of_ne ages with newer | older
  · obtain ⟨copy, seen⟩ := newer_seen scanOther drawn salience newer
    exact seen (agree ⟨0, 0, 0⟩ [] [.append copy])
  · obtain ⟨copy, seen⟩ := newer_seen scanOther drawn salience.symm older
    exact seen (agree ⟨0, 0, 0⟩ [] [.append copy]).symm

/-- Runs whose events differ in metadata only, and report the same types and
instants, give the same answers. For metadata that do not, some run with them
gives others. -/
theorem metadata_unread_iff (tools : TextTools) :
    (∀ capacity calls calls', List.Forall₂ (Call.Paired (Event.SameReading tools)) calls calls' →
        (runCalls tools scanOther drawn capacity calls).map (fun state => answers tools state.1) =
          (runCalls tools scanOther drawn capacity calls').map fun state => answers tools state.1) ∧
      ∀ (event : Event) (metadata : Dict String String),
        (∀ capacity earlier later,
            (runCalls tools scanOther drawn capacity (earlier ++ .append event :: later)).map
                (fun state => answers tools state.1) =
              (runCalls tools scanOther drawn capacity (earlier ++ .append { event with metadata := metadata } :: later)).map
                fun state => answers tools state.1) ↔
          event.SameReading tools { event with metadata := metadata } := by
  refine ⟨fun capacity calls calls' same => answers_runCalls scanOther drawn same, fun event metadata => ⟨?_, ?_⟩⟩
  · intro agree
    exact sameReading_of_answers scanOther drawn rfl agree
  · intro same capacity earlier later
    have others : ∀ calls : List Call, List.Forall₂ (Call.Paired (Event.SameReading tools)) calls calls :=
      fun calls => List.forall₂_same.mpr fun made _ => Call.Paired.refl tools made
    exact answers_runCalls scanOther drawn (List.rel_append (others earlier) (.cons (.append same) (others later)))

/-- Tools that do what the real ones do for the texts of one event. -/
def anomalyTools : TextTools :=
  { epochTools with
    log := fun x => if x = 7 / 6 then 1541506798272583 / 10000000000000000 else 0
    isoformat := fun _ => "2023-11-14T22:13:20+00:00"
    fromisoformat := fun text => if text = "2023-11-14T22:13:20+00:00" then some ⟨1700000000, true⟩ else none }

/-- An event as the self model makes it of an anomaly. -/
def anomalyEvent : Event where
  eventType := "anomaly"
  content := "critical: gpu/load z=4.00 (observed 9.0, mean 1.0)"
  source := "self_model"
  eventId := "4f1c"
  timestamp := "2023-11-14T22:13:20+00:00"
  metadata := Dict.ofList [("classification", "event_journal"), ("source_id", "gpu"), ("field", "load"), ("z_score", "4.0"),
    ("severity", "critical"), ("observed", "9.0"), ("mean", "1.0"), ("timestamp", "1700000000.25")]

theorem metadata_unread_iff_severity :
    (runCalls anomalyTools (fun _ => none) (fun _ => ("", "")) {}
          [.append { anomalyEvent with metadata := Dict.empty.set "severity" "critical" }, .reopen]).map
        (fun state => answers anomalyTools state.1) =
      (runCalls anomalyTools (fun _ => none) (fun _ => ("", "")) {}
          [.append { anomalyEvent with metadata := ∅ }, .reopen]).map fun state => answers anomalyTools state.1 :=
  (metadata_unread_iff (fun _ => none) (fun _ => ("", "")) anomalyTools).1 {} _ _
    (.cons (.append ⟨rfl, rfl, rfl⟩) (.cons .reopen .nil))

theorem anomaly_counted_old :
    let counts := fun (state : MemoryStore × File) => (state.1.tierCounts anomalyTools 1700000000 .active,
      state.1.tierCounts anomalyTools 1700000000 .longTerm)
    (runCalls anomalyTools (fun _ => none) (fun _ => ("", "")) {} [.append anomalyEvent]).map counts = some (0, 1) ∧
      (runCalls anomalyTools (fun _ => none) (fun _ => ("", "")) {}
        [.append { anomalyEvent with metadata := ∅ }]).map counts = some (1, 0) := by
  decide +kernel

end MemoryStore

end Centroid
