import Centroid.Memory.Rebuild

namespace Centroid

open Rounding

theorem rounded_weight_mem {diversity recency : ℚ} (first : 0 ≤ diversity) (second : 0 ≤ recency) :
    1 ≤ roundTo 4 (min (1 + diversity + recency) (3 / 2)) ∧ roundTo 4 (min (1 + diversity + recency) (3 / 2)) ≤ 3 / 2 := by
  have least := roundTo_mono 4 (show (1 : ℚ) ≤ min (1 + diversity + recency) (3 / 2) by
    refine le_min ?_ ?_
    · linarith
    · norm_num)
  have most := roundTo_mono 4 (min_le_right (1 + diversity + recency) (3 / 2))
  have limit := roundTo_of_decimal 4 15000
  rw [roundTo_one] at least
  norm_num at limit
  exact ⟨least, most.trans_eq limit⟩

/-- However often a document was retrieved, its weight is at most half as much
again. -/
theorem computeProvenanceWeight_mem (tools : TextTools) (now : ℚ) (record : ProvenanceRecord) :
    1 ≤ computeProvenanceWeight tools now record ∧ computeProvenanceWeight tools now record ≤ 3 / 2 := by
  rw [computeProvenanceWeight]
  split
  · norm_num
  · refine rounded_weight_mem ?_ ?_
    · positivity
    · split
      · exact le_rfl
      · split
        · split
          · dsimp only
            split
            · rename_i time _ _ recent
              have share : (now - time.instant) / 3600 / 24 < 1 := (div_lt_one (by norm_num)).mpr recent
              exact mul_nonneg (by norm_num) (by linarith)
            · exact le_rfl
          · exact le_rfl
        · exact le_rfl

theorem computeProvenanceWeight_first (tools : TextTools) (now : ℚ) {record : ProvenanceRecord}
    (first : record.retrievalCount ≤ 1) : computeProvenanceWeight tools now record = 1 := by
  rw [computeProvenanceWeight, if_pos first]

namespace MemoryStore

variable (tools : TextTools)

/-- How often a document has been retrieved. -/
def retrievals (provenance : Dict String ProvenanceRecord) (docId : String) : ℕ :=
  (provenance.get? docId).elim 0 ProvenanceRecord.retrievalCount

theorem retrieve_count (now : ℚ) (provenance : Dict String ProvenanceRecord) (entry : IndexEntry) :
    (retrieve tools now provenance entry).retrievalCount = retrievals provenance entry.docId + 1 := by
  rw [retrieve, retrievals]
  cases provenance.get? entry.docId with
  | none => rfl
  | some record => rfl

theorem retrievals_set (provenance : Dict String ProvenanceRecord) (docId other : String) (record : ProvenanceRecord) :
    retrievals (provenance.set docId record) other =
      if docId = other then record.retrievalCount else retrievals provenance other := by
  rw [retrievals, Dict.get?_set]
  split <;> rfl

/-- One search counts each document as often as it returns it. -/
theorem retrievals_collect (now : ℚ) (raw : List (IndexEntry × ℚ)) (provenance : Dict String ProvenanceRecord)
    (docId : String) : retrievals (collect tools now raw provenance).1 docId =
      retrievals provenance docId + (raw.map fun pair => pair.1.docId).count docId := by
  induction raw generalizing provenance with
  | nil => rfl
  | cons pair raw ih =>
    obtain ⟨entry, score⟩ := pair
    show retrievals (collect tools now raw (provenance.set entry.docId (retrieve tools now provenance entry))).1 docId = _
    rw [ih, retrievals_set, retrieve_count, List.map_cons, List.count_cons]
    by_cases here : entry.docId = docId
    · subst here
      simp only [if_pos, beq_self_eq_true]
      omega
    · rw [if_neg here, if_neg (by simpa using here), Nat.add_zero]

/-- A result shows the count of its document, this retrieval included. -/
theorem collect_records (now : ℚ) (raw : List (IndexEntry × ℚ)) (distinct : (raw.map fun pair => pair.1.docId).Nodup)
    (provenance : Dict String ProvenanceRecord) : ∀ result ∈ (collect tools now raw provenance).2,
      result.provenanceRecord.retrievalCount = retrievals provenance result.docId + 1 ∧
        result.provenanceWeight = computeProvenanceWeight tools now result.provenanceRecord ∧
        result.docId ∈ raw.map fun pair => pair.1.docId := by
  induction raw generalizing provenance with
  | nil => exact fun _ member => absurd member List.not_mem_nil
  | cons pair raw ih =>
    obtain ⟨entry, score⟩ := pair
    obtain ⟨fresh, restDistinct⟩ := List.nodup_cons.mp distinct
    have later := ih restDistinct (provenance.set entry.docId (retrieve tools now provenance entry))
    intro result member
    rcases List.mem_cons.mp member with rfl | inRest
    · exact ⟨retrieve_count tools now provenance entry, rfl, List.mem_cons_self⟩
    · obtain ⟨counted, weighed, inside⟩ := later result inRest
      have other : entry.docId ≠ result.docId := by
        intro same
        rw [← same] at inside
        exact fresh inside
      rw [retrievals_set, if_neg other] at counted
      exact ⟨counted, weighed, List.mem_cons_of_mem _ inside⟩

/-- A call on a store that stays open. -/
inductive Request where
  | append (event : Event)
  | search (now : ℚ) (query : String) (topK : ℤ)

def Request.appended : Request → Option Event
  | .append event => some event
  | .search _ _ _ => none

/-- What a request leaves, and what a search returns. -/
def answer (state : MemoryStore × File) : Request → (MemoryStore × File) × Option (List SearchResult)
  | .append event => (state.1.append tools state.2 event, none)
  | .search now query topK =>
    let (store, results) := state.1.search tools now query topK
    ((store, state.2), some results)

/-- What requests leave, and what the searches among them returned. -/
def answerAll (state : MemoryStore × File) : List Request → (MemoryStore × File) × List (List SearchResult)
  | [] => (state, [])
  | request :: rest =>
    let (next, results) := answer tools state request
    let (last, found) := answerAll next rest
    (last, results.toList ++ found)

/-- The searches that returned a document. -/
def returned (found : List (List SearchResult)) (docId : String) : ℕ :=
  found.countP fun results => docId ∈ results.map SearchResult.docId

variable {tools} {state : MemoryStore × File}

theorem docIds_collect (now : ℚ) (raw : List (IndexEntry × ℚ)) (provenance : Dict String ProvenanceRecord) :
    (collect tools now raw provenance).2.map SearchResult.docId = raw.map fun pair => pair.1.docId := by
  have findings := congrArg (List.map Finding.docId) (findings_collect tools now raw provenance)
  rwa [List.map_map, List.map_map] at findings

theorem answerAll_index (requests : List Request) : (answerAll tools state requests).1.1.index =
    (requests.filterMap Request.appended).foldl (fun index event => (indexEvent tools index event).recomputeIdf tools.math)
      state.1.index := by
  induction requests generalizing state with
  | nil => rfl
  | cons request rest ih =>
    show (answerAll tools (answer tools state request).1 rest).1.1.index = _
    rw [ih]
    cases request <;> rfl

theorem answerAll_entries (requests : List Request) : (answerAll tools state requests).1.1.index.entries =
    state.1.index.entries ++ (requests.filterMap Request.appended).map (entryOf tools) := by
  rw [answerAll_index]
  exact entries_foldl (fun _ _ => rfl) _ _

/-- The identifiers of the entries that a store has, and of the events that
requests append. -/
def identifiers (index : TfidfIndex) (requests : List Request) : List String :=
  index.entries.map IndexEntry.docId ++ (requests.filterMap Request.appended).map Event.eventId

theorem ids_answerAll (requests : List Request) :
    (answerAll tools state requests).1.1.index.entries.map IndexEntry.docId = identifiers state.1.index requests := by
  rw [answerAll_entries, List.map_append, List.map_map]
  rfl

/-- The pairs that a search goes through. -/
def hits (tools : TextTools) (store : MemoryStore) (query : String) (topK : ℤ) : List (IndexEntry × ℚ) :=
  TfidfIndex.ranked (queryScore tools store.index.idf query) topK store.index.entries

theorem search_eq (store : MemoryStore) (now : ℚ) (query : String) (topK : ℤ) :
    store.search tools now query topK =
      ({ store with provenance := (collect tools now (hits tools store query topK) store.provenance).1 },
        (collect tools now (hits tools store query topK) store.provenance).2) :=
  rfl

theorem hits_eq (store : MemoryStore) (query : String) (count : ℕ) : hits tools store query count =
    ((TfidfIndex.ordering (queryScore tools store.index.idf query) store.index.entries).take count).map fun entry =>
      (entry, roundTo 6 (queryScore tools store.index.idf query entry)) := by
  rw [hits, TfidfIndex.ranked_eq, sliceTo, if_pos (Int.natCast_nonneg count), Int.toNat_natCast]

/-- A search returns no document twice. -/
theorem hits_distinct {store : MemoryStore} (distinct : (store.index.entries.map IndexEntry.docId).Nodup) (query : String)
    (topK : ℤ) : ((hits tools store query topK).map fun pair => pair.1.docId).Nodup := by
  have whole : ((TfidfIndex.ordering (queryScore tools store.index.idf query) store.index.entries).map
      IndexEntry.docId).Nodup :=
    ((TfidfIndex.ordering_perm _ _).map IndexEntry.docId).nodup_iff.mpr
      (distinct.sublist (List.filter_sublist.map IndexEntry.docId))
  rw [hits, TfidfIndex.ranked_eq, List.map_map]
  exact whole.sublist ((List.take_sublist _ _).map _)

theorem found_pairs (store : MemoryStore) (now : ℚ) (query : String) (topK : ℤ) :
    (store.search tools now query topK).2.map (fun result => (result.docId, result.score)) =
      (hits tools store query topK).map fun pair => (pair.1.docId, pair.2) := by
  have findings := congrArg (List.map fun finding : Finding => (finding.docId, finding.score))
    (findings_collect tools now (hits tools store query topK) store.provenance)
  rwa [List.map_map, List.map_map] at findings

/-- A loop over a part of the pairs returns that part of the results. -/
theorem collect_prefix (now : ℚ) (first second : List (IndexEntry × ℚ)) (provenance : Dict String ProvenanceRecord) :
    (collect tools now first provenance).2 <+: (collect tools now (first ++ second) provenance).2 := by
  induction first generalizing provenance with
  | nil => exact List.nil_prefix
  | cons pair first ih =>
    show _ :: _ <+: _ :: _
    exact List.cons_prefix_cons.mpr ⟨rfl, ih _⟩

theorem search_prefix (store : MemoryStore) (now : ℚ) (query : String) (count : ℕ) :
    (store.search tools now query count).2 <+: (store.search tools now query (count + 1 : ℕ)).2 := by
  rw [search_eq, search_eq, hits_eq, hits_eq]
  have first : (TfidfIndex.ordering (queryScore tools store.index.idf query) store.index.entries).take count <+:
      (TfidfIndex.ordering (queryScore tools store.index.idf query) store.index.entries).take (count + 1) :=
    List.take_prefix_take_left (Nat.le_succ count)
  obtain ⟨rest, split⟩ := first
  rw [← split, List.map_append]
  exact collect_prefix now _ _ _

/-- The records count the searches that returned a document. -/
theorem answerAll_retrievals (requests : List Request) (distinct : (identifiers state.1.index requests).Nodup)
    (docId : String) : retrievals (answerAll tools state requests).1.1.provenance docId =
      retrievals state.1.provenance docId + returned (answerAll tools state requests).2 docId := by
  induction requests generalizing state with
  | nil => rfl
  | cons request rest ih =>
    cases request with
    | append event =>
      have later := @ih (answer tools state (.append event)).1 (by
        have moved : identifiers (answer tools state (.append event)).1.1.index rest =
            identifiers state.1.index (.append event :: rest) := by
          rw [← @ids_answerAll tools, ← @ids_answerAll tools]
          rfl
        rwa [moved])
      exact later
    | search now query topK =>
      have own : (state.1.index.entries.map IndexEntry.docId).Nodup := (List.nodup_append.mp distinct).1
      have later := @ih (answer tools state (.search now query topK)).1 distinct
      have counted := retrievals_collect tools now (hits tools state.1 query topK) state.1.provenance docId
      rw [(hits_distinct own query topK).count, ← @docIds_collect tools now _ state.1.provenance] at counted
      have first : returned (answerAll tools state (.search now query topK :: rest)).2 docId =
          (if docId ∈ (collect tools now (hits tools state.1 query topK) state.1.provenance).2.map SearchResult.docId
            then 1 else 0) +
          returned (answerAll tools (answer tools state (.search now query topK)).1 rest).2 docId := by
        show returned ((collect tools now (hits tools state.1 query topK) state.1.provenance).2 :: _) docId = _
        rw [returned, List.countP_cons, Nat.add_comm]
        simp only [decide_eq_true_eq]
        rfl
      rw [first, ← Nat.add_assoc, ← counted]
      exact later

/-- Over any history of appends and searches with distinct identifiers: a search
ranks all entries by their score and returns the first of them, whatever has
been searched before, and the records count what was returned. -/
theorem search_history (tools : TextTools) (index : TfidfIndex) (pyramid : MemoryPyramid) (file : File)
    (requests : List Request) (distinct : (identifiers index requests).Nodup) :
    let start : MemoryStore × File := (⟨index, pyramid, ∅⟩, file)
    let store := (answerAll tools start requests).1.1
    let found := (answerAll tools start requests).2
    store.index.entries = index.entries ++ (requests.filterMap Request.appended).map (entryOf tools) ∧
      (∀ query, ∃ ordered : List IndexEntry,
        ordered.Perm (store.index.entries.filter fun entry => 0 < queryScore tools store.index.idf query entry) ∧
        (ordered.Pairwise fun a b =>
          roundTo 6 (queryScore tools store.index.idf query b) < roundTo 6 (queryScore tools store.index.idf query a) ∨
            roundTo 6 (queryScore tools store.index.idf query a) = roundTo 6 (queryScore tools store.index.idf query b) ∧
              [a, b].Sublist store.index.entries) ∧
        ∀ now (count : ℕ), (store.search tools now query count).2.map (fun result => (result.docId, result.score)) =
          (ordered.take count).map fun entry => (entry.docId, roundTo 6 (queryScore tools store.index.idf query entry))) ∧
      (∀ now query (count : ℕ),
        (store.search tools now query count).2 <+: (store.search tools now query (count + 1 : ℕ)).2) ∧
      (∀ others otherFile, others.filterMap Request.appended = requests.filterMap Request.appended →
        ∀ now otherNow query topK,
          ((answerAll tools (⟨index, pyramid, ∅⟩, otherFile) others).1.1.search tools otherNow query topK).2.map
              (fun result => (result.docId, result.score)) =
            (store.search tools now query topK).2.map fun result => (result.docId, result.score)) ∧
      (∀ docId, retrievals store.provenance docId = returned found docId) ∧
      ∀ now query topK, ∀ result ∈ (store.search tools now query topK).2,
        result.provenanceRecord.retrievalCount = returned found result.docId + 1 ∧
          (returned found result.docId = 0 → result.provenanceWeight = 1) ∧
          1 ≤ result.provenanceWeight ∧ result.provenanceWeight ≤ 3 / 2 := by
  intro start store found
  have ids : (store.index.entries.map IndexEntry.docId).Nodup := by
    rw [ids_answerAll]
    exact distinct
  have counts : ∀ docId, retrievals store.provenance docId = returned found docId := by
    intro docId
    have counted := @answerAll_retrievals tools start requests distinct docId
    have none : retrievals start.1.provenance docId = 0 := rfl
    rw [none, Nat.zero_add] at counted
    exact counted
  refine ⟨answerAll_entries requests, ?_, fun now query count => search_prefix store now query count, ?_, counts, ?_⟩
  · intro query
    refine ⟨TfidfIndex.ordering (queryScore tools store.index.idf query) store.index.entries,
      TfidfIndex.ordering_perm _ _, TfidfIndex.ordering_sorted _ _ ids.of_map, ?_⟩
    intro now count
    rw [found_pairs, hits_eq, List.map_map]
    rfl
  · intro others otherFile same now otherNow query topK
    have sameIndex : (answerAll tools (⟨index, pyramid, ∅⟩, otherFile) others).1.1.index = store.index := by
      rw [answerAll_index, answerAll_index, same]
    rw [found_pairs, found_pairs, hits, hits, sameIndex]
  · intro now query topK result member
    obtain ⟨counted, weighed, _⟩ := collect_records tools now _ (hits_distinct ids query topK) store.provenance result member
    rw [counts] at counted
    refine ⟨counted, ?_, ?_⟩
    · intro never
      rw [weighed]
      refine computeProvenanceWeight_first tools now ?_
      omega
    · rw [weighed]
      exact computeProvenanceWeight_mem tools now _

theorem search_history_notes :
    let start : MemoryStore × File := (⟨.empty, ⟨{}, defaultWeights⟩, ∅⟩, none)
    let requests : List Request := [.append ⟨"n", "a", "s", "i", "", ∅⟩, .search 0 "a" 5, .search 0 "b" 5]
    ∀ docId, retrievals (answerAll epochTools start requests).1.1.provenance docId =
      returned (answerAll epochTools start requests).2 docId :=
  (search_history epochTools .empty ⟨{}, defaultWeights⟩ none _ (by decide)).2.2.2.2.1

end MemoryStore

end Centroid
