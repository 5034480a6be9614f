import Centroid.Planner.StateLoading

namespace Centroid.StateLoad

section Entries

variable {N S : Type} {κ β : Type} [DecidableEq κ]

/-- What both loaders do with the entries of a document, where they keep them in
a state. -/
def loadEntries (keep : Dict κ β → S) (read : Value N → Except StateError (κ × β))
    (entries : Except StateError (List (Value N))) : S × Option StateError :=
  match entries with
  | .error e => (keep ∅, some e)
  | .ok items =>
    let (loaded, stopped) := LoadLoop.run read items ∅
    (keep loaded, stopped)

/-- The entries of a document can all be read, under distinct keys. Where they
cannot be run over, or the first of them is missing a name or has values of a
wrong type, nothing but the entries must have been read. -/
def EntriesSafe (read : Value N → Except StateError (κ × β)) (clean : Prop)
    (entries : Except StateError (List (Value N))) : Prop :=
  ((∃ e, entries = .error e) → clean) ∧ ∀ items, entries = .ok items → LoadLoop.Safe read StateError.caught clean items

theorem loadEntries_iff (keep : Dict κ β → S) (view : S → Dict κ β) (missing : S) (clean : Prop)
    (read : Value N → Except StateError (κ × β)) (entries : Except StateError (List (Value N)))
    (viewed : ∀ loaded, view (keep loaded) = loaded) (isMissing : ∀ loaded, keep loaded = missing ↔ loaded = ∅ ∧ clean)
    (caught : ∀ e, entries = .error e → e.caught = true) :
    (∃ state, constructed (loadEntries keep read entries) = .ok state ∧
        ((∃ items, entries = .ok items ∧ LoadLoop.Whole read items (view state)) ∨ state = missing)) ↔
      EntriesSafe read clean entries := by
  simp only [constructed_ok_iff]
  cases entries with
  | error e =>
    constructor
    · rintro ⟨_, ⟨-, rfl⟩, ⟨_, same, -⟩ | empty⟩
      · cases same
      · refine ⟨fun _ => ((isMissing ∅).mp empty).2, ?_⟩
        rintro items ⟨⟩
    · rintro ⟨clean, -⟩
      refine ⟨keep ∅, ⟨?_, rfl⟩, Or.inr ((isMissing ∅).mpr ⟨rfl, clean ⟨e, rfl⟩⟩)⟩
      rintro _ ⟨⟩
      exact caught e rfl
  | ok items =>
    have general := LoadLoop.run_whole_or_empty_iff read StateError.caught clean items
    constructor
    · rintro ⟨_, ⟨only, rfl⟩, outcome⟩
      constructor
      · rintro ⟨_, ⟨⟩⟩
      · rintro _ ⟨⟩
        refine general.mp ⟨only, ?_⟩
        rcases outcome with ⟨_, ⟨⟩, whole⟩ | empty
        · rw [loadEntries, viewed] at whole
          exact Or.inl whole
        · exact Or.inr ((isMissing _).mp empty)
    · rintro ⟨-, safe⟩
      obtain ⟨only, outcome⟩ := general.mpr (safe items rfl)
      refine ⟨_, ⟨only, rfl⟩, ?_⟩
      rcases outcome with whole | empty
      · exact Or.inl ⟨items, rfl, by rwa [loadEntries, viewed]⟩
      · exact Or.inr ((isMissing _).mpr empty)

end Entries

section Stores

variable {N F : Type} [DecidableEq N]

/-- Entries of an object that cannot be run over are a type error. -/
theorem entries_caught {object : List (Key N × Value N)} {name : String} {e : StateError}
    (fails : getOr (.dict object) name (.list []) >>= iterate = .error e) : e.caught = true := by
  have type : ∀ value : Value N, iterate value = .error e → e = .typeError := by
    intro value fails
    cases value <;> cases fails <;> rfl
  rw [type _ fails]
  rfl

/-- A document that is no object has no entries to offer. -/
theorem object_or_attributeError (data : Value N) :
    (∃ object, data = .dict object) ∨ ∀ name default, getOr data name default = .error .attributeError := by
  cases data with
  | dict object => exact Or.inl ⟨object, rfl⟩
  | _ => exact Or.inr fun _ _ => rfl

variable (reading : NumberReading N F)

/-- A calibration store can be constructed on the document, and holds every
record of it in its place, or what it holds when the file is missing. -/
def CalibrationAllOrNothing (data : Value N) : Prop :=
  ∃ records, constructed (loadRecords reading (.document data)) = .ok records ∧
    ((∃ entries, documentRecords data = .ok entries ∧ LoadLoop.Whole (readRecord reading) entries records) ∨
      constructed (loadRecords reading .missing) = .ok records)

/-- The document is an object with safe entries. -/
def RecordsSafe (data : Value N) : Prop :=
  ∃ object, data = .dict object ∧ EntriesSafe (readRecord reading) True (documentRecords data)

theorem loadRecords_missing_iff (records : Dict String (LoadedRecord N F)) :
    constructed (loadRecords reading .missing) = .ok records ↔ records = ∅ := by
  rw [loadRecords, constructed, Except.ok.injEq]
  exact eq_comm

theorem calibration_all_or_nothing_iff (data : Value N) :
    CalibrationAllOrNothing reading data ↔ RecordsSafe reading data := by
  simp only [CalibrationAllOrNothing, loadRecords_missing_iff]
  rcases object_or_attributeError data with ⟨object, rfl⟩ | noObject
  · have loaded : loadRecords reading (.document (.dict object)) =
        loadEntries id (readRecord reading) (documentRecords (.dict object)) := by
      rw [loadRecords]
      cases documentRecords (.dict object) <;> rfl
    have general := loadEntries_iff id id ∅ True (readRecord reading) (documentRecords (.dict object)) (fun _ => rfl)
      (fun _ => (and_true _).symm.to_iff) fun _ => entries_caught
    rw [loaded]
    constructor
    · exact fun outcome => ⟨object, rfl, general.mp outcome⟩
    · exact fun ⟨_, _, safe⟩ => general.mpr safe
  · constructor
    · rintro ⟨_, raised, -⟩
      rw [loadRecords, documentRecords, noObject] at raised
      cases raised
    · rintro ⟨object, rfl, -⟩
      cases noObject "records" .null

variable [DecidableEq F]

/-- The same for a plan tree constructed with a threshold, which is part of its
state. -/
def PlanTreeAllOrNothing (threshold : F) (data : Value N) : Prop :=
  ∃ tree, constructed (loadThreads reading threshold (.document data)) = .ok tree ∧
    ((∃ raws, documentThreads data = .ok raws ∧ LoadLoop.Whole (readThread reading) raws tree.threads) ∨
      constructed (loadThreads reading threshold .missing) = .ok tree)

/-- The document is an object with a threshold of a wrong type, or with one that
can be read and with safe entries. The threshold is read before them, so it must
be the one that the tree has anyway where they are not all loaded. -/
def ThreadsSafe (threshold : F) (data : Value N) : Prop :=
  ∃ object, data = .dict object ∧
    ((∃ e, documentThreshold reading threshold data = .error e ∧ e.caught = true) ∨
      ∃ own, documentThreshold reading threshold data = .ok own ∧
        EntriesSafe (readThread reading) (own = threshold) (documentThreads data))

theorem loadThreads_missing_iff (threshold : F) (tree : LoadedTree N F) :
    constructed (loadThreads reading threshold .missing) = .ok tree ↔ tree = ⟨threshold, ∅⟩ := by
  rw [loadThreads, constructed, Except.ok.injEq]
  exact eq_comm

theorem planTree_all_or_nothing_iff (threshold : F) (data : Value N) :
    PlanTreeAllOrNothing reading threshold data ↔ ThreadsSafe reading threshold data := by
  simp only [PlanTreeAllOrNothing, loadThreads_missing_iff]
  rcases object_or_attributeError data with ⟨object, rfl⟩ | noObject
  · cases read : documentThreshold reading threshold (.dict object) with
    | error e =>
      have stopped : loadThreads reading threshold (.document (.dict object)) = (⟨threshold, ∅⟩, some e) := by
        rw [loadThreads, read]
      rw [stopped]
      constructor
      · rintro ⟨_, kept, -⟩
        exact ⟨object, rfl, Or.inl ⟨e, read, ((constructed_ok_iff _ _).mp kept).1 e rfl⟩⟩
      · rintro ⟨_, _, ⟨other, same, isCaught⟩ | ⟨own, same, -⟩⟩
        · rw [read] at same
          cases same
          exact ⟨⟨threshold, ∅⟩, if_pos isCaught, Or.inr rfl⟩
        · rw [read] at same
          cases same
    | ok own =>
      have loaded : loadThreads reading threshold (.document (.dict object)) =
          loadEntries (LoadedTree.mk own) (readThread reading) (documentThreads (.dict object)) := by
        rw [loadThreads, read]
        cases documentThreads (.dict object) <;> rfl
      have general := loadEntries_iff (LoadedTree.mk own) LoadedTree.threads ⟨threshold, ∅⟩ (own = threshold)
        (readThread reading) (documentThreads (.dict object)) (fun _ => rfl)
        (fun _ => by rw [LoadedTree.mk.injEq, and_comm]) fun _ => entries_caught
      rw [loaded]
      constructor
      · exact fun outcome => ⟨object, rfl, Or.inr ⟨own, read, general.mp outcome⟩⟩
      · rintro ⟨_, _, ⟨e, same, -⟩ | ⟨other, same, safe⟩⟩
        · rw [read] at same
          cases same
        · rw [read] at same
          cases same
          exact general.mpr safe
  · constructor
    · rintro ⟨_, raised, -⟩
      have stopped : documentThreshold reading threshold data = .error .attributeError := by
        cases data with
        | dict object => cases noObject "" .null
        | _ => rfl
      rw [loadThreads, stopped] at raised
      cases raised
    · rintro ⟨object, rfl, -⟩
      cases noObject "threads" .null

end Stores

section Json

/-- Whatever JSON a state file holds, the loading of a store is all or nothing
exactly on the safe documents. -/
theorem stores_all_or_nothing_iff (floatOfText : String → Option PyFloat) (intOfText : String → Option ℤ)
    (render : Json → String) :
    let reading := jsonReading floatOfText intOfText render
    (∀ data : Json, CalibrationAllOrNothing reading data ↔ RecordsSafe reading data) ∧
      ∀ (threshold : PyFloat) (data : Json),
        PlanTreeAllOrNothing reading threshold data ↔ ThreadsSafe reading threshold data := by
  intro reading
  constructor
  · exact calibration_all_or_nothing_iff reading
  · exact planTree_all_or_nothing_iff reading

/-- A reading in which no text stands for a number. -/
def wordsOnly : NumberReading JsonNumber PyFloat := jsonReading (fun _ => none) (fun _ => none) fun _ => ""

def loadRecord : Json := .dict [(.str "field", .str "load"), (.str "horizon", .str "short")]

def namelessRecord : Json := .dict [(.str "horizon", .str "short")]

def temperatureRecord : Json := .dict [(.str "field", .str "temperature"), (.str "horizon", .str "short")]

/-- The second of three records has lost its field. -/
def brokenRecords : Json := .dict [(.str "records", .list [loadRecord, namelessRecord, temperatureRecord])]

/-- What comes before the broken record is loaded and what comes after it is
not. A document that is a list is raised about. -/
theorem prefix_is_kept :
    ¬ CalibrationAllOrNothing wordsOnly brokenRecords ∧
      (loadRecords wordsOnly (.document brokenRecords)).1.keys = ["load:short"] ∧
      ¬ CalibrationAllOrNothing wordsOnly (.list []) := by
  have broken : readRecord wordsOnly namelessRecord = .error (.keyError "field") := rfl
  refine ⟨?_, rfl, ?_⟩
  · rw [calibration_all_or_nothing_iff]
    rintro ⟨_, -, -, safe⟩
    rcases safe _ rfl with ⟨pairs, reads, -⟩ | ⟨item, rest, e, first, fails, -⟩
    · exact LoadLoop.not_reads_of_fails [loadRecord] broken pairs reads
    · cases first
      cases fails
  · rw [calibration_all_or_nothing_iff]
    rintro ⟨_, ⟨⟩, -⟩

end Json

end Centroid.StateLoad
