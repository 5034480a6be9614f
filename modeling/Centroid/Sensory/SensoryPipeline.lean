import Centroid.Memory.Rebuild
import Centroid.Sensory.CodeEncoder
import Centroid.Sensory.LatentProjector

namespace Centroid

namespace CodeEncoder

variable (world : ScanWorld) (rootPath : PurePath)

/-- The files of a scan that are looked at, in their order. -/
def candidates : List PurePath := ((world.rglob rootPath).mergeSort comesFirst).filter fun p => !isSkipped p

/-- A file with a text that the parser is asked about. -/
def encodable (p : PurePath) : Bool := (world.read p).isSome && suffix p = ".py"

/-- The text of a file, under its path from the root of the scan. -/
def EncodesAs (p : PurePath) (text : SensedText) : Prop :=
  ∃ perceived, encodeFile world p = .ok (some perceived) ∧ text = rebase rootPath p perceived

variable {world rootPath}

theorem encodeFile_of_not_encodable {p : PurePath} (other : encodable world p = false) :
    encodeFile world p = .ok none := by
  rw [encodable, Bool.and_eq_false_iff] at other
  unfold encodeFile
  cases text : world.read p with
  | none => rfl
  | some source =>
    rw [text] at other
    have unsuited : suffix p ≠ ".py" := of_decide_eq_false (other.resolve_left (fun none => nomatch none))
    exact if_pos unsuited

theorem encodeFile_of_encodable {p : PurePath} (source : encodable world p = true) {found : Option SensedText}
    (ok : encodeFile world p = .ok found) : ∃ perceived, found = some perceived := by
  rw [encodable, Bool.and_eq_true, decide_eq_true_iff] at source
  obtain ⟨text, readable⟩ := Option.isSome_iff_exists.mp source.1
  unfold encodeFile at ok
  rw [readable] at ok
  dsimp only at ok
  rw [if_neg (not_not_intro source.2)] at ok
  split at ok
  · cases ok
  · obtain ⟨parts, -, rest⟩ := Raises.bind_eq_ok ok
    exact ⟨_, (Except.ok.inj rest).symm⟩

variable (world rootPath)

/-- The files that are skipped leave no trace. -/
theorem encodeEach_filter (maxFiles : ℤ) (results : List SensedText) (files : List PurePath) :
    encodeEach world rootPath maxFiles results files =
      encodeEach world rootPath maxFiles results (files.filter fun p => !isSkipped p) := by
  induction files generalizing results with
  | nil => rfl
  | cons p files ih =>
    cases skipped : isSkipped p with
    | true =>
      rw [List.filter_cons_of_neg (by rw [skipped]; decide), encodeEach, if_pos skipped]
      exact ih results
    | false =>
      rw [List.filter_cons_of_pos (by rw [skipped]; rfl), encodeEach, encodeEach, skipped]
      simp only [Bool.false_eq_true, if_false, ih]

variable {world rootPath}

/-- The files that are reached before there are enough texts can be parsed, if some
texts are there. -/
def Reads (world : ScanWorld) (rootPath : PurePath) (m n : ℕ) (files : List PurePath) : Prop :=
  ∀ k p, files[k]? = some p → n + (files.take k).countP (encodable world) < m → encodable world p = true →
    ∃ text, EncodesAs world rootPath p text

theorem reads_of_full {m n : ℕ} (full : m ≤ n) (files : List PurePath) : Reads world rootPath m n files := by
  intro k p _ before
  omega

theorem reads_cons_of_not_encodable {m n : ℕ} {p : PurePath} (other : encodable world p = false) (files : List PurePath) :
    Reads world rootPath m n (p :: files) ↔ Reads world rootPath m n files := by
  have count (k : ℕ) : ((p :: files).take (k + 1)).countP (encodable world) = (files.take k).countP (encodable world) := by
    rw [List.take_succ_cons, List.countP_cons_of_neg (by rw [other]; decide)]
  constructor
  · intro reads k q found before
    exact reads (k + 1) q found (by rwa [count])
  · intro reads k q found before source
    cases k with
    | zero =>
      rw [← Option.some.inj found, other] at source
      cases source
    | succ k =>
      rw [count] at before
      exact reads k q found before source

theorem reads_cons_of_encodable {m n : ℕ} (room : n < m) {p : PurePath} (source : encodable world p = true)
    (files : List PurePath) :
    Reads world rootPath m n (p :: files) ↔
      (∃ text, EncodesAs world rootPath p text) ∧ Reads world rootPath m (n + 1) files := by
  have count (k : ℕ) :
      n + ((p :: files).take (k + 1)).countP (encodable world) = n + 1 + (files.take k).countP (encodable world) := by
    rw [List.take_succ_cons, List.countP_cons_of_pos source]
    omega
  constructor
  · intro reads
    refine ⟨reads 0 p rfl (by simpa using room) source, fun k q found before => ?_⟩
    exact reads (k + 1) q found (by rwa [count])
  · rintro ⟨first, reads⟩ k q found before here
    cases k with
    | zero =>
      rw [← Option.some.inj found]
      exact first
    | succ k =>
      rw [count] at before
      exact reads k q found before here

/-- The files are read one after the other until there are enough texts: a file
that cannot be parsed makes the scan fail exactly if it is reached before. -/
theorem encodeEach_spec {m : ℕ} (files : List PurePath) (kept : ∀ p ∈ files, isSkipped p = false)
    (results : List SensedText) (room : results.length < m) :
    ((∃ texts, encodeEach world rootPath m results files = .ok texts) ↔ Reads world rootPath m results.length files) ∧
      ∀ texts, encodeEach world rootPath m results files = .ok texts → ∃ more, texts = results ++ more ∧
        List.Forall₂ (EncodesAs world rootPath) ((files.filter (encodable world)).take (m - results.length)) more := by
  induction files generalizing results with
  | nil =>
    refine ⟨iff_of_true ⟨results, rfl⟩ (fun k p found => nomatch found), fun texts ok => ⟨[], ?_, ?_⟩⟩
    · rw [List.append_nil]
      exact (Except.ok.inj ok).symm
    · rw [List.filter_nil, List.take_nil]
      exact .nil
  | cons p files ih =>
    have keptLater : ∀ q ∈ files, isSkipped q = false := fun q member => kept q (List.mem_cons_of_mem _ member)
    rw [encodeEach, kept p List.mem_cons_self, if_neg Bool.false_ne_true]
    cases source : encodable world p with
    | false =>
      rw [encodeFile_of_not_encodable source, reads_cons_of_not_encodable source,
        List.filter_cons_of_neg (by rw [source]; decide)]
      have open_ : ¬ (m : ℤ) ≤ (results ++ ((none : Option SensedText).map (rebase rootPath p)).toList).length := by
        simp
        omega
      dsimp only
      rw [if_neg open_]
      have same : results ++ ((none : Option SensedText).map (rebase rootPath p)).toList = results := List.append_nil _
      rw [same]
      exact ih keptLater results room
    | true =>
      rw [reads_cons_of_encodable room source, List.filter_cons_of_pos source]
      cases read : encodeFile world p with
      | error e =>
        refine ⟨iff_of_false (fun ⟨_, ok⟩ => nomatch ok) ?_, fun _ ok => nomatch ok⟩
        rintro ⟨⟨text, perceived, encoded, -⟩, -⟩
        rw [read] at encoded
        cases encoded
      | ok found =>
        obtain ⟨perceived, rfl⟩ := encodeFile_of_encodable source read
        have encoded : EncodesAs world rootPath p (rebase rootPath p perceived) := ⟨perceived, read, rfl⟩
        have grown : (results ++ [rebase rootPath p perceived]).length = results.length + 1 := by simp
        have split : m - results.length = m - (results.length + 1) + 1 := by omega
        have added : results ++ ((some perceived).map (rebase rootPath p)).toList =
            results ++ [rebase rootPath p perceived] :=
          rfl
        have first : ∃ text, EncodesAs world rootPath p text := ⟨_, encoded⟩
        dsimp only
        rw [and_iff_right first, split, List.take_succ_cons, added]
        by_cases full : m ≤ results.length + 1
        · rw [if_pos (by rw [grown]; exact_mod_cast full)]
          refine ⟨iff_of_true ⟨_, rfl⟩ (reads_of_full full files), fun texts ok => ⟨[rebase rootPath p perceived], ?_, ?_⟩⟩
          · exact (Except.ok.inj ok).symm
          · rw [Nat.sub_eq_zero_of_le full, List.take_zero]
            exact .cons encoded .nil
        · rw [if_neg (by rw [grown]; exact_mod_cast full)]
          obtain ⟨returns, tells⟩ := ih keptLater (results ++ [rebase rootPath p perceived]) (by rw [grown]; omega)
          rw [grown] at returns tells
          refine ⟨returns, fun texts ok => ?_⟩
          obtain ⟨more, rfl, each⟩ := tells texts ok
          refine ⟨rebase rootPath p perceived :: more, ?_, .cons encoded each⟩
          rw [List.append_assoc, List.singleton_append]

end CodeEncoder

/-- The initial scan of the modules, with what it indexes. -/
structure SensoryPipeline (K : Type) where
  coreRoot : PurePath
  memoryStore : Option MemoryStore
  projector : LatentProjector K

/-- A startup scan: what it finds, and the identifiers and times of its events. -/
structure StartupScan where
  world : ScanWorld
  draws : ℕ → String × String

namespace SensoryPipeline

open CodeEncoder MemoryStore

variable {K : Type}

def init (coreRoot : String := "core/") (memoryStore : Option MemoryStore := none) : SensoryPipeline K :=
  ⟨.parse coreRoot, memoryStore, .init⟩

/-- The event that a scan appends for a text. -/
def perceptionEvent (draw : String × String) (perceived : SensedText) : Event where
  eventType := "sensory_perception"
  content := perceived.content
  source := "sensory_pipeline"
  eventId := draw.1
  timestamp := draw.2
  metadata := .ofList
    [("classification", "sensory"), ("source_kind", perceived.sourceKind.name), ("source_id", perceived.sourceId),
      ("content_length", toString perceived.content.length)]

def perceptionEvents (draws : ℕ → String × String) (perceivedList : List SensedText) : List Event :=
  perceivedList.mapIdx fun i perceived => perceptionEvent (draws i) perceived

variable [Field K] (tools : TextTools) (math : MathTools K)

/-- `run_startup_scan`, with the file of the memory. -/
def runStartupScan (self : SensoryPipeline K) (file : File) (scan : StartupScan) :
    (SensoryPipeline K × File) × Except EncodeError (List SensedText) :=
  match encodeDirectory scan.world self.coreRoot with
  | .error e => ((self, file), .error e)
  | .ok perceivedList =>
    let projector := self.projector.addBatch tools math perceivedList
    match self.memoryStore with
    | none => (({ self with projector }, file), .ok perceivedList)
    | some store =>
      let (store, file) := (perceptionEvents scan.draws perceivedList).foldl
        (fun state event => state.1.append tools state.2 event) (store, file)
      (({ self with projector, memoryStore := some store }, file), .ok perceivedList)

/-- One scan after the other. -/
def runScans (self : SensoryPipeline K) (file : File) :
    List StartupScan → (SensoryPipeline K × File) × List (Except EncodeError (List SensedText))
  | [] => ((self, file), [])
  | scan :: scans =>
    let (state, reply) := self.runStartupScan tools math file scan
    let (final, replies) := runScans state.1 state.2 scans
    (final, reply :: replies)

/-- The texts of a scan, none if it fails. -/
def textsOf (coreRoot : PurePath) (scan : StartupScan) : List SensedText :=
  match encodeDirectory scan.world coreRoot with
  | .ok perceivedList => perceivedList
  | .error _ => []

def eventsOf (coreRoot : PurePath) (scan : StartupScan) : List Event :=
  perceptionEvents scan.draws (textsOf coreRoot scan)

variable {tools math} {self : SensoryPipeline K} {texts : List SensedText} {events : List Event}

/-- A scan that fails changes nothing, and one that succeeds adds its texts to the
index and their events to the memory. -/
theorem runStartupScan_spec (indexed : LatentProjector.Indexed tools math self.projector texts) (scan : StartupScan) :
    let after := (self.runStartupScan tools math (journal events) scan).1
    after.1.coreRoot = self.coreRoot ∧ after.1.memoryStore.isSome = self.memoryStore.isSome ∧
      LatentProjector.Indexed tools math after.1.projector (texts ++ textsOf self.coreRoot scan) ∧
      after.2 = journal (events ++ if self.memoryStore.isSome then eventsOf self.coreRoot scan else []) := by
  unfold runStartupScan eventsOf textsOf
  cases encodeDirectory scan.world self.coreRoot with
  | error e =>
    refine ⟨rfl, rfl, ?_, ?_⟩
    · rwa [List.append_nil]
    · rw [perceptionEvents, List.mapIdx_nil, ite_self, List.append_nil]
  | ok perceivedList =>
    have batch := indexed.call (.addBatch perceivedList)
    dsimp only
    cases memory : self.memoryStore with
    | none => exact ⟨rfl, rfl, batch, (congrArg journal (List.append_nil events)).symm⟩
    | some store =>
      refine ⟨rfl, rfl, batch, ?_⟩
      exact file_foldl_append tools store events (perceptionEvents scan.draws perceivedList)

variable (tools math) (scanOther : List Char → Option (Json × List Char)) (drawn : Json → String × String)

theorem runScans_state (indexed : LatentProjector.Indexed tools math self.projector texts) (scans : List StartupScan) :
    let final := (self.runScans tools math (journal events) scans).1
    LatentProjector.Indexed tools math final.1.projector (texts ++ scans.flatMap (textsOf self.coreRoot)) ∧
      final.2 = journal (events ++ if self.memoryStore.isSome then scans.flatMap (eventsOf self.coreRoot) else []) := by
  induction scans generalizing self texts events with
  | nil =>
    refine ⟨?_, ?_⟩
    · rw [List.flatMap_nil, List.append_nil]
      exact indexed
    · rw [List.flatMap_nil, ite_self, List.append_nil]
      rfl
  | cons scan scans ih =>
    obtain ⟨root, memory, held, file⟩ := @runStartupScan_spec K _ tools math self texts events indexed scan
    have later := @ih (self.runStartupScan tools math (journal events) scan).1.1 _
      (events ++ if self.memoryStore.isSome then eventsOf self.coreRoot scan else []) held
    rw [root, memory, ← file, List.append_assoc, List.append_assoc] at later
    refine ⟨?_, ?_⟩
    · rw [List.flatMap_cons]
      exact later.1
    · rw [List.flatMap_cons]
      refine later.2.trans ?_
      cases self.memoryStore.isSome with
      | false => rfl
      | true => rfl

theorem runStartupScan_reply (self : SensoryPipeline K) (file : File) (scan : StartupScan) :
    (self.runStartupScan tools math file scan).2 = encodeDirectory scan.world self.coreRoot ∧
      (self.runStartupScan tools math file scan).1.1.coreRoot = self.coreRoot := by
  unfold runStartupScan
  cases encodeDirectory scan.world self.coreRoot with
  | error e => exact ⟨rfl, rfl⟩
  | ok perceivedList =>
    cases self.memoryStore with
    | none => exact ⟨rfl, rfl⟩
    | some store => exact ⟨rfl, rfl⟩

theorem runScans_replies (self : SensoryPipeline K) (file : File) (scans : List StartupScan) :
    (self.runScans tools math file scans).2 = scans.map fun scan => encodeDirectory scan.world self.coreRoot := by
  induction scans generalizing self file with
  | nil => rfl
  | cons scan scans ih =>
    obtain ⟨reply, root⟩ := runStartupScan_reply tools math self file scan
    have later := ih (self.runStartupScan tools math file scan).1.1 (self.runStartupScan tools math file scan).1.2
    rw [root] at later
    rw [List.map_cons, ← reply, ← later]
    rfl

theorem encodeDirectory_spec (world : ScanWorld) (coreRoot : PurePath) :
    ((∃ texts, encodeDirectory world coreRoot = .ok texts) ↔ Reads world coreRoot 50 0 (candidates world coreRoot)) ∧
      ∀ texts, encodeDirectory world coreRoot = .ok texts →
        List.Forall₂ (EncodesAs world coreRoot) (((candidates world coreRoot).filter (encodable world)).take 50) texts := by
  have kept : ∀ p ∈ candidates world coreRoot, isSkipped p = false :=
    fun p member => Bool.eq_false_of_not_eq_true' (List.mem_filter.mp member).2
  obtain ⟨returns, tells⟩ := @encodeEach_spec world coreRoot 50 (candidates world coreRoot) kept [] (by decide)
  rw [encodeDirectory, encodeEach_filter]
  refine ⟨returns, fun texts ok => ?_⟩
  obtain ⟨more, rfl, each⟩ := tells texts ok
  exact each

/-- Startup scans of a changing tree of files. A scan fails exactly if a file cannot
be parsed that comes before the fiftieth text; then it adds nothing. Otherwise its
texts are those of the first fifty source files in the order of their paths, none
of them in a skipped directory. The index holds the texts of all the scans in their
order, and the memory has one event for each of them and no other. -/
theorem runScans_spec (coreRoot : String) (memoryStore : Option MemoryStore) (scans : List StartupScan) :
    let root := PurePath.parse coreRoot
    let run := (init coreRoot memoryStore : SensoryPipeline K).runScans tools math none scans
    let events := if memoryStore.isSome then scans.flatMap (eventsOf root) else []
    LatentProjector.Indexed tools math run.1.1.projector (scans.flatMap (textsOf root)) ∧
      run.1.2 = journal events ∧ MemoryStore.tail scanOther drawn run.1.2 0 = some (events.map Event.stored) ∧
      List.Forall₂ (fun scan reply =>
        ((∃ texts, reply = .ok texts) ↔ Reads scan.world root 50 0 (candidates scan.world root)) ∧
          ∀ texts, reply = .ok texts → textsOf root scan = texts ∧
            List.Forall₂ (EncodesAs scan.world root)
              (((candidates scan.world root).filter (encodable scan.world)).take 50) texts)
        scans run.2 := by
  intro root run events
  obtain ⟨indexed, file⟩ :=
    @runScans_state K _ tools math (init coreRoot memoryStore) [] [] LatentProjector.indexed_init scans
  have holds : run.1.2 = journal events := file
  refine ⟨indexed, holds, ?_, ?_⟩
  · have read := tail_journal scanOther drawn events 0
    rw [holds]
    rwa [if_pos rfl] at read
  · have replies : run.2 = scans.map fun scan => encodeDirectory scan.world root := runScans_replies tools math _ none scans
    rw [replies, List.forall₂_map_right_iff, List.forall₂_same]
    intro scan _
    obtain ⟨returns, tells⟩ := encodeDirectory_spec scan.world root
    refine ⟨returns, fun texts ok => ⟨?_, tells texts ok⟩⟩
    rw [textsOf, ok]

end SensoryPipeline

end Centroid
