import Centroid.Coherence.CoherenceGraph
import Centroid.Fusion.ConceptGraph
import Centroid.Lib.FixedText
import Centroid.Lib.JoinedNames
import Centroid.Memory.Event

namespace Centroid

open FixedText Rounding

namespace TelemetryEncoder

def qualifier (value : ℚ) : String := if 3 / 4 < value then " (high)" else if value < 1 / 4 then " (low)" else ""

/-- One metric in the content. -/
def part (metric : String × ℚ) : String := metric.1 ++ "=" ++ String.ofList (fixedText 3 metric.2) ++ qualifier metric.2

def contentOf (sourceId : String) (metrics : Dict String ℚ) : String :=
  ", ".intercalate (("node " ++ sourceId ++ ":") :: (sortKeys metrics.entries).map part)

def encode (sourceId : String) (metrics : Dict String ℚ) (now : ℚ) : SensedText :=
  ⟨⟨contentOf sourceId metrics, sourceId⟩, .telemetry, now⟩

/-- A node whose score is a number, with its trend if there is one. -/
structure NodeReading where
  nodeId : String
  health : ℚ
  trend : Option ℚ

def NodeReading.metrics (self : NodeReading) : Dict String ℚ :=
  let health : Dict String ℚ := Dict.set ∅ "health_score" self.health
  match self.trend with
  | some trend => health.set "trend" trend
  | none => health

section

variable (floatOfText : String → Option ℚ) (keyText : Key ℚ → String)

/-- What is read of one node, nothing where its score is not a number; `none`
where its trend raises. `keyText` is the text of a key in the content. -/
def readNode (trends : Value ℚ) (entry : Key ℚ × Value ℚ) : Option (Option NodeReading) :=
  match entry.2.num? with
  | none => some none
  | some score =>
    match trends with
    | .dict nodeTrends =>
      match Assoc.get? nodeTrends entry.1 with
      | none => some (some ⟨keyText entry.1, score, none⟩)
      | some trend =>
        (CoherenceGraph.floatOf floatOfText trend).map fun trend => some ⟨keyText entry.1, score, some trend⟩
    | _ => some (some ⟨keyText entry.1, score, none⟩)

def readNodes (snapshot : List (Key ℚ × Value ℚ)) : Option (List NodeReading) :=
  match (Assoc.get? snapshot (.str "node_health")).getD (.dict []) with
  | .dict nodeHealth =>
    let trends := (Assoc.get? snapshot (.str "node_trends")).getD (.dict [])
    (nodeHealth.mapM (readNode floatOfText keyText trends)).map fun readings => readings.filterMap id
  | _ => some []

/-- `encode_snapshot`, `none` where it raises. -/
def encodeSnapshot (snapshot : List (Key ℚ × Value ℚ)) (now : ℚ) : Option (List SensedText) :=
  (readNodes floatOfText keyText snapshot).map fun nodes => nodes.map fun node => encode node.nodeId node.metrics now

end

/-- Values that the content does not tell apart. -/
def Alike (value value' : ℚ) : Prop :=
  roundTo 3 value = roundTo 3 value' ∧ (value < 0 ↔ value' < 0) ∧ (3 / 4 < value ↔ 3 / 4 < value') ∧
    (value < 1 / 4 ↔ value' < 1 / 4)

theorem band_eq_iff {high low high' low' : Prop} [Decidable high] [Decidable low] [Decidable high'] [Decidable low']
    (apart : high → ¬ low) (apart' : high' → ¬ low') :
    ((if high then " (high)" else if low then " (low)" else "") =
      if high' then " (high)" else if low' then " (low)" else "") ↔ (high ↔ high') ∧ (low ↔ low') := by
  by_cases isHigh : high <;> by_cases isHigh' : high' <;> by_cases isLow : low <;> by_cases isLow' : low' <;> simp_all

theorem qualifier_eq_iff (value value' : ℚ) :
    qualifier value = qualifier value' ↔ (3 / 4 < value ↔ 3 / 4 < value') ∧ (value < 1 / 4 ↔ value' < 1 / 4) := by
  have apart (x : ℚ) (high : 3 / 4 < x) : ¬ x < 1 / 4 := by
    intro low
    linarith
  exact band_eq_iff (apart value) (apart value')

/-- The number and the qualifier are read back from what they make together. -/
theorem fixedText_qualifier_inj {value value' : ℚ}
    (same : fixedText 3 value ++ (qualifier value).toList = fixedText 3 value' ++ (qualifier value').toList) :
    fixedText 3 value = fixedText 3 value' ∧ qualifier value = qualifier value' := by
  have number (x : ℚ) : (fixedText 3 x ++ (qualifier x).toList).takeWhile (· ≠ ' ') = fixedText 3 x := by
    have blank : ' ' ∉ fixedText 3 x := not_mem_fixedText (by decide) (by decide) (by decide) x
    rw [List.takeWhile_append_of_pos]
    · have none : (qualifier x).toList.takeWhile (· ≠ ' ') = [] := by
        unfold qualifier
        split
        · rfl
        · split <;> rfl
      rw [none, List.append_nil]
    · intro c member
      exact decide_eq_true fun isBlank => blank (isBlank ▸ member)
  have numbers := (number value).symm.trans ((congrArg (List.takeWhile (· ≠ ' ')) same).trans (number value'))
  rw [numbers] at same
  exact ⟨numbers, String.toList_inj.mp (List.append_cancel_left same)⟩

theorem toList_part (metric : String × ℚ) :
    (part metric).toList = metric.1.toList ++ '=' :: (fixedText 3 metric.2 ++ (qualifier metric.2).toList) := by
  simp [part]

/-- The characters of a value in the content besides its digits. -/
def marks : List Char := "-. (high)(low)".toList

theorem not_mem_value {c : Char} (noDigit : c.isDigit = false) (noMark : c ∉ marks) (value : ℚ) :
    c ∉ fixedText 3 value ++ (qualifier value).toList := by
  have sign : c ≠ '-' := fun same => noMark (same ▸ by decide)
  have point : c ≠ '.' := fun same => noMark (same ▸ by decide)
  have inMarks : (qualifier value).toList ⊆ marks := by
    unfold qualifier
    split
    · decide
    · split <;> decide
  rw [List.mem_append, not_or]
  exact ⟨not_mem_fixedText noDigit sign point value, fun member => noMark (inMarks member)⟩

theorem part_eq_iff (metric metric' : String × ℚ) :
    part metric = part metric' ↔ metric.1 = metric'.1 ∧ Alike metric.2 metric'.2 := by
  have alike : (fixedText 3 metric.2 = fixedText 3 metric'.2 ∧ qualifier metric.2 = qualifier metric'.2) ↔
      Alike metric.2 metric'.2 := by
    rw [fixedText_eq_iff (by decide), qualifier_eq_iff, Alike]
    tauto
  rw [← alike]
  constructor
  · intro same
    have chars := congrArg String.toList same
    rw [toList_part, toList_part] at chars
    -- A field may have the sign in it, so the last one counts.
    obtain ⟨field, value⟩ := JoinedNames.last_sep_inj '=' (not_mem_value (by decide) (by decide) metric.2)
      (not_mem_value (by decide) (by decide) metric'.2) chars
    exact ⟨String.toList_inj.mp field, fixedText_qualifier_inj value⟩
  · rintro ⟨field, text, band⟩
    rw [part, part, field, text, band]

theorem toList_contentOf (sourceId : String) (metrics : Dict String ℚ) :
    (contentOf sourceId metrics).toList = [',', ' '].intercalate
      (("node " ++ sourceId ++ ":").toList :: (sortKeys metrics.entries).map fun metric => (part metric).toList) := by
  rw [contentOf, String.toList_intercalate, List.map_cons, List.map_map]
  rfl

/-- No name in the content has a comma. -/
structure PlainNames (sourceId : String) (metrics : Dict String ℚ) : Prop where
  source : ',' ∉ sourceId.toList
  fields : ∀ metric ∈ metrics.entries, ',' ∉ metric.1.toList

theorem PlainNames.not_mem {sourceId : String} {metrics : Dict String ℚ} (plain : PlainNames sourceId metrics) :
    ∀ name ∈ ("node " ++ sourceId ++ ":").toList :: (sortKeys metrics.entries).map fun metric => (part metric).toList,
      ',' ∉ name := by
  intro name member
  rcases List.mem_cons.mp member with rfl | later
  · have source := plain.source
    simp [source]
  · obtain ⟨metric, listed, rfl⟩ := List.mem_map.mp later
    have field := plain.fields metric ((perm_sortKeys metrics.entries).mem_iff.mp listed)
    rw [toList_part, List.mem_append, List.mem_cons]
    rintro (inField | sign | inValue)
    · exact field inField
    · exact absurd sign (by decide)
    · exact not_mem_value (by decide) (by decide) metric.2 inValue

/-- Two contents are the same just when the node is, the fields are, and no value
can be told from the other. -/
theorem contentOf_eq_iff {sourceId sourceId' : String} {metrics metrics' : Dict String ℚ}
    (plain : PlainNames sourceId metrics) (plain' : PlainNames sourceId' metrics') :
    contentOf sourceId metrics = contentOf sourceId' metrics' ↔ sourceId = sourceId' ∧
      List.Forall₂ (fun metric metric' : String × ℚ => metric.1 = metric'.1 ∧ Alike metric.2 metric'.2)
        (sortKeys metrics.entries) (sortKeys metrics'.entries) := by
  have parts : ((sortKeys metrics.entries).map part = (sortKeys metrics'.entries).map part) ↔
      List.Forall₂ (fun metric metric' : String × ℚ => metric.1 = metric'.1 ∧ Alike metric.2 metric'.2)
        (sortKeys metrics.entries) (sortKeys metrics'.entries) := by
    rw [← List.forall₂_eq_eq_eq, List.forall₂_map_left_iff, List.forall₂_map_right_iff]
    simp only [part_eq_iff]
  rw [← parts]
  constructor
  · intro same
    have chars := congrArg String.toList same
    rw [toList_contentOf, toList_contentOf] at chars
    obtain ⟨source, fields⟩ := JoinedNames.intercalate_gap_inj ',' (by decide) plain.not_mem plain'.not_mem chars
    refine ⟨?_, ?_⟩
    · have whole := String.toList_inj.mp source
      exact (String.append_right_inj _).mp ((String.append_left_inj _).mp whole)
    · have back := congrArg (List.map String.ofList) fields
      rw [List.map_map, List.map_map] at back
      simpa [Function.comp_def] using back
  · rintro ⟨rfl, same⟩
    rw [contentOf, contentOf, same]

theorem NodeReading.entries_metrics (self : NodeReading) :
    self.metrics.entries = ("health_score", self.health) :: (self.trend.map (Prod.mk "trend")).toList := by
  unfold NodeReading.metrics
  cases self.trend <;> rfl

/-- The fields of a node come in the order of their names as they are. -/
theorem NodeReading.sortKeys_metrics (self : NodeReading) : sortKeys self.metrics.entries =
    ("health_score", self.health) :: (self.trend.map (Prod.mk "trend")).toList := by
  rw [self.entries_metrics]
  refine List.mergeSort_of_pairwise ?_
  cases self.trend with
  | none => exact List.pairwise_singleton _ _
  | some trend => exact List.pairwise_pair.mpr (show decide ("health_score" ≤ "trend") = true by decide)

theorem NodeReading.plainNames {self : NodeReading} (plain : ',' ∉ self.nodeId.toList) :
    PlainNames self.nodeId self.metrics where
  source := plain
  fields := by
    intro metric member
    rw [self.entries_metrics] at member
    rcases List.mem_cons.mp member with rfl | later
    · exact (by decide : ',' ∉ "health_score".toList)
    · obtain ⟨trend, _, rfl⟩ := Option.map_eq_some_iff.mp (Option.mem_toList.mp later)
      exact (by decide : ',' ∉ "trend".toList)

/-- The nodes that the texts of two snapshots do not tell apart. -/
def NodeReading.Alike (node node' : NodeReading) : Prop :=
  node.nodeId = node'.nodeId ∧ TelemetryEncoder.Alike node.health node'.health ∧
    Option.Rel TelemetryEncoder.Alike node.trend node'.trend

theorem NodeReading.contentOf_eq_iff {node node' : NodeReading} (plain : ',' ∉ node.nodeId.toList)
    (plain' : ',' ∉ node'.nodeId.toList) :
    contentOf node.nodeId node.metrics = contentOf node'.nodeId node'.metrics ↔ node.Alike node' := by
  rw [TelemetryEncoder.contentOf_eq_iff (plainNames plain) (plainNames plain'), sortKeys_metrics, sortKeys_metrics,
    List.forall₂_cons, NodeReading.Alike]
  refine and_congr_right fun _ => and_congr (and_iff_right rfl) ?_
  cases node.trend with
  | none =>
    cases node'.trend with
    | none => exact ⟨fun _ => .none, fun _ => .nil⟩
    | some trend' => exact ⟨nofun, nofun⟩
  | some trend =>
    cases node'.trend with
    | none => exact ⟨nofun, nofun⟩
    | some trend' =>
      constructor
      · intro fields
        cases fields with
        | cons head tail => exact .some head.2
      · intro trends
        cases trends with
        | some alike => exact .cons ⟨rfl, alike⟩ .nil

/-- The texts of two snapshots are the same just when the snapshots have the same
nodes in the same order, with health scores and trends that no text tells
apart. -/
theorem encodeSnapshot_contents_iff (floatOfText : String → Option ℚ) (keyText : Key ℚ → String)
    {snapshot snapshot' : List (Key ℚ × Value ℚ)} {nodes nodes' : List NodeReading}
    (reads : readNodes floatOfText keyText snapshot = some nodes)
    (reads' : readNodes floatOfText keyText snapshot' = some nodes') (plain : ∀ node ∈ nodes, ',' ∉ node.nodeId.toList)
    (plain' : ∀ node ∈ nodes', ',' ∉ node.nodeId.toList) (now now' : ℚ) :
    (encodeSnapshot floatOfText keyText snapshot now).map (fun texts => texts.map fun text => text.content) =
      (encodeSnapshot floatOfText keyText snapshot' now').map (fun texts => texts.map fun text => text.content) ↔
        List.Forall₂ NodeReading.Alike nodes nodes' := by
  unfold encodeSnapshot
  rw [reads, reads', Option.map_some, Option.map_some, Option.map_some, Option.map_some, Option.some_inj, List.map_map,
    List.map_map]
  clear reads reads'
  induction nodes generalizing nodes' with
  | nil =>
    cases nodes' with
    | nil => exact ⟨fun _ => .nil, fun _ => rfl⟩
    | cons node' nodes' => exact ⟨nofun, nofun⟩
  | cons node nodes ih =>
    cases nodes' with
    | nil => exact ⟨nofun, nofun⟩
    | cons node' nodes' =>
      have rest := ih (fun later member => plain later (List.mem_cons_of_mem _ member))
        fun later member => plain' later (List.mem_cons_of_mem _ member)
      rw [List.map_cons, List.map_cons, List.cons.injEq, rest, List.forall₂_cons,
        ← NodeReading.contentOf_eq_iff (plain node List.mem_cons_self) (plain' node' List.mem_cons_self)]
      rfl

/-- A snapshot of one node. -/
def memorySnapshot (health trend : ℚ) : List (Key ℚ × Value ℚ) :=
  [(.str "node_health", .dict [(.str "memory", .num health)]),
    (.str "node_trends", .dict [(.str "memory", .num trend)])]

def textOfKey : Key ℚ → String
  | .str text => text
  | _ => ""

theorem encodeSnapshot_contents_iff_memory :
    (encodeSnapshot (fun _ => none) textOfKey (memorySnapshot (9 / 10) (1 / 20)) 0).map
        (fun texts => texts.map fun text => text.content) =
      (encodeSnapshot (fun _ => none) textOfKey (memorySnapshot (90001 / 100000) (1 / 20)) 5).map
        (fun texts => texts.map fun text => text.content) ↔
      List.Forall₂ NodeReading.Alike [⟨"memory", 9 / 10, some (1 / 20)⟩]
        [⟨"memory", 90001 / 100000, some (1 / 20)⟩] := by
  refine encodeSnapshot_contents_iff (fun _ => none) textOfKey rfl rfl ?_ ?_ 0 5
  · intro node member
    rw [List.mem_singleton.mp member]
    exact (by decide : ',' ∉ "memory".toList)
  · intro node member
    rw [List.mem_singleton.mp member]
    exact (by decide : ',' ∉ "memory".toList)

end TelemetryEncoder

end Centroid
