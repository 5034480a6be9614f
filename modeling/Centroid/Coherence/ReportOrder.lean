import Centroid.Coherence.IndexBounds
import Centroid.Lib.FloatMean

namespace Centroid

open PyFloat

section Settled

variable {ν : Type} [DecidableEq ν] {F : Type} [Zero F] [One F] [Add F] [Sub F] [Mul F] [Max F] [Min F] [LT F] [FloatLike F]

open Classical in
/-- What a graph settles on at a node: the recursive reading of its edges, and where the
forward edges have a cycle their effects in the order of the declarations. -/
noncomputable def CoherenceGraphDef.settledValue (g : CoherenceGraphDef ν F) (seedValues : Dict ν F) (n : ν) : F :=
  if acyclic : g.Acyclic then g.propagatedValue acyclic seedValues n
  else clampOutput ((g.applications g.nodeIds).foldl (storeStep id) (seedValue seedValues) n)

omit [LT F] in
/-- It is clamped and rounded. -/
theorem CoherenceGraphDef.settledValue_eq (g : CoherenceGraphDef ν F) (seedValues : Dict ν F) (n : ν) :
    ∃ v, g.settledValue seedValues n = clampOutput v := by
  unfold settledValue
  split
  · exact ⟨_, rfl⟩
  · exact ⟨_, rfl⟩

/-- Every process propagates the settled values, in the order of its enumeration. -/
theorem CoherenceGraphDef.Valid.propagate_settled {g : CoherenceGraphDef ν F} (valid : g.Valid)
    (nodeIds : SetOrder g.nodeIds) : ∃ order, TopologicalPropagator.init g nodeIds = .ok ⟨g, nodeIds, order⟩ ∧
      ∀ seedValues, (TopologicalPropagator.propagate ⟨g, nodeIds, order⟩ seedValues).entries =
        nodeIds.ids.map fun n => (n, g.settledValue seedValues n) := by
  obtain ⟨order, built, perm, -, declares⟩ := valid.init_spec nodeIds
  refine ⟨order, built, fun seedValues => ?_⟩
  have keys := keys_propagate ⟨g, nodeIds, order⟩ seedValues
  have values : ∀ n ∈ g.nodeIds, (TopologicalPropagator.propagate ⟨g, nodeIds, order⟩ seedValues).get? n =
      some (g.settledValue seedValues n) := by
    intro n declared
    unfold settledValue
    by_cases acyclic : g.Acyclic
    · obtain ⟨self, builtSelf, read⟩ := valid.propagate_get? acyclic nodeIds
      cases Except.ok.inj (builtSelf.symm.trans built)
      rw [read, if_pos declared, dif_pos acyclic]
    · rw [valid.propagate_get?_applications nodeIds perm.subset, if_pos declared, dif_neg acyclic, declares acyclic]
  rw [Dict.entries_eq_map _ fun n listed => values n ((nodeIds.mem_iff n).mp (keys ▸ listed)), keys]

end Settled

/-- A graph whose weights are floats. Of the identifiers, which the source takes for texts, there is
one nan at most; Python tells two of them apart. -/
abbrev FloatGraph := CoherenceGraphDef (Key PyFloat) PyFloat

abbrev FloatScores := Dict (Key PyFloat) PyFloat

/-- A node that no declared node undercuts. -/
def CoherenceGraphDef.Weakest (g : FloatGraph) (seedValues : FloatScores) (n : Key PyFloat) : Prop :=
  n ∈ g.nodeIds ∧ ∀ m ∈ g.nodeIds, g.settledValue seedValues n ≤ g.settledValue seedValues m

/-- A node that no declared node exceeds. -/
def CoherenceGraphDef.Strongest (g : FloatGraph) (seedValues : FloatScores) (n : Key PyFloat) : Prop :=
  n ∈ g.nodeIds ∧ ∀ m ∈ g.nodeIds, g.settledValue seedValues m ≤ g.settledValue seedValues n

/-- The index of the settled values, where floats are added in the order of an enumeration. -/
noncomputable def CoherenceGraphDef.settledIndex [FloatSum PyFloat] (g : FloatGraph) (seedValues : FloatScores)
    (nodeIds : SetOrder g.nodeIds) : PyFloat :=
  roundedMean (TopologicalPropagator.inboundWeight ⟨g, nodeIds, []⟩) (g.settledValue seedValues) nodeIds.ids

section Stored

variable {g : FloatGraph} {nodeIds : SetOrder g.nodeIds} {seedValues propagated : FloatScores}
  (entries : propagated.entries = nodeIds.ids.map fun n => (n, g.settledValue seedValues n))

include entries

theorem mem_settled_iff (entry : Key PyFloat × PyFloat) :
    entry ∈ propagated.entries ↔ entry.1 ∈ g.nodeIds ∧ entry.2 = g.settledValue seedValues entry.1 := by
  rw [entries, List.mem_map]
  constructor
  · rintro ⟨n, listed, rfl⟩
    exact ⟨(nodeIds.mem_iff n).mp listed, rfl⟩
  · rintro ⟨declared, isScore⟩
    exact ⟨entry.1, (nodeIds.mem_iff _).mpr declared, Prod.ext rfl isScore.symm⟩

theorem get?_settled (n : Key PyFloat) :
    propagated.get? n = if n ∈ g.nodeIds then some (g.settledValue seedValues n) else none := by
  split
  · rename_i declared
    exact (propagated.mem_entries_iff n _).mp ((mem_settled_iff entries (n, _)).mpr ⟨declared, rfl⟩)
  · rename_i undeclared
    rw [Dict.get?_eq_none_iff]
    intro listed
    obtain ⟨entry, stored, rfl⟩ := List.mem_map.mp listed
    exact undeclared ((mem_settled_iff entries entry).mp stored).1

/-- The scores are numbers, so that their order is that of numbers. -/
theorem settled_le_iff : ∀ a ∈ propagated.entries, ∀ b ∈ propagated.entries, a.2 ≤ b.2 ↔ value a.2 ≤ value b.2 := by
  have unit : ∀ entry ∈ propagated.entries, entry.2.InUnit := by
    intro entry stored
    obtain ⟨v, clamped⟩ := g.settledValue_eq seedValues entry.1
    rw [((mem_settled_iff entries entry).mp stored).2, clamped]
    exact inUnit_clip _
  intro a storedA b storedB
  obtain ⟨p, isP, _⟩ := unit a storedA
  obtain ⟨q, isQ, _⟩ := unit b storedB
  rw [isP, isQ]
  exact decide_eq_true_iff

variable [FloatSum PyFloat]

/-- The loop of the calculator adds up the settled values in the order of the enumeration. -/
theorem sums_settled (order : List (Key PyFloat)) :
    CoherenceIndexCalculator.sums ⟨TopologicalPropagator.inboundWeightSum ⟨g, nodeIds, order⟩⟩ propagated =
      weightedSums (TopologicalPropagator.inboundWeight ⟨g, nodeIds, []⟩) (g.settledValue seedValues) nodeIds.ids := by
  rw [CoherenceIndexCalculator.sums, entries, List.foldl_map, weightedSums]
  refine List.foldl_ext _ _ _ fun sums n listed => ?_
  dsimp only
  rw [TopologicalPropagator.inboundWeightSum, Dict.get?_ofKeys, if_pos listed]
  rfl

theorem compute_settled_index (order : List (Key PyFloat)) (some : propagated.entries ≠ []) (now : PyFloat) :
    (CoherenceIndexCalculator.compute ⟨TopologicalPropagator.inboundWeightSum ⟨g, nodeIds, order⟩⟩ propagated
      now).coherenceIndex = g.settledIndex seedValues nodeIds := by
  rw [CoherenceIndexCalculator.compute_coherenceIndex _ _ now some, sums_settled entries order]
  rfl

end Stored

section Reports

variable [FloatSum PyFloat]

/-- The report of a process that enumerates the identifiers in a given order. -/
def CoherenceGraphDef.report (g : FloatGraph) (nodeIds : SetOrder g.nodeIds)
    (seedValues : FloatScores) (now : PyFloat) : Except KahnFault (CoherenceReport PyFloat) :=
  match TopologicalPropagator.init g nodeIds with
  | .error fault => .error fault
  | .ok self => .ok (CoherenceIndexCalculator.compute ⟨self.inboundWeightSum⟩ (self.propagate seedValues) now)

/-- What is known of the report of one process. -/
structure Reported (g : FloatGraph) (nodeIds : SetOrder g.nodeIds) (seedValues : FloatScores)
    (report : CoherenceReport PyFloat) : Prop where
  scores : ∀ n, report.nodeScores.get? n = if n ∈ g.nodeIds then some (g.settledValue seedValues n) else none
  index : report.coherenceIndex = g.settledIndex seedValues nodeIds
  weakest : g.Weakest seedValues report.weakestNode
  strongest : g.Strongest seedValues report.strongestNode
  first : ∀ n rest, nodeIds.ids = n :: rest → g.Weakest seedValues n → report.weakestNode = n
  last : ∀ n rest, nodeIds.ids = rest ++ [n] → g.Strongest seedValues n → report.strongestNode = n

theorem CoherenceGraphDef.Valid.report_spec {g : FloatGraph} (valid : g.Valid) (declares : g.nodeIds ≠ [])
    (nodeIds : SetOrder g.nodeIds) (seedValues : FloatScores) (now : PyFloat) :
    ∃ report, g.report nodeIds seedValues now = .ok report ∧ Reported g nodeIds seedValues report := by
  obtain ⟨order, built, settled⟩ := valid.propagate_settled nodeIds
  have entries := settled seedValues
  have some := TopologicalPropagator.entries_propagate_ne_nil ⟨g, nodeIds, order⟩ declares seedValues
  refine ⟨_, by simp only [report, built]; rfl, ?_⟩
  generalize TopologicalPropagator.propagate ⟨g, nodeIds, order⟩ seedValues = propagated at *
  have stored : ∀ m ∈ g.nodeIds, (m, g.settledValue seedValues m) ∈ propagated.entries :=
    fun m declared => (mem_settled_iff entries (m, _)).mpr ⟨declared, rfl⟩
  obtain ⟨weakest, weakestStored, isWeakest, least, first⟩ := CoherenceIndexCalculator.compute_weakest
    value propagated (settled_le_iff entries) ⟨TopologicalPropagator.inboundWeightSum ⟨g, nodeIds, order⟩⟩ now some
  obtain ⟨strongest, strongestStored, isStrongest, greatest, last⟩ := CoherenceIndexCalculator.compute_strongest
    value propagated (settled_le_iff entries) ⟨TopologicalPropagator.inboundWeightSum ⟨g, nodeIds, order⟩⟩ now some
  obtain ⟨weakestDeclared, weakestScore⟩ := (mem_settled_iff entries weakest).mp weakestStored
  obtain ⟨strongestDeclared, strongestScore⟩ := (mem_settled_iff entries strongest).mp strongestStored
  constructor
  · intro n
    rw [CoherenceIndexCalculator.compute_nodeScores, get?_settled entries]
  · exact compute_settled_index entries order some now
  · rw [isWeakest]
    refine ⟨weakestDeclared, fun m declared => ?_⟩
    rw [← weakestScore]
    exact least _ (stored m declared)
  · rw [isStrongest]
    refine ⟨strongestDeclared, fun m declared => ?_⟩
    rw [← strongestScore]
    exact greatest _ (stored m declared)
  · intro n others isCons lowest
    rw [isCons, List.map_cons] at entries
    have isFirst := first (n, g.settledValue seedValues n) _ entries fun entry member => by
      obtain ⟨m, listed, rfl⟩ := List.mem_map.mp member
      exact lowest.2 m ((nodeIds.mem_iff m).mp (isCons ▸ List.mem_cons_of_mem n listed))
    rw [isWeakest, isFirst]
  · intro n others isConcat highest
    rw [isConcat, List.map_append, List.map_cons, List.map_nil] at entries
    have isLast := last _ (n, g.settledValue seedValues n) entries fun entry member => by
      obtain ⟨m, listed, rfl⟩ := List.mem_map.mp member
      exact highest.2 m ((nodeIds.mem_iff m).mp (isConcat ▸ List.mem_append_left [n] listed))
    rw [isStrongest, isLast]

end Reports

/-- Reports that are the same up to their times. -/
structure CoherenceReport.Alike (a b : CoherenceReport PyFloat) : Prop where
  nodeScores : ∀ n, a.nodeScores.get? n = b.nodeScores.get? n
  coherenceIndex : a.coherenceIndex = b.coherenceIndex
  weakestNode : a.weakestNode = b.weakestNode
  strongestNode : a.strongestNode = b.strongestNode

section Orders

variable {ν : Type} [DecidableEq ν] {declared : List ν} {n : ν}

/-- An enumeration that begins with a given node. -/
def SetOrder.startingWith (distinct : declared.Nodup) (member : n ∈ declared) : SetOrder declared where
  ids := n :: declared.erase n
  distinct := (List.perm_cons_erase member).nodup_iff.mp distinct
  mem_iff _ := (List.perm_cons_erase member).symm.mem_iff

/-- An enumeration that ends with a given node. -/
def SetOrder.endingWith (distinct : declared.Nodup) (member : n ∈ declared) : SetOrder declared where
  ids := declared.erase n ++ [n]
  distinct := ((List.perm_append_singleton n _).symm.nodup_iff.mp (startingWith distinct member).distinct)
  mem_iff m := (List.perm_append_singleton n _).mem_iff.trans ((startingWith distinct member).mem_iff m)

omit [DecidableEq ν] in
theorem SetOrder.perm (left right : SetOrder declared) : left.ids.Perm right.ids :=
  (List.perm_ext_iff_of_nodup left.distinct right.distinct).mpr fun n => (left.mem_iff n).trans (right.mem_iff n).symm

end Orders

section Enumerations

variable [FloatSum PyFloat]

/-- The floats of the index add up to the same in every enumeration, up to what the rounding to six places
takes away. -/
def CoherenceGraphDef.IndexSettled (g : FloatGraph) (seedValues : FloatScores) :
    Prop :=
  ∀ nodeIds nodeIds' : SetOrder g.nodeIds, g.settledIndex seedValues nodeIds = g.settledIndex seedValues nodeIds'

/-- So they do where the mean of the numbers is not next to a tie. -/
theorem CoherenceGraphDef.indexSettled_of_far {g : FloatGraph}
    {seedValues : FloatScores} {nodeIds : SetOrder g.nodeIds} (far : FarFromTies
      (TopologicalPropagator.inboundWeight ⟨g, nodeIds, []⟩) (g.settledValue seedValues) nodeIds.ids) :
    g.IndexSettled seedValues := by
  have unit : ∀ n, (g.settledValue seedValues n).InUnit := by
    intro n
    obtain ⟨v, clamped⟩ := g.settledValue_eq seedValues n
    rw [clamped]
    exact inUnit_clip _
  have same : ∀ other : SetOrder g.nodeIds, g.settledIndex seedValues nodeIds = g.settledIndex seedValues other :=
    fun other => far.roundedMean_perm (fun n _ => unit n) (nodeIds.perm other)
  exact fun left right => (same left).symm.trans (same right)

/-- The scores of a report are those of every other enumeration of the identifier set. The whole report is
so exactly if one node only has the least and one only the greatest score, and the floats of the index add
up to the same. They do where the weights are numbers and their mean is not next to a tie. -/
theorem reports_alike_iff {file : Option (Value PyFloat)} {g : FloatGraph}
    (ok : loadGraph file = .ok g) (seedValues : FloatScores) :
    (∀ (nodeIds nodeIds' : SetOrder g.nodeIds) (now now' : PyFloat), ∃ a b, g.report nodeIds seedValues now = .ok a ∧
        g.report nodeIds' seedValues now' = .ok b ∧ ∀ n, a.nodeScores.get? n = b.nodeScores.get? n) ∧
      ((∀ (nodeIds nodeIds' : SetOrder g.nodeIds) (now now' : PyFloat), ∃ a b, g.report nodeIds seedValues now = .ok a ∧
          g.report nodeIds' seedValues now' = .ok b ∧ a.Alike b) ↔
        (∃! n, g.Weakest seedValues n) ∧ (∃! n, g.Strongest seedValues n) ∧ g.IndexSettled seedValues) ∧
      ∀ nodeIds : SetOrder g.nodeIds, FarFromTies (TopologicalPropagator.inboundWeight ⟨g, nodeIds, []⟩)
        (g.settledValue seedValues) nodeIds.ids → g.IndexSettled seedValues := by
  have valid := loadGraph_valid ok
  have reported := fun nodeIds now => valid.report_spec (loadGraph_nodeIds_ne_nil ok) nodeIds seedValues now
  refine ⟨fun nodeIds nodeIds' now now' => ?_, ⟨fun alike => ?_, fun settled nodeIds nodeIds' now now' => ?_⟩,
    fun nodeIds => CoherenceGraphDef.indexSettled_of_far⟩
  · obtain ⟨a, run, left⟩ := reported nodeIds now
    obtain ⟨b, run', right⟩ := reported nodeIds' now'
    exact ⟨a, b, run, run', fun n => (left.scores n).trans (right.scores n).symm⟩
  · have agree : ∀ left right : SetOrder g.nodeIds,
        ∃ a b, Reported g left seedValues a ∧ Reported g right seedValues b ∧ a.Alike b := by
      intro left right
      obtain ⟨a, b, run, run', same⟩ := alike left right 0 0
      obtain ⟨a', ranA, isA⟩ := reported left 0
      obtain ⟨b', ranB, isB⟩ := reported right 0
      cases Except.ok.inj (ranA.symm.trans run)
      cases Except.ok.inj (ranB.symm.trans run')
      exact ⟨a, b, isA, isB, same⟩
    obtain ⟨report, -, facts⟩ := reported ⟨g.nodeIds, valid.distinct, fun _ => Iff.rfl⟩ 0
    refine ⟨⟨report.weakestNode, facts.weakest, fun n weakest => ?_⟩,
      ⟨report.strongestNode, facts.strongest, fun n strongest => ?_⟩, fun nodeIds nodeIds' => ?_⟩
    · -- a process that enumerates either of them first reports it
      obtain ⟨a, b, left, right, same⟩ := agree (.startingWith valid.distinct weakest.1)
        (.startingWith valid.distinct facts.weakest.1)
      rw [← left.first n _ rfl weakest, same.weakestNode, right.first _ _ rfl facts.weakest]
    · -- a process that enumerates either of them last reports it
      obtain ⟨a, b, left, right, same⟩ := agree (.endingWith valid.distinct strongest.1)
        (.endingWith valid.distinct facts.strongest.1)
      rw [← left.last n _ rfl strongest, same.strongestNode, right.last _ _ rfl facts.strongest]
    · obtain ⟨a, b, left, right, same⟩ := agree nodeIds nodeIds'
      rw [← left.index, same.coherenceIndex, right.index]
  · obtain ⟨a, run, left⟩ := reported nodeIds now
    obtain ⟨b, run', right⟩ := reported nodeIds' now'
    obtain ⟨weakest, strongest, index⟩ := settled
    exact ⟨a, b, run, run', fun n => (left.scores n).trans (right.scores n).symm,
      left.index.trans ((index nodeIds nodeIds').trans right.index.symm), weakest.unique left.weakest right.weakest,
      strongest.unique left.strongest right.strongest⟩

end Enumerations

section Loose

attribute [local instance] PyFloat.leftSum

/-- Nodes without an edge. -/
def looseDoc (names : List String) : Value PyFloat :=
  .dict [(.str "nodes", .list (names.map fun name => .dict [(.str "id", .str name)]))]

def looseGraph (names : List String) : FloatGraph := ⟨names.map fun name => ⟨.str name, .str ""⟩, []⟩

def pairGraph : FloatGraph := looseGraph ["a", "b"]

theorem loadGraph_pair : loadGraph (some (looseDoc ["a", "b"])) = .ok pairGraph := by
  rfl

def forwards : SetOrder pairGraph.nodeIds := ⟨[.str "a", .str "b"], by decide, fun _ => Iff.rfl⟩

def backwards : SetOrder pairGraph.nodeIds := ⟨[.str "b", .str "a"], by decide, by
  simp [CoherenceGraphDef.nodeIds, pairGraph, looseGraph, or_comm]⟩

theorem settledValue_pair (seedValues : FloatScores) :
    ∀ n ∈ pairGraph.nodeIds, pairGraph.settledValue seedValues n = clampOutput (seedValue seedValues n) := by
  obtain ⟨order, built, settled⟩ := (loadGraph_valid loadGraph_pair).propagate_settled forwards
  have evaluated : TopologicalPropagator.init pairGraph forwards = .ok ⟨pairGraph, forwards, [.str "a", .str "b"]⟩ := rfl
  cases Except.ok.inj (built.symm.trans evaluated)
  have entries := settled seedValues
  have values : (TopologicalPropagator.propagate ⟨pairGraph, forwards, [.str "a", .str "b"]⟩ seedValues).entries =
      forwards.ids.map fun n => (n, clampOutput (seedValue seedValues n)) := rfl
  intro n declared
  have pair := List.map_inj_left.mp (entries.symm.trans values) n declared
  exact congrArg Prod.snd pair

def pairSeeds : FloatScores := (Dict.empty.set (.str "a") (.finite (1 / 4))).set (.str "b") (.finite (3 / 4))

theorem settledValue_low : pairGraph.settledValue pairSeeds (.str "a") = .finite (1 / 4) :=
  (settledValue_pair pairSeeds _ (by decide)).trans (by decide +kernel)

theorem settledValue_high : pairGraph.settledValue pairSeeds (.str "b") = .finite (3 / 4) :=
  (settledValue_pair pairSeeds _ (by decide)).trans (by decide +kernel)

theorem mem_pairGraph_iff (n : Key PyFloat) : n ∈ pairGraph.nodeIds ↔ n = .str "a" ∨ n = .str "b" := by
  simp [CoherenceGraphDef.nodeIds, pairGraph, looseGraph]

theorem existsUnique_weakest_pair : ∃! n, pairGraph.Weakest pairSeeds n := by
  refine ⟨.str "a", ⟨by decide, ?_⟩, ?_⟩
  · intro m declared
    rcases (mem_pairGraph_iff m).mp declared with rfl | rfl
    · rw [settledValue_low]
      exact decide_eq_true le_rfl
    · rw [settledValue_low, settledValue_high]
      decide +kernel
  · rintro n ⟨declared, least⟩
    rcases (mem_pairGraph_iff n).mp declared with rfl | rfl
    · rfl
    · have reversed := least (.str "a") (by decide)
      rw [settledValue_low, settledValue_high] at reversed
      exact absurd reversed (by decide +kernel)

theorem existsUnique_strongest_pair : ∃! n, pairGraph.Strongest pairSeeds n := by
  refine ⟨.str "b", ⟨by decide, ?_⟩, ?_⟩
  · intro m declared
    rcases (mem_pairGraph_iff m).mp declared with rfl | rfl
    · rw [settledValue_low, settledValue_high]
      decide +kernel
    · rw [settledValue_high]
      exact decide_eq_true le_rfl
  · rintro n ⟨declared, greatest⟩
    rcases (mem_pairGraph_iff n).mp declared with rfl | rfl
    · have reversed := greatest (.str "b") (by decide)
      rw [settledValue_low, settledValue_high] at reversed
      exact absurd reversed (by decide +kernel)
    · rfl

/-- The mean of a quarter and three quarters is far from a tie. -/
theorem farFromTies_pair : FarFromTies (TopologicalPropagator.inboundWeight ⟨pairGraph, forwards, []⟩)
    (pairGraph.settledValue pairSeeds) forwards.ids := by
  have weight : ∀ n ∈ forwards.ids, TopologicalPropagator.inboundWeight ⟨pairGraph, forwards, []⟩ n = .finite 1 := by
    decide +kernel
  have one : ∀ n ∈ forwards.ids, (value ∘ TopologicalPropagator.inboundWeight ⟨pairGraph, forwards, []⟩) n = 1 :=
    fun n listed => congrArg value (weight n listed)
  have total : WeightedMean.total (value ∘ TopologicalPropagator.inboundWeight ⟨pairGraph, forwards, []⟩) forwards.ids = 2 :=
    (WeightedMean.total_congr one).trans (by decide +kernel)
  have weighted : WeightedMean.weighted (value ∘ TopologicalPropagator.inboundWeight ⟨pairGraph, forwards, []⟩)
      (value ∘ pairGraph.settledValue pairSeeds) forwards.ids = 1 := by
    rw [WeightedMean.weighted_congr one]
    change value (pairGraph.settledValue pairSeeds (.str "a")) * 1 +
      (value (pairGraph.settledValue pairSeeds (.str "b")) * 1 + 0) = 1
    rw [settledValue_low, settledValue_high, value, value]
    norm_num
  refine ⟨fun n listed => ⟨1, weight n listed, zero_le_one⟩, by decide, ?_, ?_, fun k => ?_⟩
  · rw [total]
    exact (zpow_le_one_of_nonpos₀ one_le_two (by decide)).trans one_le_two
  · rw [total]
    exact le_self_pow₀ one_le_two (by decide)
  · rw [WeightedMean.mean, weighted, total, lt_abs]
    rcases le_or_gt k 499999 with left | right
    · have whole : (k : ℚ) ≤ 499999 := by exact_mod_cast left
      left
      norm_num [forwards]
      linarith
    · have whole : (500000 : ℚ) ≤ k := by exact_mod_cast right
      right
      norm_num [forwards]
      linarith

theorem reports_alike_pair : ∃ a b, pairGraph.report forwards pairSeeds 0 = .ok a ∧
    pairGraph.report backwards pairSeeds 1 = .ok b ∧ a.Alike b :=
  ((reports_alike_iff loadGraph_pair pairSeeds).2.1.mpr ⟨existsUnique_weakest_pair, existsUnique_strongest_pair,
    (reports_alike_iff loadGraph_pair pairSeeds).2.2 forwards farFromTies_pair⟩) forwards backwards 0 1

/-- Of two equal nodes the one that is enumerated first is reported as the weakest. -/
theorem weakest_by_enumeration : ¬ ∀ (file : Option (Value PyFloat)) (g : FloatGraph), loadGraph file = .ok g →
    ∀ (seedValues : FloatScores) (nodeIds nodeIds' : SetOrder g.nodeIds) (now now' : PyFloat),
      ∃ a b, g.report nodeIds seedValues now = .ok a ∧ g.report nodeIds' seedValues now' = .ok b ∧ a.Alike b := by
  intro always
  have valid := loadGraph_valid loadGraph_pair
  have half : ∀ n ∈ pairGraph.nodeIds, pairGraph.settledValue ∅ n = .finite (1 / 2) := by
    intro n declared
    rw [settledValue_pair ∅ n declared]
    have clamped : clampOutput (FloatLike.literal (1 / 2) : PyFloat) = .finite (1 / 2) := by decide +kernel
    exact clamped
  have weakest : ∀ n ∈ pairGraph.nodeIds, pairGraph.Weakest ∅ n := by
    refine fun n declared => ⟨declared, fun m other => ?_⟩
    rw [half n declared, half m other]
    exact decide_eq_true le_rfl
  obtain ⟨a, b, run, run', same⟩ := always _ _ loadGraph_pair ∅ forwards backwards 0 0
  obtain ⟨a', ran, left⟩ := valid.report_spec (by decide) forwards ∅ 0
  obtain ⟨b', ran', right⟩ := valid.report_spec (by decide) backwards ∅ 0
  cases Except.ok.inj (ran.symm.trans run)
  cases Except.ok.inj (ran'.symm.trans run')
  have first := left.first (.str "a") _ rfl (weakest _ (by decide))
  have second := right.first (.str "b") _ rfl (weakest _ (by decide))
  have ambiguous : Key.str "a" = Key.str (N := PyFloat) "b" := first.symm.trans (same.weakestNode.trans second)
  exact absurd ambiguous (by decide)

end Loose

end Centroid
