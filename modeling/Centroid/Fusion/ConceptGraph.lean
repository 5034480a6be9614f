import Centroid.Lib.Dict
import Mathlib.Algebra.Field.Rat
import Mathlib.Data.Finset.Card

namespace Centroid

/-- A text that an encoder of the sensory node read from a module. -/
structure PerceivedText where
  content : String
  sourceId : String

inductive SourceKind where
  | code
  | telemetry
  | sensory

def SourceKind.name : SourceKind → String
  | .code => "code"
  | .telemetry => "telemetry"
  | .sensory => "sensory"

/-- A `PerceivedText` with the fields that the fusion does not read. -/
structure SensedText extends PerceivedText where
  sourceKind : SourceKind
  timestamp : ℚ

def ConceptGraphBuilder.stopWords : List String :=
  ["the", "a", "an", "is", "in", "of", "to", "and", "or", "for", "with", "that", "this", "it", "be", "are", "was"]

/-- The letters a to z in what `str.lower` makes of a character. Besides the
capital letters, two more characters turn into such a letter. -/
def ConceptGraphBuilder.lowerChar (c : Char) : List Char :=
  if c.toNat = 0x130 then ['i', Char.ofNat 0x307]
  else if c.toNat = 0x212A then ['k']
  else [c.toLower]

/-- The runs of three and more letters, without the stop words. -/
def ConceptGraphBuilder.tokenize (text : String) : List String :=
  let letters := text.toList.flatMap lowerChar
  let tokens := (letters.splitOnP fun c => !c.isLower).filter fun run => 3 ≤ run.length
  (tokens.map String.ofList).filter (· ∉ stopWords)

/-- A shared concept appearing in one or more modules. -/
structure ConceptNode where
  concept : String
  modules : Finset String
  frequency : ℕ

/-- Shared concept map over the texts of several modules. -/
structure ConceptGraph where
  nodes : Dict String ConceptNode
  moduleIndex : Dict String (Finset String)

/-- An order in which the members of a set are visited. -/
structure Visit (s : Finset String) where
  ids : List String
  distinct : ids.Nodup
  mem_iff : ∀ m, m ∈ ids ↔ m ∈ s

namespace ConceptGraphBuilder

/-- What the first loop collects: in which modules a concept appears, and how
often. -/
structure Occurrences where
  conceptModules : Dict String (Finset String) := ∅
  conceptFreq : Dict String ℕ := ∅

def countToken (sid : String) (acc : Occurrences) (token : String) : Occurrences :=
  let acc : Occurrences :=
    if token ∉ acc.conceptModules.keys then ⟨acc.conceptModules.set token ∅, acc.conceptFreq.set token 0⟩ else acc
  ⟨acc.conceptModules.set token (insert sid ((acc.conceptModules.get? token).getD ∅)),
    acc.conceptFreq.set token ((acc.conceptFreq.get? token).getD 0 + 1)⟩

def countText (acc : Occurrences) (perceived : PerceivedText) : Occurrences :=
  (tokenize perceived.content).foldl (countToken perceived.sourceId) acc

def occurrences (perceivedList : List PerceivedText) : Occurrences := perceivedList.foldl countText {}

def indexConcept (concept : String) (moduleIndex : Dict String (Finset String)) (moduleId : String) :
    Dict String (Finset String) :=
  moduleIndex.set moduleId (insert concept ((moduleIndex.get? moduleId).getD ∅))

/-- The second loop: from the modules of every concept to the concepts of every
module. -/
def buildIndex (visit : ∀ (_ : String) (modules : Finset String), Visit modules)
    (conceptModules : Dict String (Finset String)) : Dict String (Finset String) :=
  conceptModules.entries.foldl
    (fun moduleIndex entry => (visit entry.1 entry.2).ids.foldl (indexConcept entry.1) moduleIndex) ∅

/-- The filter of the third loop. -/
def isKept (modules : Finset String) (frequency : ℕ) : Bool := 2 ≤ modules.card || 2 ≤ frequency

def buildNodes (acc : Occurrences) : Dict String ConceptNode :=
  acc.conceptModules.entries.foldl
    (fun nodes entry =>
      let frequency := (acc.conceptFreq.get? entry.1).getD 0
      if isKept entry.2 frequency then nodes.set entry.1 ⟨entry.1, entry.2, frequency⟩ else nodes)
    ∅

/-- `build`; the modules of a concept come in the order of its set. -/
def build (visit : ∀ (_ : String) (modules : Finset String), Visit modules) (perceivedList : List PerceivedText) :
    ConceptGraph :=
  let acc := occurrences perceivedList
  ⟨buildNodes acc, buildIndex visit acc.conceptModules⟩

/-- Every token of the texts with the module that it was read from. -/
def mentions (perceivedList : List PerceivedText) : List (String × String) :=
  perceivedList.flatMap fun perceived => (tokenize perceived.content).map fun token => (token, perceived.sourceId)

/-- The modules of the mentions of a concept, mention by mention. -/
def sources (perceivedList : List PerceivedText) (concept : String) : List String :=
  ((mentions perceivedList).filter fun mention => mention.1 = concept).map Prod.snd

/-- What the two dictionaries hold after a list of mentions. -/
def Counts (acc : Occurrences) (said : List (String × String)) : Prop :=
  ∀ concept, let found := (said.filter fun mention => mention.1 = concept).map Prod.snd
    acc.conceptModules.get? concept = (if found = [] then none else some found.toFinset) ∧
    acc.conceptFreq.get? concept = (if found = [] then none else some found.length)

theorem occurrences_eq (perceivedList : List PerceivedText) :
    occurrences perceivedList =
      (mentions perceivedList).foldl (fun acc mention => countToken mention.2 acc mention.1) {} := by
  rw [occurrences, mentions, List.foldl_flatMap]
  congr 1
  funext acc perceived
  rw [countText, List.foldl_map]

theorem countToken_of_ne {token concept : String} (ne : token ≠ concept) (sid : String) (acc : Occurrences) :
    (countToken sid acc token).conceptModules.get? concept = acc.conceptModules.get? concept ∧
      (countToken sid acc token).conceptFreq.get? concept = acc.conceptFreq.get? concept := by
  unfold countToken
  by_cases fresh : token ∉ acc.conceptModules.keys
  · rw [if_pos fresh]
    simp only [Dict.get?_set_of_ne _ _ ne, and_self]
  · rw [if_neg fresh]
    simp only [Dict.get?_set_of_ne _ _ ne, and_self]

/-- The default for a new concept is the same as no entry at all. -/
theorem countToken_self (token sid : String) (acc : Occurrences)
    (together : acc.conceptModules.get? token = none → acc.conceptFreq.get? token = none) :
    (countToken sid acc token).conceptModules.get? token =
        some (insert sid ((acc.conceptModules.get? token).getD ∅)) ∧
      (countToken sid acc token).conceptFreq.get? token = some ((acc.conceptFreq.get? token).getD 0 + 1) := by
  unfold countToken
  by_cases fresh : token ∉ acc.conceptModules.keys
  · have absent := (Dict.get?_eq_none_iff _ _).mpr fresh
    rw [if_pos fresh, absent, together absent]
    simp only [Dict.get?_set_self, Option.getD_some, Option.getD_none, and_self]
  · rw [if_neg fresh]
    simp only [Dict.get?_set_self, and_self]

theorem counts_countToken {acc : Occurrences} {said : List (String × String)} (counts : Counts acc said)
    (token sid : String) : Counts (countToken sid acc token) (said ++ [(token, sid)]) := by
  intro concept
  by_cases same : token = concept
  · subst same
    obtain ⟨modules, frequency⟩ := counts token
    have together : acc.conceptModules.get? token = none → acc.conceptFreq.get? token = none := by
      intro absent
      rw [modules] at absent
      split at absent
      · rename_i first
        rw [frequency, if_pos first]
      · cases absent
    have step := countToken_self token sid acc together
    rw [step.1, step.2, modules, frequency, List.filter_append, List.map_append]
    by_cases first : (said.filter fun mention => mention.1 = token).map Prod.snd = []
    · rw [if_pos first, if_pos first, first]
      simp
    · rw [if_neg first, if_neg first]
      simp [Finset.union_comm]
  · have apart : (said ++ [(token, sid)]).filter (fun mention => mention.1 = concept) =
        said.filter fun mention => mention.1 = concept := by
      rw [List.filter_append]
      simp [same]
    have step := countToken_of_ne same sid acc
    rw [apart, step.1, step.2]
    exact counts concept

theorem counts_foldl (said more : List (String × String)) (acc : Occurrences) (counts : Counts acc said) :
    Counts (more.foldl (fun acc mention => countToken mention.2 acc mention.1) acc) (said ++ more) := by
  induction more generalizing said acc with
  | nil => simpa using counts
  | cons mention more ih =>
    have step := ih (said ++ [mention]) _ (counts_countToken counts mention.1 mention.2)
    simpa using step

theorem counts_occurrences (perceivedList : List PerceivedText) :
    Counts (occurrences perceivedList) (mentions perceivedList) := by
  rw [occurrences_eq]
  have run := counts_foldl [] (mentions perceivedList) {} fun concept => ⟨rfl, rfl⟩
  simpa using run

theorem get?_conceptModules (perceivedList : List PerceivedText) (concept : String) :
    (occurrences perceivedList).conceptModules.get? concept =
      if sources perceivedList concept = [] then none else some (sources perceivedList concept).toFinset :=
  (counts_occurrences perceivedList concept).1

theorem getD_conceptFreq (perceivedList : List PerceivedText) (concept : String) :
    ((occurrences perceivedList).conceptFreq.get? concept).getD 0 = (sources perceivedList concept).length := by
  rw [(counts_occurrences perceivedList concept).2]
  by_cases none : sources perceivedList concept = []
  · rw [sources] at none
    rw [if_pos none, sources, none]
    rfl
  · rw [sources] at none
    rw [if_neg none]
    rfl

theorem mem_indexConcept (concept moduleId : String) (index : Dict String (Finset String)) (m c : String) :
    c ∈ ((indexConcept concept index moduleId).get? m).getD ∅ ↔
      c ∈ (index.get? m).getD ∅ ∨ m = moduleId ∧ c = concept := by
  rw [indexConcept, Dict.get?_set]
  by_cases same : moduleId = m
  · rw [if_pos same, same]
    simp [or_comm]
  · rw [if_neg same]
    simp [Ne.symm same]

theorem mem_foldl_indexConcept (concept : String) (ids : List String) (index : Dict String (Finset String))
    (m c : String) :
    c ∈ ((ids.foldl (indexConcept concept) index).get? m).getD ∅ ↔
      c ∈ (index.get? m).getD ∅ ∨ m ∈ ids ∧ c = concept := by
  induction ids generalizing index with
  | nil => simp
  | cons moduleId ids ih =>
    rw [List.foldl_cons, ih, mem_indexConcept, List.mem_cons, or_assoc, ← or_and_right]

theorem mem_foldl_buildIndex (visit : ∀ (_ : String) (modules : Finset String), Visit modules)
    (entries : List (String × Finset String)) (index : Dict String (Finset String)) (m c : String) :
    c ∈ ((entries.foldl
        (fun moduleIndex entry => (visit entry.1 entry.2).ids.foldl (indexConcept entry.1) moduleIndex) index).get?
          m).getD ∅ ↔
      c ∈ (index.get? m).getD ∅ ∨ ∃ modules, (c, modules) ∈ entries ∧ m ∈ modules := by
  induction entries generalizing index with
  | nil => simp
  | cons entry entries ih =>
    rw [List.foldl_cons, ih, mem_foldl_indexConcept, (visit entry.1 entry.2).mem_iff, or_assoc]
    refine or_congr_right ⟨?_, ?_⟩
    · rintro (⟨member, rfl⟩ | ⟨modules, later, member⟩)
      · exact ⟨entry.2, List.mem_cons_self, member⟩
      · exact ⟨modules, List.mem_cons_of_mem _ later, member⟩
    · rintro ⟨modules, listed, member⟩
      rcases List.mem_cons.mp listed with rfl | later
      · exact Or.inl ⟨member, rfl⟩
      · exact Or.inr ⟨modules, later, member⟩

theorem mem_buildIndex (visit : ∀ (_ : String) (modules : Finset String), Visit modules)
    (conceptModules : Dict String (Finset String)) (m c : String) :
    c ∈ ((buildIndex visit conceptModules).get? m).getD ∅ ↔ m ∈ (conceptModules.get? c).getD ∅ := by
  rw [buildIndex, mem_foldl_buildIndex]
  simp only [Dict.get?_empty, Option.getD_none, Finset.notMem_empty, false_or, Dict.mem_entries_iff]
  cases conceptModules.get? c <;> simp

/-- The last loop visits every concept once, so a node is set at most once. -/
theorem get?_foldl_buildNodes (acc : Occurrences) (c : String) (entries : List (String × Finset String))
    (nodes : Dict String ConceptNode) (distinct : (entries.map Prod.fst).Nodup)
    (fresh : c ∈ entries.map Prod.fst → nodes.get? c = none) :
    (entries.foldl
      (fun nodes entry =>
        let frequency := (acc.conceptFreq.get? entry.1).getD 0
        if isKept entry.2 frequency then nodes.set entry.1 ⟨entry.1, entry.2, frequency⟩ else nodes)
      nodes).get? c =
      match Assoc.get? entries c with
      | some modules =>
        if isKept modules ((acc.conceptFreq.get? c).getD 0) then
          some ⟨c, modules, (acc.conceptFreq.get? c).getD 0⟩
        else none
      | none => nodes.get? c := by
  induction entries generalizing nodes with
  | nil => rfl
  | cons entry entries ih =>
    rw [List.map_cons, List.nodup_cons] at distinct
    rw [List.foldl_cons]
    by_cases here : entry.1 = c
    · subst here
      have absent : Assoc.get? entries entry.1 = none := (Assoc.get?_eq_none_iff _ _).mpr distinct.1
      rw [ih _ distinct.2 fun later => (distinct.1 later).elim]
      simp only [absent, Assoc.get?, if_true]
      split
      · exact Dict.get?_set_self _ _ _
      · exact fresh List.mem_cons_self
    · have unchanged : (if isKept entry.2 ((acc.conceptFreq.get? entry.1).getD 0) then
          nodes.set entry.1 ⟨entry.1, entry.2, (acc.conceptFreq.get? entry.1).getD 0⟩ else nodes).get? c =
            nodes.get? c := by
        split
        · exact Dict.get?_set_of_ne _ _ here
        · rfl
      rw [ih _ distinct.2 fun later => unchanged.trans (fresh (List.mem_cons_of_mem _ later))]
      simp only [Assoc.get?, here, if_false, unchanged]

theorem get?_buildNodes (acc : Occurrences) (c : String) :
    (buildNodes acc).get? c =
      (acc.conceptModules.get? c).bind fun modules =>
        if isKept modules ((acc.conceptFreq.get? c).getD 0) then
          some ⟨c, modules, (acc.conceptFreq.get? c).getD 0⟩
        else none := by
  rw [buildNodes, get?_foldl_buildNodes acc c _ _ acc.conceptModules.distinct fun _ => rfl]
  change (match acc.conceptModules.get? c with
    | some modules => _
    | none => _) = _
  cases acc.conceptModules.get? c <;> rfl

/-- A module counts for a concept that it mentions at all. -/
theorem mem_moduleIndex {visit : ∀ (_ : String) (modules : Finset String), Visit modules}
    {perceivedList : List PerceivedText} {m c : String} :
    c ∈ ((build visit perceivedList).moduleIndex.get? m).getD ∅ ↔ m ∈ sources perceivedList c := by
  rw [build, mem_buildIndex, get?_conceptModules]
  by_cases none : sources perceivedList c = []
  · rw [if_pos none, none]
    simp
  · rw [if_neg none]
    simp

/-- A concept in two modules is mentioned twice as well. -/
theorem isKept_iff (found : List String) : isKept found.toFinset found.length = true ↔ 2 ≤ found.length := by
  have few := List.toFinset_card_le found
  simp only [isKept, Bool.or_eq_true, decide_eq_true_eq]
  omega

theorem get?_nodes (visit : ∀ (_ : String) (modules : Finset String), Visit modules) (perceivedList : List PerceivedText)
    (c : String) :
    (build visit perceivedList).nodes.get? c =
      if 2 ≤ (sources perceivedList c).length then
        some ⟨c, (sources perceivedList c).toFinset, (sources perceivedList c).length⟩
      else none := by
  rw [build, get?_buildNodes, getD_conceptFreq, get?_conceptModules]
  by_cases none : sources perceivedList c = []
  · rw [if_pos none, none]
    rfl
  · rw [if_neg none, Option.bind_some]
    simp only [isKept_iff]

end ConceptGraphBuilder

end Centroid
