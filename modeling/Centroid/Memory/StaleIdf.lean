import Centroid.Memory.Rebuild
import Centroid.Memory.TfidfIndex
import Mathlib.Data.Rat.Cast.Order
import Mathlib.Tactic.FieldSimp
import Mathlib.Tactic.Linarith

namespace Centroid

section Tally

variable {R : Type} [AddMonoidWithOne R]

/-- Count each of some terms once more. -/
def tally (counts : Dict String R) (terms : List String) : Dict String R :=
  terms.foldl (fun counts term => counts.set term ((counts.get? term).getD 0 + 1)) counts

theorem get?_tally {terms : List String} (distinct : terms.Nodup) (counts : Dict String R) (term : String) :
    (tally counts terms).get? term = if term ∈ terms then some ((counts.get? term).getD 0 + 1) else counts.get? term := by
  induction terms generalizing counts with
  | nil => rfl
  | cons first terms ih =>
    obtain ⟨fresh, rest⟩ := List.nodup_cons.mp distinct
    show (tally (counts.set first _) terms).get? term = _
    rw [ih rest, Dict.get?_set]
    by_cases here : first = term
    · subst here
      simp [fresh]
    · simp [here, Ne.symm here]

/-- Count the terms of some documents, each once a document. -/
def tallyAll (counts : Dict String R) (documents : List (List String)) : Dict String R :=
  documents.foldl (fun counts document => tally counts document.dedup) counts

/-- The number of documents with a term. -/
def frequency (documents : List (List String)) (term : String) : ℕ := documents.countP fun document => term ∈ document

theorem frequency_cons (document : List String) (documents : List (List String)) (term : String) :
    frequency (document :: documents) term = frequency documents term + if term ∈ document then 1 else 0 := by
  simp only [frequency, List.countP_cons, decide_eq_true_eq]

theorem frequency_append (first second : List (List String)) (term : String) :
    frequency (first ++ second) term = frequency first term + frequency second term :=
  List.countP_append

theorem get?_tallyAll (documents : List (List String)) (counts : Dict String R) (term : String) :
    (tallyAll counts documents).get? term =
      if frequency documents term = 0 then counts.get? term
      else some ((counts.get? term).getD 0 + frequency documents term) := by
  induction documents generalizing counts with
  | nil => rfl
  | cons document documents ih =>
    show (tallyAll (tally counts document.dedup) documents).get? term = _
    rw [ih, get?_tally document.nodup_dedup, frequency_cons]
    simp only [List.mem_dedup]
    by_cases inside : term ∈ document
    · rw [if_pos inside, if_pos inside, if_neg (Nat.succ_ne_zero _), Option.getD_some, Nat.cast_succ]
      by_cases none : frequency documents term = 0
      · rw [if_pos none, none, Nat.cast_zero, zero_add]
      · rw [if_neg none, add_assoc, ← Nat.cast_one, ← Nat.cast_add, ← Nat.cast_add, Nat.add_comm 1]
    · rw [if_neg inside, if_neg inside, Nat.add_zero]

end Tally

namespace TfidfIndex

variable (tools : TextTools)

def clear (_ : TfidfIndex) : TfidfIndex := ⟨[], ∅⟩

/-- A call on an index. -/
inductive IndexCall where
  | add (docId text source : String) (metadata : Dict String String)
  | recomputeIdf
  | search (query : String) (topK : ℤ) (scorer : Option (IndexEntry → Dict String ℚ → ℚ → ℚ))
  | clear

/-- What a call leaves of an index. -/
def step (self : TfidfIndex) : IndexCall → TfidfIndex
  | .add docId text source metadata => self.add tools tools.math docId text source metadata
  | .recomputeIdf => self.recomputeIdf tools.math
  | .search _ _ _ => self
  | .clear => self.clear

def run (calls : List IndexCall) : TfidfIndex := calls.foldl (step tools) .empty

/-- The texts that are indexed after some calls: those that the last
recomputation has seen, and those added since. -/
def indexed (calls : List IndexCall) : List String × List String :=
  calls.foldl (fun texts call =>
    match call with
    | .add _ text _ _ => (texts.1, texts.2 ++ [text])
    | .recomputeIdf => (texts.1 ++ texts.2, [])
    | .search _ _ _ => texts
    | .clear => ([], [])) ([], [])

/-- What the description of the index promises of each search of a sequence of
calls: the table is that of the documents indexed then, and the results are as
after a recomputation. -/
def Fresh (calls : List IndexCall) : Prop :=
  ∀ before query topK scorer rest, calls = before ++ .search query topK scorer :: rest →
    let index := run tools before
    (∀ term, index.idf.get? term = (computeIdf tools.math (index.entries.map IndexEntry.tokens)).get? term) ∧
      index.search tools tools.math query topK scorer =
        (index.recomputeIdf tools.math).search tools tools.math query topK scorer

/-- All texts were there at the last recomputation, or there is one text in all,
or none with a token. -/
def Settled (texts : List String × List String) : Prop :=
  texts.2 = [] ∨ (texts.1 ++ texts.2).length = 1 ∨ ∀ text ∈ texts.1 ++ texts.2, tokenize tools text = []

variable {tools}

theorem get?_computeIdf {K : Type} [Field K] (math : MathTools K) (documents : List (List String)) (term : String) :
    (computeIdf math documents).get? term =
      if frequency documents term = 0 then none
      else some (math.log ((documents.length + 1 : K) / (frequency documents term + 1)) + 1) := by
  have counted : computeIdf math documents = (tallyAll (∅ : Dict String ℕ) documents).mapValues fun _ (freq : ℕ) =>
      math.log ((documents.length + 1 : K) / (freq + 1)) + 1 := rfl
  rw [counted, Dict.get?_mapValues, get?_tallyAll]
  split
  · rfl
  · simp

/-- The index after some calls, by the texts. -/
theorem run_spec (calls : List IndexCall) :
    (run tools calls).entries.map IndexEntry.tokens =
        ((indexed calls).1 ++ (indexed calls).2).map (tokenize tools) ∧
      (run tools calls).idf = tallyAll (computeIdf tools.math ((indexed calls).1.map (tokenize tools)))
        ((indexed calls).2.map (tokenize tools)) := by
  induction calls using List.reverseRecOn with
  | nil => exact ⟨rfl, rfl⟩
  | append_singleton calls call ih =>
    obtain ⟨entries, idf⟩ := ih
    rw [run, indexed, List.foldl_append, List.foldl_append]
    cases call with
    | add docId text source metadata =>
      refine ⟨?_, ?_⟩
      · show ((run tools calls).entries ++ [entryOf tools tools.math docId text source metadata]).map IndexEntry.tokens =
          ((indexed calls).1 ++ ((indexed calls).2 ++ [text])).map (tokenize tools)
        rw [← List.append_assoc, List.map_append, List.map_append, entries]
        rfl
      · show tally (run tools calls).idf (tokenize tools text).dedup = tallyAll
          (computeIdf tools.math ((indexed calls).1.map (tokenize tools))) (((indexed calls).2 ++ [text]).map (tokenize tools))
        rw [List.map_append, tallyAll, List.foldl_append, idf]
        rfl
    | recomputeIdf =>
      have all : (run tools calls).entries.map IndexEntry.tokens =
          (((indexed calls).1 ++ (indexed calls).2) ++ []).map (tokenize tools) := by
        rw [List.append_nil, entries]
      refine ⟨all, ?_⟩
      show computeIdf tools.math ((run tools calls).entries.map IndexEntry.tokens) = _
      rw [entries]
      rfl
    | search query topK scorer => exact ⟨entries, idf⟩
    | clear => exact ⟨rfl, rfl⟩

section Weights

/-- The table where documents were added has, at a term, the weight of all the documents. -/
def Weighed (tools : TextTools) (base added : List (List String)) (term : String) : Prop :=
  (tallyAll (computeIdf tools.math base) added).get? term = (computeIdf tools.math (base ++ added)).get? term

variable (base added : List (List String)) (term : String)

/-- The weight of a term where documents were added after a recomputation. -/
theorem get?_added : (tallyAll (computeIdf tools.math base) added).get? term =
    if frequency added term = 0 then (computeIdf tools.math base).get? term
    else some (((computeIdf tools.math base).get? term).getD 0 + frequency added term) :=
  get?_tallyAll added _ term

variable {base added term}

/-- With one document in all the count of a term is its weight. -/
theorem weighed_of_single (unit : tools.log 1 = 0) (single : (base ++ added).length = 1) : Weighed tools base added term := by
  unfold Weighed
  rw [List.length_append] at single
  cases added with
  | nil => rw [List.append_nil, tallyAll, List.foldl_nil]
  | cons document rest =>
    rw [List.length_cons] at single
    rw [List.length_eq_zero_iff.mp (show rest.length = 0 by omega), List.length_eq_zero_iff.mp (show base.length = 0 by omega),
      List.nil_append, get?_added, get?_computeIdf, get?_computeIdf]
    have counted : frequency [document] term = if term ∈ document then 1 else 0 := by
      rw [frequency_cons]
      exact Nat.zero_add _
    rw [counted]
    by_cases inside : term ∈ document
    · rw [if_pos inside]
      have weight : tools.log (((1 : ℕ) + 1) / ((1 : ℕ) + 1)) + 1 = (0 : ℚ) + (1 : ℕ) := by
        rw [Nat.cast_one, div_self (by norm_num), unit]
      rw [if_neg one_ne_zero, if_neg one_ne_zero, List.length_singleton, weight]
      rfl
    · rw [if_neg inside]
      rfl

theorem weighed_of_wordless (wordless : ∀ document ∈ base ++ added, document = []) : Weighed tools base added term := by
  unfold Weighed
  have never : ∀ documents : List (List String), (∀ document ∈ documents, document = []) → frequency documents term = 0 := by
    intro documents empty
    refine List.countP_eq_zero.mpr ?_
    intro document member
    rw [empty document member]
    simp
  rw [get?_added, get?_computeIdf, get?_computeIdf, never _ wordless,
    never added fun document member => wordless document (List.mem_append_right _ member),
    never base fun document member => wordless document (List.mem_append_left _ member)]
  rfl

/-- The same tools with a logarithm that is stretched. -/
def stretched (tools : TextTools) (factor : ℚ) : TextTools := { tools with log := fun x => factor * (x - 1) }

theorem tokenize_stretched (tools : TextTools) (factor : ℚ) : tokenize (stretched tools factor) = tokenize tools := rfl

theorem stretched_admissible (tools : TextTools) {factor : ℚ} (positive : 0 < factor) :
    StrictMono (stretched tools factor).log ∧ (stretched tools factor).log 1 = 0 := by
  refine ⟨?_, ?_⟩
  · intro x y below
    exact mul_lt_mul_of_pos_left (sub_lt_sub_right below 1) positive
  · show factor * (1 - 1) = 0
    ring

/-- A term that is in none of the added documents has the weight of the fewer
documents before. -/
theorem added_nil_of_weighed (one : Weighed (stretched tools 1) base added term) (noneAdded : frequency added term = 0)
    (inBase : frequency base term ≠ 0) : added = [] := by
  have sum := frequency_append base added term
  have positive : frequency (base ++ added) term ≠ 0 := by omega
  rw [Weighed, get?_added, get?_computeIdf, get?_computeIdf, if_neg positive, if_pos noneAdded, if_neg inBase, sum,
    noneAdded, Nat.add_zero] at one
  have weights := Option.some.inj one
  have same : ((base.length : ℚ) + 1) / (frequency base term + 1) =
      ((base ++ added).length + 1) / (frequency base term + 1) := by
    simp only [stretched] at weights
    linarith
  have scale : ((frequency base term : ℚ) + 1) ≠ 0 := by positivity
  rw [div_left_inj' scale] at same
  have lengths : base.length = (base ++ added).length := by exact_mod_cast add_right_cancel same
  rw [List.length_append] at lengths
  exact List.length_eq_zero_iff.mp (by omega)

/-- A count alone is a weight only as the count one of one document. -/
theorem single_of_weighed (one : Weighed (stretched tools 1) base added term)
    (two : Weighed (stretched tools 2) base added term) (someAdded : frequency added term ≠ 0)
    (noneBefore : frequency base term = 0) : (base ++ added).length = 1 := by
  have sum := frequency_append base added term
  have positive : frequency (base ++ added) term ≠ 0 := by omega
  rw [Weighed, get?_added, get?_computeIdf, get?_computeIdf, if_neg positive, if_neg someAdded, if_pos noneBefore] at one two
  have weights := Option.some.inj one
  have weights' := Option.some.inj two
  simp only [stretched, Option.getD_none] at weights weights'
  have ratio : (((base ++ added).length : ℚ) + 1) / (frequency (base ++ added) term + 1) = 1 := by linarith
  have count : (frequency added term : ℚ) = 1 := by linarith
  have scale : ((frequency (base ++ added) term : ℚ) + 1) ≠ 0 := by positivity
  rw [div_eq_one_iff_eq scale] at ratio
  have lengths : (base ++ added).length = frequency (base ++ added) term := by exact_mod_cast add_right_cancel ratio
  have countOne : frequency added term = 1 := by exact_mod_cast count
  omega

/-- A count that is added to a weight does not stretch with the logarithm. -/
theorem not_weighed_of_both (one : Weighed (stretched tools 1) base added term)
    (two : Weighed (stretched tools 2) base added term) (someAdded : frequency added term ≠ 0)
    (someBefore : frequency base term ≠ 0) : False := by
  have sum := frequency_append base added term
  have positive : frequency (base ++ added) term ≠ 0 := by omega
  rw [Weighed, get?_added, get?_computeIdf, get?_computeIdf, if_neg positive, if_neg someAdded, if_neg someBefore] at one two
  have weights := Option.some.inj one
  have weights' := Option.some.inj two
  simp only [stretched, Option.getD_some] at weights weights'
  have counts : (frequency added term : ℚ) ≠ 0 := Nat.cast_ne_zero.mpr someAdded
  exact counts (by linarith)

/-- What an addition puts into the table cannot be a weight for two logarithms
at once, but with one document in all. -/
theorem settled_of_stretched (one : ∀ term, Weighed (stretched tools 1) base added term)
    (two : ∀ term, Weighed (stretched tools 2) base added term) :
    added = [] ∨ (base ++ added).length = 1 ∨ ∀ document ∈ base ++ added, document = [] := by
  by_contra unsettled
  push Not at unsettled
  obtain ⟨some, several, document, member, words⟩ := unsettled
  obtain ⟨term, inside⟩ := List.exists_mem_of_ne_nil _ words
  have positive : 0 < frequency (base ++ added) term :=
    List.countP_pos_iff.mpr ⟨document, member, decide_eq_true inside⟩
  have sum := frequency_append base added term
  by_cases noneAdded : frequency added term = 0
  · exact some (added_nil_of_weighed (one term) noneAdded (by omega))
  · by_cases noneBefore : frequency base term = 0
    · exact several (single_of_weighed (one term) (two term) noneAdded noneBefore)
    · exact not_weighed_of_both (one term) (two term) noneAdded noneBefore

end Weights

/-- A search reads the table term by term. -/
theorem search_congr {a b : TfidfIndex} (entries : a.entries = b.entries)
    (idf : ∀ term, a.idf.get? term = b.idf.get? term) (query : String) (topK : ℤ)
    (scorer : Option (IndexEntry → Dict String ℚ → ℚ → ℚ)) :
    a.search tools tools.math query topK scorer = b.search tools tools.math query topK scorer := by
  have weights : weigh a.idf = weigh b.idf := by
    funext tf
    simp only [weigh, idf]
  have scores : baseScore tools.math a.idf = baseScore tools.math b.idf := by
    funext queryTf entry
    simp only [baseScore, weights]
  rw [search, search, entries, scores]

theorem search_recompute {index : TfidfIndex} (table : ∀ term,
      index.idf.get? term = (computeIdf tools.math (index.entries.map IndexEntry.tokens)).get? term)
    (query : String) (topK : ℤ) (scorer : Option (IndexEntry → Dict String ℚ → ℚ → ℚ)) :
    index.search tools tools.math query topK scorer =
      (index.recomputeIdf tools.math).search tools tools.math query topK scorer := by
  have entries : index.entries = (index.recomputeIdf tools.math).entries := rfl
  exact search_congr entries table query topK scorer

/-- The table of an index after some calls, term by term, by the texts. -/
theorem fresh_table_run (calls : List IndexCall) (term : String) :
    ((run tools calls).idf.get? term = (computeIdf tools.math ((run tools calls).entries.map IndexEntry.tokens)).get? term) ↔
      Weighed tools ((indexed calls).1.map (tokenize tools)) ((indexed calls).2.map (tokenize tools)) term := by
  obtain ⟨entries, idf⟩ := @run_spec tools calls
  rw [Weighed, entries, idf, ← List.map_append]

theorem wordless_iff (texts : List String × List String) :
    (∀ document ∈ texts.1.map (tokenize tools) ++ texts.2.map (tokenize tools), document = []) ↔
      ∀ text ∈ texts.1 ++ texts.2, tokenize tools text = [] := by
  rw [← List.map_append, List.forall_mem_map]

/-- Additions that are settled leave the table of the indexed documents. -/
theorem fresh_table_of_settled {calls : List IndexCall} (unit : tools.log 1 = 0) (settled : Settled tools (indexed calls))
    (term : String) :
    (run tools calls).idf.get? term = (computeIdf tools.math ((run tools calls).entries.map IndexEntry.tokens)).get? term := by
  rw [fresh_table_run]
  rcases settled with none | single | empty
  · rw [none, Weighed, List.map_nil, List.append_nil, tallyAll, List.foldl_nil]
  · refine weighed_of_single unit ?_
    rw [← List.map_append, List.length_map]
    exact single
  · exact weighed_of_wordless ((wordless_iff _).mpr empty)

/-- The table is that of the indexed documents exactly where no addition waits
for a recomputation, up to one document and documents without a token. -/
theorem settled_of_fresh_table {calls : List IndexCall}
    (fresh : ∀ factor : ℚ, 0 < factor → ∀ term,
      (run (stretched tools factor) calls).idf.get? term = (computeIdf (stretched tools factor).math
        ((run (stretched tools factor) calls).entries.map IndexEntry.tokens)).get? term) :
    Settled tools (indexed calls) := by
  have tables : ∀ factor : ℚ, 0 < factor → ∀ term,
      Weighed (stretched tools factor) ((indexed calls).1.map (tokenize tools)) ((indexed calls).2.map (tokenize tools))
        term := by
    intro factor positive term
    have table := fresh factor positive term
    rw [fresh_table_run, tokenize_stretched] at table
    exact table
  have settled := settled_of_stretched (tables 1 one_pos) (tables 2 two_pos)
  rw [wordless_iff, List.map_eq_nil_iff, ← List.map_append, List.length_map] at settled
  exact settled

/-- For every logarithm each search keeps the promise exactly where each search
finds the additions settled. -/
theorem fresh_iff (tools : TextTools) (calls : List IndexCall) :
    (∀ log : ℚ → ℚ, StrictMono log → log 1 = 0 → Fresh { tools with log := log } calls) ↔
      ∀ before query topK scorer rest, calls = before ++ .search query topK scorer :: rest →
        Settled tools (indexed before) := by
  constructor
  · intro fresh before query topK scorer rest split
    refine settled_of_fresh_table ?_
    intro factor positive
    obtain ⟨increasing, unit⟩ := stretched_admissible tools positive
    exact (fresh _ increasing unit before query topK scorer rest split).1
  · intro settled log increasing unit before query topK scorer rest split index
    have settledHere : Settled { tools with log := log } (indexed before) := settled before query topK scorer rest split
    have table := fresh_table_of_settled unit settledHere
    exact ⟨table, search_recompute table query topK scorer⟩

/-- Two notes are indexed, and searched without a recomputation. -/
def twoNotes : List IndexCall :=
  [.add "1" "cat" "s" ∅, .add "2" "dog" "s" ∅, .search "cat" 5 none]

theorem not_fresh_twoNotes :
    ¬ ∀ log : ℚ → ℚ, StrictMono log → log 1 = 0 → Fresh { MemoryStore.epochTools with log := log } twoNotes := by
  intro fresh
  obtain ⟨increasing, unit⟩ := stretched_admissible MemoryStore.epochTools one_pos
  have promise := fresh _ increasing unit [.add "1" "cat" "s" ∅, .add "2" "dog" "s" ∅] "cat" 5 none [] rfl
  have table := promise.1 "cat"
  have count : (run (stretched MemoryStore.epochTools 1) [.add "1" "cat" "s" ∅, .add "2" "dog" "s" ∅]).idf.get? "cat" =
      some 1 := by decide +kernel
  have weight : (computeIdf (stretched MemoryStore.epochTools 1).math
      ((run (stretched MemoryStore.epochTools 1) [.add "1" "cat" "s" ∅, .add "2" "dog" "s" ∅]).entries.map
        IndexEntry.tokens)).get? "cat" = some (3 / 2) := by decide +kernel
  have same : (some 1 : Option ℚ) = some (3 / 2) := count.symm.trans (table.trans weight)
  exact absurd (Option.some.inj same) (by norm_num)

end TfidfIndex

end Centroid
