import Centroid.Lib.SparseVectors
import Centroid.Memory.StaleIdf
import Mathlib.Analysis.SpecialFunctions.Log.Basic

namespace Centroid

open SparseVectors

/-- The functions of `math` themselves, without rounding. -/
noncomputable def MathTools.real : MathTools ℝ := ⟨Real.log, Real.sqrt⟩

section Corpus

variable {K : Type} [Field K] (math : MathTools K)

/-- The vector of some tokens among the documents of an index. -/
def vectorIn (documents : List (List String)) (tokens : List String) : Dict String K :=
  TfidfIndex.weigh (computeIdf math documents) (computeTf math tokens)

/-- The similarity of two texts by their tokens, before it is rounded. -/
def cosineIn [DecidableEq K] (documents : List (List String)) (a b : List String) : K :=
  sparseCosine math (vectorIn math documents a) (vectorIn math documents b)

end Corpus

theorem get?_countAll (counts : Dict String ℕ) (tokens : List String) (term : String) :
    (countAll counts tokens).get? term =
      if term ∈ tokens then some ((counts.get? term).getD 0 + tokens.count term) else counts.get? term := by
  induction tokens generalizing counts with
  | nil => rfl
  | cons token tokens ih =>
    show (countAll (counts.set token _) tokens).get? term = _
    rw [ih, Dict.get?_set, List.count_cons]
    by_cases here : token = term
    · subst here
      by_cases later : token ∈ tokens
      · simp [later]
        omega
      · simp [later, List.count_eq_zero_of_not_mem later]
    · simp [here, Ne.symm here]

section Keys

variable {K : Type} [Field K] (math : MathTools K) (documents : List (List String)) (tokens : List String)

theorem get?_computeTf (term : String) :
    (computeTf math tokens).get? term =
      if term ∈ tokens then some (math.log (1 + (tokens.count term : K) / tokens.length)) else none := by
  rw [computeTf, Dict.get?_mapValues, get?_countAll]
  by_cases member : term ∈ tokens
  · have some : tokens.length ≠ 0 := (List.length_pos_of_mem member).ne'
    simp [member, some]
  · simp [member]

theorem mem_keys_vectorIn {term : String} : term ∈ (vectorIn math documents tokens).keys ↔ term ∈ tokens := by
  rw [vectorIn, TfidfIndex.weigh, Dict.keys_mapValues, Dict.mem_keys_iff, get?_computeTf]
  split
  · rename_i member
    exact iff_of_true ⟨_, rfl⟩ member
  · rename_i absent
    refine iff_of_false ?_ absent
    rintro ⟨_, none⟩
    cases none

end Keys

section Checked

variable {K : Type} [Field K] (math : MathTools K)

/-- A division as Python makes it, which fails at zero. -/
def divided [DecidableEq K] (x y : K) : Option K := if y = 0 then none else some (x / y)

/-- The entries of `compute_tf`, if every division succeeds. -/
def computeTfChecked [DecidableEq K] (tokens : List String) : Option (List (String × K)) :=
  let total : ℕ := if tokens.length = 0 then 1 else tokens.length
  (countAll ∅ tokens).entries.mapM fun entry =>
    (divided (entry.2 : K) total).map fun share => (entry.1, math.log (1 + share))

/-- The entries of `compute_idf`, if every division succeeds. -/
def computeIdfChecked [DecidableEq K] (documents : List (List String)) : Option (List (String × K)) :=
  (documents.foldl (fun df doc => countAll df doc.dedup) ∅).entries.mapM fun entry =>
    (divided (documents.length + 1 : K) (entry.2 + 1)).map fun ratio => (entry.1, math.log ratio + 1)

/-- `sparse_cosine`, if its division succeeds. -/
def sparseCosineChecked [DecidableEq K] (a b : Dict String K) : Option K :=
  let common := a.keys.filter (· ∈ b.keys)
  let dot := (common.map fun term => (a.get? term).getD 0 * (b.get? term).getD 0).sum
  let magA := sparseMagnitude math a
  let magB := sparseMagnitude math b
  if magA = 0 ∨ magB = 0 then some 0 else divided dot (magA * magB)

variable [DecidableEq K]

theorem mapM_some {α β : Type} {f : α → Option β} {g : α → β} {items : List α}
    (each : ∀ item ∈ items, f item = some (g item)) : items.mapM f = some (items.map g) := by
  induction items with
  | nil => rfl
  | cons item items ih =>
    rw [List.mapM_cons, each item List.mem_cons_self, ih fun later member => each later (List.mem_cons_of_mem _ member)]
    rfl

theorem computeTfChecked_eq [CharZero K] (tokens : List String) :
    computeTfChecked math tokens = some (computeTf math tokens).entries := by
  refine mapM_some fun entry _ => ?_
  have total : (if tokens.length = 0 then 1 else tokens.length : ℕ) ≠ 0 := by
    split
    · exact one_ne_zero
    · assumption
  rw [divided, if_neg (Nat.cast_ne_zero.mpr total)]
  rfl

theorem computeIdfChecked_eq [CharZero K] (documents : List (List String)) :
    computeIdfChecked math documents = some (computeIdf math documents).entries := by
  refine mapM_some fun entry _ => ?_
  rw [divided, if_neg (Nat.cast_add_one_ne_zero entry.2)]
  rfl

/-- The guard on the magnitudes keeps the division from zero. -/
theorem sparseCosineChecked_eq (a b : Dict String K) :
    sparseCosineChecked math a b = some (sparseCosine math a b) := by
  unfold sparseCosineChecked sparseCosine
  dsimp only
  split
  · rfl
  · rename_i nonzero
    rw [not_or] at nonzero
    rw [divided, if_neg (mul_ne_zero nonzero.1 nonzero.2)]

end Checked

section Real

variable (documents : List (List String))

theorem frequency_le_length (term : String) : frequency documents term ≤ documents.length := List.countP_le_length

/-- No weight of a corpus is below one, since no term is in more documents than
there are. -/
theorem one_le_computeIdf {term : String} {weight : ℝ}
    (found : (computeIdf .real documents).get? term = some weight) : 1 ≤ weight := by
  rw [TfidfIndex.get?_computeIdf] at found
  split at found
  · cases found
  · cases found
    have few : (frequency documents term : ℝ) ≤ documents.length := by exact_mod_cast frequency_le_length documents term
    have ratio : 1 ≤ ((documents.length + 1 : ℝ) / (frequency documents term + 1)) := by
      rw [one_le_div (by positivity)]
      linarith
    have nonneg := Real.log_nonneg ratio
    exact le_add_of_nonneg_left nonneg

theorem one_le_idf_getD (term : String) : 1 ≤ ((computeIdf .real documents).get? term).getD 1 := by
  cases found : (computeIdf .real documents).get? term with
  | none => exact le_rfl
  | some weight => exact one_le_computeIdf documents found

theorem weightAt_vectorIn (tokens : List String) (term : String) :
    weightAt (vectorIn .real documents tokens) term =
      if term ∈ tokens then
        Real.log (1 + (tokens.count term : ℝ) / tokens.length) * ((computeIdf .real documents).get? term).getD 1
      else 0 := by
  rw [weightAt, vectorIn, TfidfIndex.weigh, Dict.get?_mapValues, get?_computeTf]
  split <;> rfl

theorem weightAt_pos {tokens : List String} {term : String} (member : term ∈ tokens) :
    0 < weightAt (vectorIn .real documents tokens) term := by
  have count : (0 : ℝ) < tokens.count term := by exact_mod_cast List.count_pos_iff.mpr member
  have length : (0 : ℝ) < tokens.length := by exact_mod_cast List.length_pos_of_mem member
  have log : 0 < Real.log (1 + (tokens.count term : ℝ) / tokens.length) :=
    Real.log_pos (lt_add_of_pos_right 1 (div_pos count length))
  rw [weightAt_vectorIn, if_pos member]
  exact mul_pos log (one_pos.trans_le (one_le_idf_getD documents term))

theorem weightAt_eq_zero_iff (tokens : List String) (term : String) :
    weightAt (vectorIn .real documents tokens) term = 0 ↔ term ∉ tokens := by
  constructor
  · intro zero member
    exact (weightAt_pos documents member).ne' zero
  · intro absent
    rw [weightAt_vectorIn, if_neg absent]

theorem weightAt_nonneg (tokens : List String) (term : String) : 0 ≤ weightAt (vectorIn .real documents tokens) term := by
  by_cases member : term ∈ tokens
  · exact (weightAt_pos documents member).le
  · exact ((weightAt_eq_zero_iff documents tokens term).mpr member).ge

theorem sparseMagnitude_real (vector : Dict String ℝ) {terms : Finset String} (within : vector.keys.toFinset ⊆ terms) :
    sparseMagnitude .real vector = magnitude terms (weightAt vector) := by
  have squares : (vector.values.map fun v => v * v).sum = ∑ term ∈ terms, weightAt vector term ^ 2 := by
    simp only [← sq]
    rw [sum_values vector fun v => v ^ 2]
    refine sum_keys_subset vector within fun term zero => ?_
    rw [zero, zero_pow two_ne_zero]
  rw [sparseMagnitude, squares]
  rfl

/-- The cosine of the source is that of two vectors over all their terms. -/
theorem sparseCosine_real (a b : Dict String ℝ) :
    sparseCosine .real a b = cosine (a.keys ++ b.keys).toFinset (weightAt a) (weightAt b) := by
  have withinA : a.keys.toFinset ⊆ (a.keys ++ b.keys).toFinset := by
    rw [List.toFinset_append]
    exact Finset.subset_union_left
  have withinB : b.keys.toFinset ⊆ (a.keys ++ b.keys).toFinset := by
    rw [List.toFinset_append]
    exact Finset.subset_union_right
  have dot : ((a.keys.filter (· ∈ b.keys)).map fun term => (a.get? term).getD 0 * (b.get? term).getD 0).sum =
      ∑ term ∈ (a.keys ++ b.keys).toFinset, weightAt a term * weightAt b term := by
    have distinct : (a.keys.filter (· ∈ b.keys)).Nodup := List.Nodup.filter _ a.distinct
    rw [← List.sum_toFinset _ distinct]
    refine Finset.sum_subset ?_ fun term _ apart => ?_
    · intro term member
      rw [List.mem_toFinset] at member ⊢
      exact List.mem_append_left _ (List.mem_filter.mp member).1
    · rw [List.mem_toFinset, List.mem_filter, not_and_or, decide_eq_true_eq] at apart
      rcases apart with absent | absent
      · exact mul_eq_zero_of_left (weightAt_of_not_mem absent) _
      · exact mul_eq_zero_of_right _ (weightAt_of_not_mem absent)
  rw [sparseCosine, cosine, ← sparseMagnitude_real a withinA, ← sparseMagnitude_real b withinB, ← dot]
  split
  · rename_i zero
    rw [mul_eq_zero.mpr zero, div_zero]
  · rfl

theorem cosineIn_real (a b : List String) :
    cosineIn .real documents a b =
      cosine (a ++ b).toFinset (weightAt (vectorIn .real documents a)) (weightAt (vectorIn .real documents b)) := by
  have terms : ((vectorIn .real documents a).keys ++ (vectorIn .real documents b).keys).toFinset = (a ++ b).toFinset := by
    ext term
    simp only [List.mem_toFinset, List.mem_append, mem_keys_vectorIn]
  rw [cosineIn, sparseCosine_real, terms]

theorem cosineIn_eq_zero_iff (a b : List String) :
    cosineIn .real documents a b = 0 ↔ Disjoint a.toFinset b.toFinset := by
  rw [cosineIn_real, cosine_eq_zero_iff (fun term _ => weightAt_nonneg documents a term) fun term _ =>
    weightAt_nonneg documents b term, Finset.disjoint_left]
  simp only [weightAt_eq_zero_iff, List.mem_toFinset, List.mem_append]
  constructor
  · intro apart term inA inB
    exact (apart term (Or.inl inA)).elim (fun absent => absent inA) fun absent => absent inB
  · intro apart term _
    by_cases inA : term ∈ a
    · exact Or.inr (apart inA)
    · exact Or.inl inA

theorem cosineIn_of_perm {a b : List String} (perm : a.Perm b) (some : a ≠ []) : cosineIn .real documents a b = 1 := by
  have weights : weightAt (vectorIn .real documents b) = weightAt (vectorIn .real documents a) := by
    funext term
    simp only [weightAt_vectorIn, perm.mem_iff, perm.count_eq, perm.length_eq]
  obtain ⟨term, member⟩ := List.exists_mem_of_ne_nil a some
  rw [cosineIn_real, weights]
  exact cosine_self (List.mem_toFinset.mpr (List.mem_append_left b member)) (weightAt_pos documents member).ne'

theorem sparseMagnitude_eq_zero_iff (tokens : List String) :
    sparseMagnitude .real (vectorIn .real documents tokens) = 0 ↔ tokens = [] := by
  rw [sparseMagnitude_real _ subset_rfl, magnitude_eq_zero_iff]
  simp only [List.mem_toFinset, mem_keys_vectorIn, weightAt_eq_zero_iff]
  rw [List.eq_nil_iff_forall_not_mem]
  exact forall_congr' fun term => imp_not_self

/-- The laws of the similarity, for every corpus and every two lists of tokens. -/
theorem cosineIn_laws (a b : List String) :
    (∀ term weight, (computeIdf .real documents).get? term = some weight → 1 ≤ weight) ∧
      cosineIn .real documents a b = cosineIn .real documents b a ∧
      0 ≤ cosineIn .real documents a b ∧ cosineIn .real documents a b ≤ 1 ∧
      (cosineIn .real documents a b = 0 ↔ Disjoint a.toFinset b.toFinset) ∧
      (a.Perm b → a ≠ [] → cosineIn .real documents a b = 1) ∧
      (sparseMagnitude .real (vectorIn .real documents a) = 0 ↔ a = []) ∧
      computeTfChecked .real a = some (computeTf .real a).entries ∧
      computeIdfChecked .real documents = some (computeIdf .real documents).entries ∧
      sparseCosineChecked .real (vectorIn .real documents a) (vectorIn .real documents b) =
        some (cosineIn .real documents a b) := by
  have symmetric : cosineIn .real documents a b = cosineIn .real documents b a := by
    have terms : (a ++ b).toFinset = (b ++ a).toFinset := List.toFinset_eq_of_perm _ _ List.perm_append_comm
    rw [cosineIn_real, cosineIn_real, cosine_comm, terms]
  refine ⟨fun term weight found => one_le_computeIdf documents found, symmetric, ?_, ?_,
    cosineIn_eq_zero_iff documents a b, cosineIn_of_perm documents, sparseMagnitude_eq_zero_iff documents a,
    computeTfChecked_eq _ a, computeIdfChecked_eq _ documents, sparseCosineChecked_eq _ _ _⟩
  · rw [cosineIn_real]
    exact cosine_nonneg (fun term _ => weightAt_nonneg documents a term) fun term _ => weightAt_nonneg documents b term
  · rw [cosineIn_real]
    exact cosine_le_one

end Real

end Centroid
