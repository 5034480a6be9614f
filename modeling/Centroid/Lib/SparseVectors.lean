import Centroid.Lib.Dict
import Mathlib.Algebra.BigOperators.Group.Finset.Basic
import Mathlib.Analysis.Real.Sqrt
import Mathlib.Tactic.Linarith
import Mathlib.Tactic.Positivity

namespace SparseVectors

section Cosine

variable {ι : Type} (s : Finset ι) (f g : ι → ℝ)

noncomputable def magnitude : ℝ := √(∑ i ∈ s, f i ^ 2)

/-- The cosine of the angle between two vectors, zero where one of them is. -/
noncomputable def cosine : ℝ := (∑ i ∈ s, f i * g i) / (magnitude s f * magnitude s g)

variable {s f g}

theorem magnitude_nonneg : 0 ≤ magnitude s f := Real.sqrt_nonneg _

theorem magnitude_eq_zero_iff : magnitude s f = 0 ↔ ∀ i ∈ s, f i = 0 := by
  rw [magnitude, Real.sqrt_eq_zero (Finset.sum_nonneg fun _ _ => sq_nonneg _),
    Finset.sum_eq_zero_iff_of_nonneg fun _ _ => sq_nonneg _]
  simp only [pow_eq_zero_iff two_ne_zero]

theorem cosine_comm : cosine s f g = cosine s g f := by
  rw [cosine, cosine, mul_comm (magnitude s f)]
  simp only [mul_comm (f _)]

/-- The Cauchy-Schwarz inequality. -/
theorem cosine_le_one : cosine s f g ≤ 1 :=
  div_le_one_of_le₀ (Real.sum_mul_le_sqrt_mul_sqrt s f g) (mul_nonneg magnitude_nonneg magnitude_nonneg)

theorem cosine_self {i : ι} (member : i ∈ s) (nonzero : f i ≠ 0) : cosine s f f = 1 := by
  have whole : magnitude s f ≠ 0 := fun zero => nonzero (magnitude_eq_zero_iff.mp zero i member)
  have square : ∑ i ∈ s, f i * f i = magnitude s f * magnitude s f := by
    rw [magnitude, Real.mul_self_sqrt (Finset.sum_nonneg fun _ _ => sq_nonneg _)]
    simp only [sq]
  rw [cosine, square, div_self (mul_ne_zero whole whole)]

section Nonneg

variable (nonnegF : ∀ i ∈ s, 0 ≤ f i) (nonnegG : ∀ i ∈ s, 0 ≤ g i)

include nonnegF nonnegG

theorem dot_nonneg : 0 ≤ ∑ i ∈ s, f i * g i :=
  Finset.sum_nonneg fun i member => mul_nonneg (nonnegF i member) (nonnegG i member)

theorem cosine_nonneg : 0 ≤ cosine s f g :=
  div_nonneg (dot_nonneg nonnegF nonnegG) (mul_nonneg magnitude_nonneg magnitude_nonneg)

/-- Vectors without negative weights are orthogonal where they share no weight. -/
theorem cosine_eq_zero_iff : cosine s f g = 0 ↔ ∀ i ∈ s, f i = 0 ∨ g i = 0 := by
  constructor
  · intro zero i member
    rw [cosine, div_eq_zero_iff, mul_eq_zero, magnitude_eq_zero_iff, magnitude_eq_zero_iff] at zero
    rcases zero with dot | noF | noG
    · have products := (Finset.sum_eq_zero_iff_of_nonneg fun i member =>
        mul_nonneg (nonnegF i member) (nonnegG i member)).mp dot
      exact mul_eq_zero.mp (products i member)
    · exact Or.inl (noF i member)
    · exact Or.inr (noG i member)
  · intro apart
    have dot : ∑ i ∈ s, f i * g i = 0 := Finset.sum_eq_zero fun i member => mul_eq_zero.mpr (apart i member)
    rw [cosine, dot, zero_div]

end Nonneg

end Cosine

section Dict

variable {κ : Type} [DecidableEq κ] {M : Type} [AddCommMonoid M]

/-- The weight of a term, nothing for one without an entry. -/
def weightAt {K : Type} [Zero K] (vector : Dict κ K) (term : κ) : K := (vector.get? term).getD 0

theorem weightAt_of_not_mem {K : Type} [Zero K] {vector : Dict κ K} {term : κ} (absent : term ∉ vector.keys) :
    weightAt vector term = 0 := by
  rw [weightAt, (Dict.get?_eq_none_iff _ _).mpr absent]
  rfl

theorem sum_values {K : Type} [Zero K] (vector : Dict κ K) (f : K → M) :
    (vector.values.map f).sum = ∑ term ∈ vector.keys.toFinset, f (weightAt vector term) := by
  have found : ∀ term ∈ vector.keys, vector.get? term = some (weightAt vector term) := by
    intro term member
    obtain ⟨w, atTerm⟩ := (Dict.mem_keys_iff _ _).mp member
    rw [weightAt, atTerm]
    rfl
  have distinct : vector.keys.Nodup := vector.distinct
  rw [Dict.values, vector.entries_eq_map found, List.map_map, List.map_map, List.sum_toFinset _ distinct]
  rfl

/-- A sum over the terms of a vector may go over more terms. -/
theorem sum_keys_subset {K : Type} [Zero K] (vector : Dict κ K) {terms : Finset κ} (within : vector.keys.toFinset ⊆ terms)
    {f : κ → M} (vanishes : ∀ term, weightAt vector term = 0 → f term = 0) :
    ∑ term ∈ vector.keys.toFinset, f term = ∑ term ∈ terms, f term := by
  refine Finset.sum_subset within fun term _ absent => vanishes term (weightAt_of_not_mem ?_)
  rwa [List.mem_toFinset] at absent

end Dict

end SparseVectors
