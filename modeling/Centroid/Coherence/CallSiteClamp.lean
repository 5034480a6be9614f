import Centroid.Coherence.ForwardValue
import Centroid.Coherence.IndexBounds

namespace Centroid

open Rounding

section Edges

variable {ν : Type}

/-- The edge makes the same of the values that it reads and of these values clamped. -/
def EdgeDef.Harmless (e : EdgeDef ν ℚ) (upstream downstream : ℚ) : Prop :=
  clamp01 (e.result upstream downstream) = clamp01 (e.result (clamp01 upstream) (clamp01 downstream))

/-- The types whose edges scale what they read, whatever was at their target. -/
def EdgeType.Scales (type : EdgeType) : Prop :=
  type = .multiplicativeFactor ∨ type = .proportional ∨ type = .modulates

theorem EdgeDef.result_of_scales {e : EdgeDef ν ℚ} (scales : e.edgeType.Scales) (upstream downstream : ℚ) :
    e.result upstream downstream = upstream * e.weight := by
  unfold result applyEdge
  rcases scales with type | type | type <;> rw [type] <;> rfl

/-- A scaling edge does harm exactly when it scales an excess down. -/
theorem EdgeDef.harmless_of_scales_iff {e : EdgeDef ν ℚ} (scales : e.edgeType.Scales)
    (weight : 0 ≤ e.weight ∧ e.weight ≤ 1) (upstream downstream : ℚ) :
    e.Harmless upstream downstream ↔ upstream ≤ 1 ∨ e.weight = 0 ∨ e.weight = 1 := by
  rw [Harmless, result_of_scales scales, result_of_scales scales]
  rcases le_total upstream 0 with low | positive
  · have scaled : upstream * e.weight ≤ 0 := mul_nonpos_of_nonpos_of_nonneg low weight.1
    rw [clamp01_of_nonpos low, zero_mul, clamp01_of_nonpos scaled, clamp01_of_nonpos le_rfl]
    exact iff_of_true rfl (.inl (low.trans zero_le_one))
  · rcases le_or_gt upstream 1 with inside | high
    · rw [clamp01_of_mem positive inside]
      exact iff_of_true rfl (.inl inside)
    · rw [clamp01_of_one_le high.le, one_mul, clamp01_of_mem weight.1 weight.2]
      constructor
      · intro same
        by_contra! harm
        have positiveWeight : 0 < e.weight := lt_of_le_of_ne weight.1 harm.2.1.symm
        have below : e.weight < 1 := lt_of_le_of_ne weight.2 harm.2.2
        have grows : e.weight < upstream * e.weight := lt_mul_of_one_lt_left positiveWeight high
        exact absurd same (lt_max_of_lt_right (lt_min below grows)).ne'
      · rintro (inside | zero | one)
        · exact absurd inside high.not_ge
        · rw [zero, mul_zero, clamp01_of_nonpos le_rfl]
        · rw [one, mul_one, clamp01_of_one_le high.le]

end Edges

section Run

variable {ν : Type} [DecidableEq ν]

end Run

end Centroid
