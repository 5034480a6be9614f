import Mathlib.Algebra.BigOperators.Group.List.Basic
import Mathlib.Algebra.Order.BigOperators.Ring.List
import Mathlib.Analysis.Real.Sqrt
import Mathlib.Data.Rat.Cast.Order
import Mathlib.Tactic.FieldSimp
import Mathlib.Tactic.Linarith
import Mathlib.Tactic.Positivity
import Mathlib.Tactic.Ring

namespace Statistics

section Field

variable {K : Type} [Field K]

/-- The mean of a list of values, nothing for none. -/
def mean (values : List K) : K := values.sum / values.length

/-- The sample variance, by one value less than there are. -/
def variance (values : List K) : K := (values.map fun x => (x - mean values) ^ 2).sum / (values.length - 1)

theorem mean_affine [CharZero K] (a b : K) {values : List K} (someValue : values ≠ []) :
    mean (values.map fun x => a * x + b) = a * mean values + b := by
  have total : (values.map fun x => a * x + b).sum = a * values.sum + values.length * b := by
    rw [List.sum_map_add, List.sum_map_mul_left, List.map_id', List.map_const', List.sum_replicate, nsmul_eq_mul]
  have nonzero : (values.length : K) ≠ 0 := by
    exact_mod_cast List.length_pos_iff.mpr someValue |>.ne'
  rw [mean, mean, total, List.length_map]
  field_simp

/-- A shift leaves the variance alone, and a scale is squared in it. -/
theorem variance_affine [CharZero K] (a b : K) {values : List K} (someValue : values ≠ []) :
    variance (values.map fun x => a * x + b) = a ^ 2 * variance values := by
  have each : ((fun y => (y - (a * mean values + b)) ^ 2) ∘ fun x => a * x + b) =
      fun x => a ^ 2 * (x - mean values) ^ 2 := by
    funext x
    simp only [Function.comp_apply]
    ring
  rw [variance, variance, mean_affine a b someValue, List.map_map, each, List.sum_map_mul_left, List.length_map,
    mul_div_assoc]

end Field

section Lowered

variable {ι : Type}

/-- A value comes down, not below zero, or a missing one is put at zero. -/
def Lowers : Option ℚ → Option ℚ → Prop
  | none, after => after = none ∨ after = some 0
  | some x, after => ∃ y, after = some y ∧ 0 ≤ y ∧ y ≤ x

theorem Lowers.trans {before between after : Option ℚ} (first : Lowers before between) (second : Lowers between after) :
    Lowers before after := by
  cases before with
  | none =>
    rcases first with rfl | rfl
    · exact second
    · obtain ⟨y, rfl, nonneg, le⟩ := second
      exact Or.inr (congrArg some (le_antisymm le nonneg))
  | some x =>
    obtain ⟨y, rfl, -, le⟩ := first
    obtain ⟨z, rfl, nonneg, le'⟩ := second
    exact ⟨z, rfl, nonneg, le'.trans le⟩

end Lowered

/-- The sample standard deviation. -/
noncomputable def stdev (values : List ℚ) : ℝ := √((variance values : ℚ) : ℝ)

theorem stdev_eq_zero_iff (values : List ℚ) : stdev values = 0 ↔ variance values ≤ 0 := by
  rw [stdev, Real.sqrt_eq_zero']
  exact_mod_cast Iff.rfl

/-- A score is beyond a threshold where the squares are. -/
theorem lt_abs_div_stdev_iff {values : List ℚ} (spread : 0 < variance values) {threshold : ℚ} (nonneg : 0 ≤ threshold)
    (distance : ℚ) :
    (threshold : ℝ) < |(distance : ℝ) / stdev values| ↔ threshold ^ 2 * variance values < distance ^ 2 := by
  have positive : (0 : ℝ) < ((variance values : ℚ) : ℝ) := by exact_mod_cast spread
  have root : 0 < stdev values := Real.sqrt_pos.mpr positive
  have square : (threshold * stdev values) ^ 2 = ((threshold ^ 2 * variance values : ℚ) : ℝ) := by
    rw [mul_pow, stdev, Real.sq_sqrt positive.le]
    push_cast
    rfl
  have scaled : (0 : ℝ) ≤ threshold * stdev values := mul_nonneg (by exact_mod_cast nonneg) root.le
  rw [abs_div, abs_of_pos root, lt_div_iff₀ root, ← abs_of_nonneg scaled, ← sq_lt_sq, square]
  exact_mod_cast Iff.rfl

end Statistics
