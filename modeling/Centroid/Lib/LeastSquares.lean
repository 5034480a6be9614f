import Mathlib.Algebra.BigOperators.Fin
import Mathlib.Algebra.BigOperators.Intervals
import Mathlib.Algebra.Order.Chebyshev
import Mathlib.Tactic.FieldSimp
import Mathlib.Tactic.Linarith
import Mathlib.Tactic.Positivity
import Mathlib.Tactic.Ring

namespace LeastSquares

variable {ι K : Type} [Field K] (s : Finset ι) (x y : ι → K)

def average : K := (∑ i ∈ s, y i) / s.card

def spread : K := ∑ i ∈ s, (x i - average s x) ^ 2

def coSpread : K := ∑ i ∈ s, (x i - average s x) * (y i - average s y)

/-- The slope of the line through the points that fits best. -/
def fitSlope : K := coSpread s x y / spread s x

/-- How far the line of an intercept and a slope is from the points. -/
def squaredError (a b : K) : K := ∑ i ∈ s, (y i - (a + b * x i)) ^ 2

section Sums

variable {s} [CharZero K]

theorem card_mul_average (some : s.Nonempty) : s.card * average s y = ∑ i ∈ s, y i := by
  have nonzero : (s.card : K) ≠ 0 := Nat.cast_ne_zero.mpr some.card_pos.ne'
  rw [average, mul_div_cancel₀ _ nonzero]

theorem sum_offsets (some : s.Nonempty) : ∑ i ∈ s, (y i - average s y) = 0 := by
  rw [Finset.sum_sub_distrib, Finset.sum_const, nsmul_eq_mul, card_mul_average y some, sub_self]

/-- Against the offsets of the positions a constant counts for nothing. -/
theorem coSpread_eq (some : s.Nonempty) (c : K) :
    coSpread s x y = ∑ i ∈ s, (x i - average s x) * (y i - c) := by
  have shift : ∀ i, (x i - average s x) * (y i - c) =
      (x i - average s x) * (y i - average s y) + (x i - average s x) * (average s y - c) := by
    intro i
    ring
  simp only [shift]
  rw [Finset.sum_add_distrib, ← Finset.sum_mul, sum_offsets x some, zero_mul, add_zero]
  rfl

theorem card_mul_coSpread (some : s.Nonempty) :
    s.card * coSpread s x y = s.card * ∑ i ∈ s, x i * y i - (∑ i ∈ s, x i) * ∑ i ∈ s, y i := by
  have expanded : ∑ i ∈ s, (x i - average s x) * (y i - 0) =
      ∑ i ∈ s, x i * y i - average s x * ∑ i ∈ s, y i := by
    rw [Finset.mul_sum, ← Finset.sum_sub_distrib]
    refine Finset.sum_congr rfl fun i _ => ?_
    ring
  rw [coSpread_eq x y some 0, expanded, mul_sub, ← mul_assoc, card_mul_average x some]

theorem coSpread_affine (some : s.Nonempty) (a b : K) :
    coSpread s x (fun i => a + b * x i) = b * spread s x := by
  rw [coSpread_eq x _ some (a + b * average s x), spread, Finset.mul_sum]
  refine Finset.sum_congr rfl fun i _ => ?_
  ring

/-- A line through the points of a line has its slope. -/
theorem fitSlope_affine (some : s.Nonempty) (spreads : spread s x ≠ 0) (a b : K) :
    fitSlope s x (fun i => a + b * x i) = b := by
  rw [fitSlope, coSpread_affine x some, mul_div_assoc, div_self spreads, mul_one]

/-- The intercept and the slope contribute to the error apart from each other. -/
theorem squaredError_split (some : s.Nonempty) (spreads : spread s x ≠ 0) (a b : K) :
    squaredError s x y a b =
      squaredError s x y (average s y - fitSlope s x y * average s x) (fitSlope s x y) +
        s.card * (average s y - a - b * average s x) ^ 2 + spread s x * (b - fitSlope s x y) ^ 2 := by
  have offsets : ∀ a b, squaredError s x y a b =
      ∑ i ∈ s, (y i - average s y) ^ 2 - 2 * b * coSpread s x y + b ^ 2 * spread s x +
        s.card * (average s y - a - b * average s x) ^ 2 := by
    intro a b
    have cross : ∑ i ∈ s, 2 * (average s y - a - b * average s x) *
        ((y i - average s y) - b * (x i - average s x)) = 0 := by
      rw [← Finset.mul_sum, Finset.sum_sub_distrib, ← Finset.mul_sum, sum_offsets y some, sum_offsets x some]
      ring
    have each : ∀ i, (y i - (a + b * x i)) ^ 2 =
        (y i - average s y) ^ 2 - 2 * b * ((x i - average s x) * (y i - average s y)) +
          b ^ 2 * (x i - average s x) ^ 2 + (average s y - a - b * average s x) ^ 2 +
            2 * (average s y - a - b * average s x) * ((y i - average s y) - b * (x i - average s x)) := by
      intro i
      ring
    rw [squaredError, Finset.sum_congr rfl fun i _ => each i, Finset.sum_add_distrib, cross, add_zero,
      Finset.sum_add_distrib, Finset.sum_add_distrib, Finset.sum_sub_distrib, ← Finset.mul_sum, ← Finset.mul_sum,
      Finset.sum_const, nsmul_eq_mul]
    rfl
  have normal : fitSlope s x y * spread s x = coSpread s x y := div_mul_cancel₀ _ spreads
  rw [offsets a b, offsets _ (fitSlope s x y), ← normal]
  ring

end Sums

section Order

variable {s} [LinearOrder K] [IsStrictOrderedRing K]

theorem spread_nonneg : 0 ≤ spread s x := Finset.sum_nonneg fun _ _ => sq_nonneg _

/-- Two positions apart from each other are not both at the average. -/
theorem spread_pos {i j : ι} (memberI : i ∈ s) (memberJ : j ∈ s) (apart : x i ≠ x j) : 0 < spread s x := by
  refine Finset.sum_pos' (fun _ _ => sq_nonneg _) ?_
  by_cases here : x i = average s x
  · refine ⟨j, memberJ, sq_pos_of_ne_zero (sub_ne_zero.mpr ?_)⟩
    intro there
    exact apart (here.trans there.symm)
  · exact ⟨i, memberI, sq_pos_of_ne_zero (sub_ne_zero.mpr here)⟩

/-- No line fits better. -/
theorem squaredError_fitSlope_le (some : s.Nonempty) (spreads : 0 < spread s x) (a b : K) :
    squaredError s x y (average s y - fitSlope s x y * average s x) (fitSlope s x y) ≤ squaredError s x y a b := by
  have count : (0 : K) ≤ s.card := Nat.cast_nonneg _
  have level := mul_nonneg count (sq_nonneg (average s y - a - b * average s x))
  have tilt := mul_nonneg spreads.le (sq_nonneg (b - fitSlope s x y))
  rw [squaredError_split x y some spreads.ne' a b]
  linarith

/-- And no line of another slope fits as well. -/
theorem fitSlope_unique (some : s.Nonempty) (spreads : 0 < spread s x) {a b : K}
    (best : ∀ a' b', squaredError s x y a b ≤ squaredError s x y a' b') : b = fitSlope s x y := by
  have count : (0 : K) ≤ s.card := Nat.cast_nonneg _
  have level := mul_nonneg count (sq_nonneg (average s y - a - b * average s x))
  have tilt := mul_nonneg spreads.le (sq_nonneg (b - fitSlope s x y))
  have bound := best (average s y - fitSlope s x y * average s x) (fitSlope s x y)
  rw [squaredError_split x y some spreads.ne' a b] at bound
  have flat : spread s x * (b - fitSlope s x y) ^ 2 = 0 := by linarith
  have same := (mul_eq_zero.mp flat).resolve_left spreads.ne'
  exact sub_eq_zero.mp (pow_eq_zero_iff two_ne_zero |>.mp same)

/-- Values that rise with the positions. -/
theorem fitSlope_nonneg (some : s.Nonempty) (rises : MonovaryOn y x s) : 0 ≤ fitSlope s x y := by
  have count : (0 : K) < s.card := Nat.cast_pos.mpr some.card_pos
  have sums := rises.symm.sum_mul_sum_le_card_mul_sum
  rw [← sub_nonneg, ← card_mul_coSpread x y some] at sums
  exact div_nonneg (nonneg_of_mul_nonneg_right sums count) (spread_nonneg x)

theorem fitSlope_nonpos (some : s.Nonempty) (falls : AntivaryOn y x s) : fitSlope s x y ≤ 0 := by
  have count : (0 : K) < s.card := Nat.cast_pos.mpr some.card_pos
  have sums := falls.symm.card_mul_sum_le_sum_mul_sum
  rw [← sub_nonpos, ← card_mul_coSpread x y some] at sums
  exact div_nonpos_of_nonpos_of_nonneg (nonpos_of_mul_nonpos_right sums count) (spread_nonneg x)

/-- Values that stay within a band tilt a line by half its width at most. -/
theorem abs_coSpread_le (some : s.Nonempty) {lo hi : K} (band : ∀ i ∈ s, lo ≤ y i ∧ y i ≤ hi) :
    |coSpread s x y| ≤ (hi - lo) / 2 * ∑ i ∈ s, |x i - average s x| := by
  rw [coSpread_eq x y some ((lo + hi) / 2), Finset.mul_sum]
  refine (Finset.abs_sum_le_sum_abs _ _).trans (Finset.sum_le_sum fun i member => ?_)
  obtain ⟨above, below⟩ := band i member
  have near : |y i - (lo + hi) / 2| ≤ (hi - lo) / 2 := abs_le.mpr ⟨by linarith, by linarith⟩
  rw [abs_mul, mul_comm]
  exact mul_le_mul_of_nonneg_right near (abs_nonneg _)

/-- Where no position but the average itself is nearer to it than half a band,
the slope stays within one. -/
theorem abs_fitSlope_le_one (some : s.Nonempty) {lo hi : K} (band : ∀ i ∈ s, lo ≤ y i ∧ y i ≤ hi)
    (steps : ∀ i ∈ s, x i = average s x ∨ (hi - lo) / 2 ≤ |x i - average s x|) : |fitSlope s x y| ≤ 1 := by
  have each : ∀ i ∈ s, (hi - lo) / 2 * |x i - average s x| ≤ (x i - average s x) ^ 2 := by
    intro i member
    rcases steps i member with centre | far
    · rw [centre, sub_self, abs_zero, mul_zero]
      exact sq_nonneg _
    · rw [← sq_abs, sq]
      exact mul_le_mul_of_nonneg_right far (abs_nonneg _)
  have sums := Finset.sum_le_sum each
  rw [← Finset.mul_sum] at sums
  rw [fitSlope, abs_div, abs_of_nonneg (spread_nonneg x)]
  exact div_le_one_of_le₀ ((abs_coSpread_le x y some band).trans sums) (spread_nonneg x)

end Order

section Positions

variable {α : Type}

/-- A sum over the members of a list with their positions. -/
theorem sum_zipIdx {M : Type} [AddCommMonoid M] (values : List α) (f : α × ℕ → M) :
    (values.zipIdx.map f).sum = ∑ i : Fin values.length, f (values[(i : ℕ)], i) := by
  have listed : values.zipIdx = List.ofFn fun i : Fin values.length => (values[(i : ℕ)], (i : ℕ)) := by
    refine List.ext_getElem (by simp) fun i _ _ => ?_
    simp
  rw [listed, List.map_ofFn, List.sum_ofFn]
  rfl

variable [LinearOrder K] [IsStrictOrderedRing K] {m : ℕ}

theorem average_positions (some : 0 < m) : average Finset.univ (fun i : Fin m => (i : K)) = (m - 1) / 2 := by
  have count : (m : K) ≠ 0 := Nat.cast_ne_zero.mpr some.ne'
  have twice : (∑ i ∈ Finset.range m, (i : K)) * 2 = m * (m - 1) := by
    have sums := congrArg (Nat.cast (R := K)) (Finset.sum_range_id_mul_two m)
    push_cast [Nat.cast_sub (Nat.succ_le_of_lt some)] at sums
    exact sums
  rw [average, Fin.sum_univ_eq_sum_range (fun i => (i : K)), Finset.card_univ, Fintype.card_fin, div_eq_div_iff count
    two_ne_zero, twice, mul_comm]

theorem spread_positions_pos (two : 2 ≤ m) : 0 < spread Finset.univ (fun i : Fin m => (i : K)) := by
  refine spread_pos _ (Finset.mem_univ ⟨0, by omega⟩) (Finset.mem_univ ⟨1, by omega⟩) ?_
  simp

/-- The mean of the positions is one of them, or half way between two. -/
theorem position_far (i : Fin m) : (i : K) = (m - 1) / 2 ∨ 1 / 2 ≤ |(i : K) - (m - 1) / 2| := by
  have halves : (i : K) - (m - 1) / 2 = ((2 * i + 1 - m : ℤ) : K) / 2 := by
    push_cast
    ring
  rcases eq_or_ne (2 * i + 1 - m : ℤ) 0 with centre | off
  · left
    rw [centre, Int.cast_zero, zero_div] at halves
    exact sub_eq_zero.mp halves
  · right
    have whole : (1 : K) ≤ |((2 * i + 1 - m : ℤ) : K)| := by exact_mod_cast Int.one_le_abs off
    rw [halves, abs_div, abs_two]
    exact div_le_div_of_nonneg_right whole zero_le_two

end Positions

end LeastSquares
