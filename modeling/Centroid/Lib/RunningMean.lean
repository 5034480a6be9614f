import Centroid.Lib.Statistics
import Mathlib.Algebra.Order.AbsoluteValue.Basic
import Mathlib.Algebra.Order.Field.Basic
import Mathlib.Data.List.Induction
import Mathlib.Tactic.FieldSimp
import Mathlib.Tactic.Linarith
import Mathlib.Tactic.Positivity
import Mathlib.Tactic.Ring

namespace RunningMean

open Statistics

variable {K : Type} [Field K] [LinearOrder K] [IsStrictOrderedRing K]

/-- The mean of `n` values and one more. -/
def next (mean : K) (n : ℕ) (x : K) : K := (mean * n + x) / (n + 1)

theorem next_mul_succ (mean : K) (n : ℕ) (x : K) : next mean n x * (n + 1) = mean * n + x := by
  have positive : (0 : K) < n + 1 := by positivity
  exact div_mul_cancel₀ _ positive.ne'

variable (round : K → K)

/-- A mean and the number of its values, with one value more. -/
def push (state : K × ℕ) (x : K) : K × ℕ := (round (next state.1 state.2 x), state.2 + 1)

/-- The running mean of a list of values that is rounded at every step. -/
def stored (values : List K) : K := (values.foldl (push round) (0, 0)).1

omit [LinearOrder K] [IsStrictOrderedRing K] in
theorem foldl_push (values : List K) : values.foldl (push round) (0, 0) = (stored round values, values.length) := by
  have count : ∀ values : List K, (values.foldl (push round) (0, 0)).2 = values.length := by
    intro values
    induction values using List.reverseRecOn with
    | nil => rfl
    | append_singleton values x ih =>
      rw [List.foldl_append, List.length_append, ← ih]
      rfl
  exact Prod.ext rfl (count values)

omit [LinearOrder K] [IsStrictOrderedRing K] in
theorem stored_append_singleton (values : List K) (x : K) :
    stored round (values ++ [x]) = round (next (stored round values) values.length x) := by
  rw [stored, List.foldl_append, foldl_push]
  rfl

variable {round}

/-- Rounding errors add up: each is weighted by the number of values there
were. -/
theorem abs_stored_mul_sub_sum_le {unit : K} (close : ∀ x, |round x - x| ≤ unit) (values : List K) :
    |stored round values * values.length - values.sum| ≤ unit * (values.length * (values.length + 1) / 2) := by
  induction values using List.reverseRecOn with
  | nil => simp [stored]
  | append_singleton values x ih =>
    let unrounded := next (stored round values) values.length x
    have split : stored round (values ++ [x]) * (values ++ [x]).length - (values ++ [x]).sum =
        (round unrounded - unrounded) * (values.length + 1) + (stored round values * values.length - values.sum) := by
      have weighted : unrounded * (values.length + 1) = stored round values * values.length + x := next_mul_succ _ _ _
      rw [stored_append_singleton, List.length_append, List.sum_append, List.sum_singleton, List.length_singleton]
      push_cast
      linarith
    have step : |(round unrounded - unrounded) * (values.length + 1)| ≤ unit * (values.length + 1) := by
      rw [abs_mul, abs_of_pos (by positivity : (0 : K) < values.length + 1)]
      exact mul_le_mul_of_nonneg_right (close unrounded) (by positivity)
    rw [split]
    refine (abs_add_le _ _).trans ((add_le_add step ih).trans (le_of_eq ?_))
    rw [List.length_append, List.length_singleton]
    push_cast
    ring

/-- A rounded running mean of `n` values is within `(n + 1) / 2` rounding
errors of their mean. -/
theorem abs_stored_sub_mean_le {unit : K} (close : ∀ x, |round x - x| ≤ unit) {values : List K}
    (someValue : values ≠ []) : |stored round values - mean values| ≤ unit * ((values.length + 1) / 2) := by
  have positive : (0 : K) < values.length := by exact_mod_cast List.length_pos_iff.mpr someValue
  have scaled : stored round values - mean values =
      (stored round values * values.length - values.sum) / values.length := by
    rw [mean]
    field_simp
  rw [scaled, abs_div, abs_of_pos positive, div_le_iff₀ positive]
  refine (abs_stored_mul_sub_sum_le close values).trans (le_of_eq ?_)
  ring

/-- The first multiples of a number. -/
def ramp (unit : K) (n : ℕ) : List K := (List.range n).map fun k => ((k + 1 : ℕ) : K) * unit

omit [LinearOrder K] [IsStrictOrderedRing K] in
theorem ramp_succ (unit : K) (n : ℕ) : ramp unit (n + 1) = ramp unit n ++ [((n + 1 : ℕ) : K) * unit] := by
  rw [ramp, List.range_succ, List.map_append, List.map_singleton, ramp]

omit [LinearOrder K] [IsStrictOrderedRing K] in
theorem length_ramp (unit : K) (n : ℕ) : (ramp unit n).length = n := by
  rw [ramp, List.length_map, List.length_range]

theorem mean_ramp (unit : K) {n : ℕ} (positive : 0 < n) : mean (ramp unit n) = unit * ((n + 1) / 2) := by
  have total : (ramp unit n).sum = unit * (n * (n + 1) / 2) := by
    clear positive
    induction n with
    | zero => simp [ramp]
    | succ n ih =>
      rw [ramp_succ, List.sum_append, List.sum_singleton, ih]
      push_cast
      ring
  have nonzero : (n : K) ≠ 0 := by exact_mod_cast positive.ne'
  rw [mean, total, length_ramp]
  field_simp

/-- A number that rounding drops keeps the rounded running mean of its multiples
at nothing. -/
theorem stored_ramp {unit : K} (dropped : round unit = 0) (n : ℕ) : stored round (ramp unit n) = 0 := by
  induction n with
  | zero => rfl
  | succ n ih =>
    have positive : ((n : K) + 1) ≠ 0 := by positivity
    have same : next (0 : K) n (((n + 1 : ℕ) : K) * unit) = unit := by
      rw [next, zero_mul, zero_add, Nat.cast_succ, mul_div_cancel_left₀ _ positive]
    rw [ramp_succ, stored_append_singleton, ih, length_ramp, same, dropped]

end RunningMean
