import Mathlib.Algebra.Order.Field.Basic
import Mathlib.Algebra.Order.Group.Unbundled.Int
import Mathlib.Logic.Function.Iterate
import Mathlib.Order.Interval.Set.UnorderedInterval
import Mathlib.Algebra.Order.Group.Pointwise.Interval
import Mathlib.Tactic.FieldSimp
import Mathlib.Tactic.Linarith
import Mathlib.Tactic.Positivity
import Mathlib.Tactic.Ring

namespace Smoothing

variable {K : Type} [Field K] [LinearOrder K] [IsStrictOrderedRing K]

/-- A rounding to the nearest multiple of a unit. -/
structure RoundsToGrid (round : K → K) (unit : K) : Prop where
  positive : 0 < unit
  mono : Monotone round
  onGrid : ∀ x, ∃ n : ℤ, round x = n * unit
  fixes : ∀ n : ℤ, round (n * unit) = n * unit
  close : ∀ x, |round x - x| ≤ unit / 2

/-- One step of exponential smoothing, rounded. -/
def smooth (round : K → K) (alpha current last : K) : K := round (alpha * current + (1 - alpha) * last)

variable {round : K → K} {unit alpha current last : K}

theorem convex_mem_uIcc (nonneg : 0 ≤ alpha) (le_one : alpha ≤ 1) (current last : K) :
    alpha * current + (1 - alpha) * last ∈ Set.uIcc last current := by
  rw [Set.mem_uIcc]
  rcases le_total last current with le | le
  · left
    constructor <;> nlinarith
  · right
    constructor <;> nlinarith

omit [IsStrictOrderedRing K] in
theorem RoundsToGrid.mem_uIcc (rounds : RoundsToGrid round unit) {x y z : K} (between : x ∈ Set.uIcc y z) :
    round x ∈ Set.uIcc (round y) (round z) := by
  rw [Set.mem_uIcc] at between ⊢
  exact between.imp (fun inside => ⟨rounds.mono inside.1, rounds.mono inside.2⟩)
    fun inside => ⟨rounds.mono inside.1, rounds.mono inside.2⟩

/-- A step goes from where it is towards the rounded input, and not beyond. -/
theorem smooth_mem_uIcc (rounds : RoundsToGrid round unit) (nonneg : 0 ≤ alpha) (le_one : alpha ≤ 1)
    (fixed : round last = last) : smooth round alpha current last ∈ Set.uIcc last (round current) := by
  have between := rounds.mem_uIcc (convex_mem_uIcc nonneg le_one current last)
  rwa [fixed] at between

/-- What lies between is nearer, on the same side. -/
theorem nearer_of_mem_uIcc {x : K} (between : x ∈ Set.uIcc last current) :
    |x - current| ≤ |last - current| ∧ 0 ≤ (last - current) * (x - current) := by
  rcases Set.mem_uIcc.mp between with ⟨lower, upper⟩ | ⟨lower, upper⟩
  · rw [abs_of_nonpos (by linarith), abs_of_nonpos (by linarith)]
    exact ⟨by linarith, mul_nonneg_of_nonpos_of_nonpos (by linarith) (by linarith)⟩
  · rw [abs_of_nonneg (by linarith), abs_of_nonneg (by linarith)]
    exact ⟨by linarith, mul_nonneg (by linarith) (by linarith)⟩

/-- Distances of grid points differ by a unit at least. -/
theorem grid_gap (positive : 0 < unit) {m n : ℤ} (less : |(m : K) * unit| < |(n : K) * unit|) :
    |(m : K) * unit| ≤ |(n : K) * unit| - unit := by
  rw [abs_mul, abs_mul, abs_of_pos positive] at less ⊢
  have strict : |(m : K)| < |(n : K)| := lt_of_mul_lt_mul_right less positive.le
  have gap : |(m : K)| + 1 ≤ |(n : K)| := by exact_mod_cast strict
  nlinarith

/-- Away from the input by more than the stall distance, a step gains a unit. -/
theorem smooth_gains (rounds : RoundsToGrid round unit) (positive : 0 < alpha) (le_one : alpha ≤ 1) {c p : ℤ}
    (far : unit / (2 * alpha) < |(p : K) * unit - c * unit|) :
    |smooth round alpha (c * unit) (p * unit) - c * unit| ≤ |(p : K) * unit - c * unit| - unit := by
  obtain ⟨q, onGrid⟩ := rounds.onGrid (alpha * (c * unit) + (1 - alpha) * (p * unit))
  have rounded := rounds.close (alpha * (c * unit) + (1 - alpha) * (p * unit))
  have split : smooth round alpha (c * unit) (p * unit) - c * unit =
      (round (alpha * (c * unit) + (1 - alpha) * (p * unit)) - (alpha * (c * unit) + (1 - alpha) * (p * unit))) +
        (1 - alpha) * (p * unit - c * unit) := by
    rw [smooth]
    ring
  have drawn : unit / 2 < alpha * |(p : K) * unit - c * unit| := by
    rw [div_lt_iff₀ (by positivity)] at far
    linarith
  have less : |smooth round alpha (c * unit) (p * unit) - c * unit| < |(p : K) * unit - c * unit| := by
    rw [split]
    refine (abs_add_le _ _).trans_lt ?_
    rw [abs_mul, abs_of_nonneg (by linarith : 0 ≤ 1 - alpha)]
    linarith
  rw [smooth, onGrid] at less ⊢
  rw [← sub_mul, ← sub_mul] at less ⊢
  rw [← Int.cast_sub, ← Int.cast_sub] at less ⊢
  exact grid_gap rounds.positive less

/-- The smoothing of a constant input comes within the stall distance after as
many steps as there are units to it, and stays there. -/
theorem iterate_smooth_close (rounds : RoundsToGrid round unit) (positive : 0 < alpha) (le_one : alpha ≤ 1) {c p : ℤ}
    {k n : ℕ} (start : |(p : K) * unit - c * unit| ≤ unit / (2 * alpha) + k * unit) (enough : k ≤ n) :
    |(smooth round alpha (c * unit))^[n] (p * unit) - c * unit| ≤ unit / (2 * alpha) := by
  induction n generalizing p k with
  | zero =>
    have none : k = 0 := by omega
    simpa [none] using start
  | succ n ih =>
    obtain ⟨q, onGrid⟩ := rounds.onGrid (alpha * (c * unit) + (1 - alpha) * (p * unit))
    have step : smooth round alpha (c * unit) (p * unit) = q * unit := onGrid
    rw [Function.iterate_succ_apply, step]
    by_cases far : unit / (2 * alpha) < |(p : K) * unit - c * unit|
    · have gained := smooth_gains rounds positive le_one far
      rw [step] at gained
      have later : |(q : K) * unit - c * unit| ≤ unit / (2 * alpha) + (k - 1 : ℕ) * unit := by
        by_cases first : k = 0
        · rw [first, Nat.cast_zero, zero_mul, add_zero] at start
          exact absurd start (not_le.mpr far)
        · rw [Nat.cast_pred (Nat.pos_of_ne_zero first)]
          linarith
      exact ih later (by omega)
    · have between : smooth round alpha (c * unit) (p * unit) ∈ Set.uIcc (p * unit : K) (round (c * unit)) :=
        smooth_mem_uIcc rounds positive.le le_one (rounds.fixes p)
      rw [step, rounds.fixes] at between
      have near := (nearer_of_mem_uIcc between).1.trans (not_lt.mp far)
      have start : |(q : K) * unit - c * unit| ≤ unit / (2 * alpha) + (0 : ℕ) * unit := by simpa using near
      exact ih start (Nat.zero_le n)

end Smoothing
