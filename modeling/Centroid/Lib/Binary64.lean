import Centroid.Lib.Rounding
import Mathlib.Algebra.Order.Field.Power

-- Numbers of 53 binary digits, the last of which is worth at least `2 ^ (-1074)`. Nothing here
-- bounds them from above.
namespace Binary64

open Rounding

/-- The place of the first binary digit of a number. -/
def exponent (x : ℚ) : ℤ :=
  let e := (x.num.natAbs.log2 : ℤ) - x.den.log2
  if (2 : ℚ) ^ e ≤ |x| then e else e - 1

/-- The place of the last binary digit that is kept. -/
def lastPlace (x : ℚ) : ℤ := max (exponent x - 52) (-1074)

/-- Rounding to the nearest number with these digits, ties to even. -/
def nearest (x : ℚ) : ℚ := halfEven (x / 2 ^ lastPlace x) * 2 ^ lastPlace x

theorem abs_eq_natAbs_div (x : ℚ) : |x| = (x.num.natAbs : ℚ) / x.den := by
  conv_lhs => rw [← Rat.num_div_den x]
  rw [abs_div, Nat.abs_cast, Nat.cast_natAbs, Int.cast_abs]

theorem exponent_spec {x : ℚ} (nonzero : x ≠ 0) : (2 : ℚ) ^ exponent x ≤ |x| ∧ |x| < 2 ^ (exponent x + 1) := by
  have numNe : x.num.natAbs ≠ 0 := Int.natAbs_ne_zero.mpr (Rat.num_ne_zero.mpr nonzero)
  have numLow : (2 : ℚ) ^ x.num.natAbs.log2 ≤ x.num.natAbs := by exact_mod_cast Nat.log2_self_le numNe
  have numHigh : (x.num.natAbs : ℚ) < 2 ^ (x.num.natAbs.log2 + 1) := by exact_mod_cast Nat.lt_log2_self
  have denLow : (2 : ℚ) ^ x.den.log2 ≤ x.den := by exact_mod_cast Nat.log2_self_le x.den_nz
  have denHigh : (x.den : ℚ) < 2 ^ (x.den.log2 + 1) := by exact_mod_cast Nat.lt_log2_self
  have denPos : (0 : ℚ) < x.den := by exact_mod_cast x.den_pos
  have two : (2 : ℚ) ≠ 0 := two_ne_zero
  have below : |x| < 2 ^ ((x.num.natAbs.log2 : ℤ) - x.den.log2 + 1) := by
    rw [abs_eq_natAbs_div, div_lt_iff₀ denPos]
    refine numHigh.trans_le ?_
    have split : (2 : ℚ) ^ (x.num.natAbs.log2 + 1) = 2 ^ ((x.num.natAbs.log2 : ℤ) - x.den.log2 + 1) * 2 ^ x.den.log2 := by
      rw [← zpow_natCast, ← zpow_natCast, ← zpow_add₀ two]
      congr 1
      push_cast
      ring
    rw [split]
    exact mul_le_mul_of_nonneg_left denLow (by positivity)
  have above : (2 : ℚ) ^ ((x.num.natAbs.log2 : ℤ) - x.den.log2 - 1) ≤ |x| := by
    rw [abs_eq_natAbs_div, le_div_iff₀ denPos]
    refine le_trans ?_ numLow
    have split : (2 : ℚ) ^ x.num.natAbs.log2 = 2 ^ ((x.num.natAbs.log2 : ℤ) - x.den.log2 - 1) * 2 ^ (x.den.log2 + 1) := by
      rw [← zpow_natCast, ← zpow_natCast, ← zpow_add₀ two]
      congr 1
      push_cast
      ring
    rw [split]
    exact mul_le_mul_of_nonneg_left denHigh.le (by positivity)
  unfold exponent
  dsimp only
  split
  · rename_i reached
    exact ⟨reached, below⟩
  · rename_i missed
    rw [sub_add_cancel]
    exact ⟨above, not_le.mp missed⟩

theorem exponent_neg (x : ℚ) : exponent (-x) = exponent x := by
  rw [exponent, exponent, Rat.num_neg_eq_neg_num, Rat.den_neg_eq_den, Int.natAbs_neg, abs_neg]

theorem nearest_neg (x : ℚ) : nearest (-x) = -nearest x := by
  rw [nearest, nearest, lastPlace, lastPlace, exponent_neg, neg_div, halfEven_neg, Int.cast_neg, neg_mul]

theorem nearest_zero : nearest 0 = 0 := by
  rw [nearest, zero_div, ← Int.cast_zero, halfEven_intCast, Int.cast_zero, zero_mul]

theorem place_pos (e : ℤ) : (0 : ℚ) < 2 ^ e := zpow_pos two_pos e

/-- A multiple of the last place that is not below a number is not below it rounded. -/
theorem nearest_le_of_le {x : ℚ} {k : ℤ} (le : x ≤ k * 2 ^ lastPlace x) : nearest x ≤ k * 2 ^ lastPlace x := by
  have pos := place_pos (lastPlace x)
  have scaled : halfEven (x / 2 ^ lastPlace x) ≤ k := by
    rw [← halfEven_intCast k]
    exact halfEven_mono ((div_le_iff₀ pos).mpr le)
  exact mul_le_mul_of_nonneg_right (by exact_mod_cast scaled) pos.le

/-- Nor is one that is not above it above it rounded. -/
theorem le_nearest_of_le {x : ℚ} {k : ℤ} (le : k * 2 ^ lastPlace x ≤ x) : k * 2 ^ lastPlace x ≤ nearest x := by
  have pos := place_pos (lastPlace x)
  have scaled : k ≤ halfEven (x / 2 ^ lastPlace x) := by
    rw [← halfEven_intCast k]
    exact halfEven_mono ((le_div_iff₀ pos).mpr le)
  exact mul_le_mul_of_nonneg_right (by exact_mod_cast scaled) pos.le

/-- A power of two at a place is a multiple of what any place below it is worth. -/
theorem exists_multiple {p e : ℤ} (below : p ≤ e) : ∃ k : ℤ, (k : ℚ) * 2 ^ p = 2 ^ e := by
  obtain ⟨n, rfl⟩ := Int.le.dest below
  refine ⟨2 ^ n, ?_⟩
  push_cast
  rw [← zpow_natCast, ← zpow_add₀ two_ne_zero, add_comm]

theorem nearest_nonneg {x : ℚ} (nonneg : 0 ≤ x) : 0 ≤ nearest x := by
  have bound := le_nearest_of_le (x := x) (k := 0) (by simpa using nonneg)
  simpa using bound

theorem exponent_mono {x y : ℚ} (positive : 0 < x) (le : x ≤ y) : exponent x ≤ exponent y := by
  have low := (exponent_spec positive.ne').1
  have high := (exponent_spec (positive.trans_le le).ne').2
  rw [abs_of_pos positive] at low
  rw [abs_of_pos (positive.trans_le le)] at high
  have strict : (2 : ℚ) ^ exponent x < 2 ^ (exponent y + 1) := (low.trans le).trans_lt high
  have := (zpow_lt_zpow_iff_right₀ (one_lt_two (α := ℚ))).mp strict
  omega

/-- Of two numbers that keep different places the greater one reaches a power of two that
the smaller one does not. -/
theorem nearest_mono_of_pos {x y : ℚ} (positive : 0 < x) (le : x ≤ y) : nearest x ≤ nearest y := by
  rcases (max_le_max_right (-1074) (sub_le_sub_right (exponent_mono positive le) 52)).lt_or_eq with strict | same
  · have places : lastPlace x < lastPlace y := strict
    have normal : lastPlace y = exponent y - 52 := by
      rw [lastPlace, lastPlace] at places
      rw [lastPlace]
      omega
    have far : exponent x < exponent y := by
      rw [lastPlace, lastPlace] at places
      omega
    have xHigh := (exponent_spec positive.ne').2
    have yLow := (exponent_spec (positive.trans_le le).ne').1
    rw [abs_of_pos positive] at xHigh
    rw [abs_of_pos (positive.trans_le le)] at yLow
    have between : x ≤ 2 ^ exponent y :=
      xHigh.le.trans (zpow_le_zpow_right₀ one_le_two (by omega))
    obtain ⟨k, below⟩ := exists_multiple (p := lastPlace x) (e := exponent y) (by omega)
    obtain ⟨l, above⟩ := exists_multiple (p := lastPlace y) (e := exponent y) (by omega)
    calc nearest x ≤ k * 2 ^ lastPlace x := nearest_le_of_le (below ▸ between)
      _ = l * 2 ^ lastPlace y := below.trans above.symm
      _ ≤ nearest y := le_nearest_of_le (above ▸ yLow)
  · have places : lastPlace x = lastPlace y := same
    have pos := place_pos (lastPlace y)
    rw [nearest, nearest, places]
    refine mul_le_mul_of_nonneg_right ?_ pos.le
    exact_mod_cast halfEven_mono (div_le_div_of_nonneg_right le pos.le)

theorem nearest_mono {x y : ℚ} (le : x ≤ y) : nearest x ≤ nearest y := by
  rcases lt_trichotomy x 0 with negative | zero | positive
  · rcases lt_trichotomy y 0 with yNegative | yZero | yPositive
    · have mirrored := nearest_mono_of_pos (neg_pos.mpr yNegative) (neg_le_neg le)
      rw [nearest_neg, nearest_neg] at mirrored
      exact neg_le_neg_iff.mp mirrored
    · have mirrored := nearest_nonneg (neg_nonneg.mpr negative.le)
      rw [nearest_neg] at mirrored
      rw [yZero, nearest_zero]
      linarith
    · have mirrored := nearest_nonneg (neg_nonneg.mpr negative.le)
      rw [nearest_neg] at mirrored
      exact (by linarith : nearest x ≤ 0).trans (nearest_nonneg yPositive.le)
  · rw [zero, nearest_zero]
    exact nearest_nonneg (zero ▸ le)
  · exact nearest_mono_of_pos positive le

/-- Rounding goes half of the last place at most. -/
theorem abs_nearest_sub_le (x : ℚ) : |nearest x - x| ≤ 2 ^ lastPlace x / 2 := by
  have pos := place_pos (lastPlace x)
  have scaled : nearest x - x = (halfEven (x / 2 ^ lastPlace x) - x / 2 ^ lastPlace x) * 2 ^ lastPlace x := by
    rw [nearest, sub_mul, div_mul_cancel₀ _ pos.ne']
  rw [scaled, abs_mul, abs_of_pos pos]
  have close := mul_le_mul_of_nonneg_right (abs_halfEven_sub_le (x / 2 ^ lastPlace x)) pos.le
  linarith

/-- Below 53 digits from a place on, rounding goes half of that place at most. -/
theorem abs_nearest_sub_le_of_lt {x : ℚ} {p : ℤ} (least : -1074 ≤ p) (bounded : |x| < 2 ^ (p + 53)) :
    |nearest x - x| ≤ 2 ^ p / 2 := by
  rcases eq_or_ne x 0 with rfl | nonzero
  · rw [nearest_zero, sub_self, abs_zero]
    exact (half_pos (place_pos p)).le
  · have strict := (zpow_lt_zpow_iff_right₀ (one_lt_two (α := ℚ))).mp ((exponent_spec nonzero).1.trans_lt bounded)
    have kept : lastPlace x ≤ p := max_le (by omega) least
    have smaller : (2 : ℚ) ^ lastPlace x ≤ 2 ^ p := zpow_le_zpow_right₀ one_le_two kept
    exact (abs_nearest_sub_le x).trans (div_le_div_of_nonneg_right smaller two_pos.le)

theorem nearest_le_add {x : ℚ} (nonneg : 0 ≤ x) (small : x < 2 ^ 30) : nearest x ≤ x + 1 / 2 ^ 24 := by
  have close := abs_nearest_sub_le_of_lt (x := x) (p := -23) (by decide) (by rw [abs_of_nonneg nonneg]; norm_num; linarith)
  rw [abs_le] at close
  have upper := close.2
  norm_num at upper ⊢
  linarith

/-- Half of the least positive number. -/
def tiny : ℚ := 2 ^ (-1075 : ℤ)

theorem tiny_pos : 0 < tiny := place_pos _

theorem tiny_le : tiny ≤ 1 / 10 ^ 20 := by
  have smaller : tiny ≤ 2 ^ (-70 : ℤ) := zpow_le_zpow_right₀ one_le_two (by decide)
  refine smaller.trans ?_
  norm_num

/-- That is half of a unit in the 53rd digit, or of the least number there is. -/
theorem abs_nearest_sub_le_mul (x : ℚ) : |nearest x - x| ≤ |x| / 2 ^ 53 + tiny := by
  rcases eq_or_ne x 0 with rfl | nonzero
  · rw [nearest_zero, sub_self, abs_zero, zero_div, zero_add]
    exact tiny_pos.le
  · refine (abs_nearest_sub_le x).trans ?_
    have low := (exponent_spec nonzero).1
    rcases le_total (exponent x - 52) (-1074) with small | large
    · have half : (2 : ℚ) ^ (-1074 : ℤ) / 2 = tiny := by
        rw [div_eq_mul_inv, ← zpow_sub_one₀ two_ne_zero]
        rfl
      rw [lastPlace, max_eq_right small, half]
      exact le_add_of_nonneg_left (by positivity)
    · have digit : (2 : ℚ) ^ (exponent x - 52) / 2 = 2 ^ exponent x / 2 ^ 53 := by
        rw [zpow_sub₀ two_ne_zero, div_div]
        norm_num
      rw [lastPlace, max_eq_left large, digit]
      exact (div_le_div_of_nonneg_right low (by positivity)).trans (le_add_of_nonneg_right tiny_pos.le)

theorem nearest_le_mul {x : ℚ} (nonneg : 0 ≤ x) : nearest x ≤ x * (1 + 1 / 2 ^ 53) + tiny := by
  have close := abs_nearest_sub_le_mul x
  rw [abs_of_nonneg nonneg, abs_le] at close
  linarith [close.2]

theorem mul_le_nearest {x : ℚ} (nonneg : 0 ≤ x) : x * (1 - 1 / 2 ^ 53) - tiny ≤ nearest x := by
  have close := abs_nearest_sub_le_mul x
  rw [abs_of_nonneg nonneg, abs_le] at close
  linarith [close.1]

/-- A whole number of units of a place that is kept is not changed. -/
theorem nearest_of_multiple {x : ℚ} {k p : ℤ} (kept : lastPlace x ≤ p) (whole : x = k * 2 ^ p) : nearest x = x := by
  have pos := place_pos (lastPlace x)
  obtain ⟨l, multiple⟩ := exists_multiple kept
  have scaled : x / 2 ^ lastPlace x = ((k * l : ℤ) : ℚ) := by
    rw [div_eq_iff pos.ne']
    push_cast
    rw [mul_assoc, multiple]
    exact whole
  rw [nearest, scaled, halfEven_intCast, ← scaled, div_mul_cancel₀ _ pos.ne']

/-- Fewer than `2 ^ 53` units of a place that is there are such a number. -/
theorem lastPlace_le {k p : ℤ} (nonzero : k ≠ 0) (least : -1074 ≤ p) (few : |k| < 2 ^ 53) :
    lastPlace (k * 2 ^ p) ≤ p := by
  refine max_le ?_ least
  have pos := place_pos p
  have ne : (k : ℚ) * 2 ^ p ≠ 0 := mul_ne_zero (by exact_mod_cast nonzero) pos.ne'
  have low := (exponent_spec ne).1
  have bounded : |(k : ℚ) * 2 ^ p| < 2 ^ (p + 53) := by
    rw [abs_mul, abs_of_pos pos, zpow_add₀ two_ne_zero, mul_comm]
    refine mul_lt_mul_of_pos_left ?_ pos
    exact_mod_cast few
  have strict := (zpow_lt_zpow_iff_right₀ (one_lt_two (α := ℚ))).mp (low.trans_lt bounded)
  omega

theorem nearest_of_digits {k p : ℤ} (least : -1074 ≤ p) (digits : |k| ≤ 2 ^ 53) : nearest (k * 2 ^ p) = k * 2 ^ p := by
  rcases eq_or_ne k 0 with rfl | nonzero
  · rw [Int.cast_zero, zero_mul, nearest_zero]
  rcases digits.lt_or_eq with few | full
  · exact nearest_of_multiple (lastPlace_le nonzero least few) rfl
  · -- `2 ^ 53` units are `2 ^ 52` units of the next place
    obtain ⟨half, whole, few⟩ : ∃ half : ℤ, k = half * 2 ∧ |half| < 2 ^ 53 := by
      rcases abs_choice k with same | mirrored
      · exact ⟨2 ^ 52, by omega, by decide⟩
      · exact ⟨-2 ^ 52, by omega, by decide⟩
    have next : (k : ℚ) * 2 ^ p = half * 2 ^ (p + 1) := by
      rw [whole, zpow_add_one₀ two_ne_zero]
      push_cast
      ring
    rw [next]
    exact nearest_of_multiple (lastPlace_le (by rintro rfl; exact nonzero (by simpa using whole)) (by omega) few) rfl

/-- Rounding gives at most 53 digits. -/
theorem exists_digits (x : ℚ) : ∃ k p : ℤ, -1074 ≤ p ∧ |k| ≤ 2 ^ 53 ∧ nearest x = k * 2 ^ p := by
  refine ⟨halfEven (x / 2 ^ lastPlace x), lastPlace x, le_max_right _ _, ?_, rfl⟩
  have pos := place_pos (lastPlace x)
  have bounded : |x / 2 ^ lastPlace x| ≤ 2 ^ 53 := by
    rcases eq_or_ne x 0 with rfl | nonzero
    · rw [zero_div, abs_zero]
      positivity
    · rw [abs_div, abs_of_pos pos, div_le_iff₀ pos]
      refine (exponent_spec nonzero).2.le.trans ?_
      have split : (2 : ℚ) ^ 53 * 2 ^ lastPlace x = 2 ^ (lastPlace x + 53) := by
        rw [zpow_add₀ two_ne_zero, mul_comm]
        norm_cast
      rw [split]
      exact zpow_le_zpow_right₀ one_le_two (by have := le_max_left (exponent x - 52) (-1074); rw [lastPlace]; omega)
  rw [abs_le] at bounded ⊢
  have limit : ((2 ^ 53 : ℤ) : ℚ) = 2 ^ 53 := by norm_num
  constructor
  · rw [← halfEven_intCast (-2 ^ 53)]
    refine halfEven_mono ?_
    push_cast
    exact bounded.1
  · rw [← halfEven_intCast (2 ^ 53)]
    refine halfEven_mono ?_
    push_cast
    exact bounded.2

theorem nearest_idem (x : ℚ) : nearest (nearest x) = nearest x := by
  obtain ⟨k, p, least, digits, same⟩ := exists_digits x
  rw [same, nearest_of_digits least digits]

theorem nearest_intCast {n : ℤ} (digits : |n| ≤ 2 ^ 53) : nearest n = n := by
  have whole := nearest_of_digits (k := n) (p := 0) (by decide) digits
  rwa [zpow_zero, mul_one] at whole

@[simp]
theorem nearest_one : nearest 1 = 1 := by exact_mod_cast nearest_intCast (n := 1) (by decide)

theorem nearest_abs (x : ℚ) : nearest |x| = |nearest x| := by
  rcases le_total 0 x with nonneg | nonpos
  · rw [abs_of_nonneg nonneg, abs_of_nonneg (nearest_nonneg nonneg)]
  · have mirrored := nearest_nonneg (neg_nonneg.mpr nonpos)
    rw [nearest_neg] at mirrored
    rw [abs_of_nonpos nonpos, nearest_neg, abs_of_nonpos (by linarith)]

theorem nearest_two_pow (k : ℕ) : nearest (2 ^ k) = 2 ^ k := by
  have whole := nearest_of_digits (k := 1) (p := k) (by omega) (by decide)
  rwa [Int.cast_one, one_mul, zpow_natCast] at whole

/-- Rounding does not leave a range up to a power of two. -/
theorem abs_nearest_le {x : ℚ} {k : ℕ} (le : |x| ≤ 2 ^ k) : |nearest x| ≤ 2 ^ k := by
  rw [← nearest_abs, ← nearest_two_pow k]
  exact nearest_mono le

/-- Near one, what is missing to one is a number of these digits again. -/
theorem nearest_one_sub {x : ℚ} (kept : nearest x = x) (lower : 1 / 2 ≤ x) (upper : x ≤ 2) : nearest (1 - x) = 1 - x := by
  have reached : (2 : ℚ) ^ (-1 : ℤ) ≤ |x| := by
    rw [abs_of_nonneg (by linarith)]
    norm_num
    linarith
  have high := (exponent_spec (by linarith : x ≠ 0)).2
  have far := (zpow_lt_zpow_iff_right₀ (one_lt_two (α := ℚ))).mp (reached.trans_lt high)
  have place : -53 ≤ lastPlace x := le_trans (by omega) (le_max_left _ _)
  obtain ⟨unit, multiple⟩ := exists_multiple place
  obtain ⟨k, digits⟩ : ∃ k : ℤ, x = k * 2 ^ (-53 : ℤ) := by
    refine ⟨halfEven (x / 2 ^ lastPlace x) * unit, ?_⟩
    push_cast
    rw [mul_assoc, multiple, ← nearest, kept]
  have difference : 1 - x = ((2 ^ 53 - k : ℤ) : ℚ) * 2 ^ (-53 : ℤ) := by
    rw [digits]
    push_cast
    norm_num
    ring
  rw [difference]
  refine nearest_of_digits (by decide) ?_
  have scaled : (k : ℚ) = x * 2 ^ 53 := by
    rw [digits]
    norm_num
    ring
  have bounds : (0 : ℚ) ≤ k ∧ (k : ℚ) ≤ 2 ^ 54 := by
    rw [scaled]
    constructor <;> linarith
  have low : 0 ≤ k := by exact_mod_cast bounds.1
  have most : k ≤ 2 ^ 54 := by exact_mod_cast bounds.2
  rw [abs_le]
  constructor <;> linarith

end Binary64
