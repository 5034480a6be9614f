import Centroid.Lib.FloatOps

open Rounding

namespace Binary64

/-- The sum of a mean of several values that are at most a bound and of one more of them, where the
product and the sum are rounded. -/
theorem nearest_sum_le {m e g : ℚ} {n : ℕ} (several : 2 ≤ n) (mNonneg : 0 ≤ m) (mLe : m ≤ g + 1 / 2 ^ 24)
    (mMost : m ≤ 10 ^ 9) (eNonneg : 0 ≤ e) (eLe : e ≤ g + 1 / 2 / 10 ^ 6) (eMost : e ≤ 10 ^ 9) :
    nearest (nearest (m * n) + e) ≤ (n + 1) * (g + 4 / 10 ^ 7) := by
  have count : (2 : ℚ) ≤ n := by exact_mod_cast several
  have product : m * n ≤ (g + 1 / 2 ^ 24) * n := mul_le_mul_of_nonneg_right mLe (by linarith)
  have most : m * n ≤ 10 ^ 9 * n := mul_le_mul_of_nonneg_right mMost (by linarith)
  have productNonneg : 0 ≤ m * n := mul_nonneg mNonneg (by linarith)
  have scaled := nearest_le_mul productNonneg
  have scaledNonneg := nearest_nonneg productNonneg
  have summed := nearest_le_mul (add_nonneg scaledNonneg eNonneg)
  have small := tiny_le
  have room := mul_le_mul_of_nonneg_left count (by norm_num : (0 : ℚ) ≤ 1 / 10 ^ 7)
  linarith

/-- The same where there is one value so far. -/
theorem nearest_sum_le_of_one {m e g : ℚ} (kept : nearest m = m) (mLe : m ≤ g + 1 / 2 ^ 24) (mNonneg : 0 ≤ m)
    (mMost : m ≤ 10 ^ 9) (eNonneg : 0 ≤ e) (eLe : e ≤ g + 1 / 2 / 10 ^ 6) (eMost : e ≤ 10 ^ 9) :
    nearest (nearest (m * 1) + e) ≤ 2 * (g + 4 / 10 ^ 7) := by
  rw [mul_one, kept]
  have summed := abs_nearest_sub_le_of_lt (x := m + e) (p := -22) (by decide) (by
    rw [abs_of_nonneg (add_nonneg mNonneg eNonneg)]
    norm_num
    linarith)
  rw [abs_le] at summed
  have close := summed.2
  norm_num at close
  linarith

theorem nearest_roundTo_le {bound : ℚ} (most : bound ≤ 10 ^ 9) : nearest (roundTo 6 bound) ≤ 10 ^ 9 := by
  have whole := nearest_mono (roundTo_mono 6 most)
  rwa [show (10 : ℚ) ^ 9 = ((10 ^ 9 : ℤ) : ℚ) by norm_num, roundTo_intCast, nearest_intCast (by decide)] at whole

/-- A running mean whose operations are rounded, and which is rounded to six places, does not rise above
a bound rounded so, as long as that is at most `10 ^ 9`. -/
theorem roundTo_mean_le {m e bound : ℚ} {n : ℕ} (positive : 1 ≤ n) (kept : nearest m = m) (mNonneg : 0 ≤ m)
    (mLe : m ≤ nearest (roundTo 6 bound)) (eNonneg : 0 ≤ e) (eLe : e ≤ bound) (most : bound ≤ 10 ^ 9) :
    roundTo 6 (nearest (nearest (nearest (m * n) + e) / (n + 1))) ≤ roundTo 6 bound := by
  have close := abs_roundTo_sub_le 6 bound
  rw [abs_le] at close
  have roundedNonneg : 0 ≤ roundTo 6 bound := roundTo_nonneg 6 (eNonneg.trans eLe)
  have roundedMost : roundTo 6 bound ≤ 10 ^ 9 := by
    have whole := roundTo_mono 6 most
    rwa [show (10 : ℚ) ^ 9 = ((10 ^ 9 : ℤ) : ℚ) by norm_num, roundTo_intCast] at whole
  have largest := nearest_roundTo_le most
  have above := nearest_le_add roundedNonneg (roundedMost.trans_lt (by norm_num))
  generalize rounded : roundTo 6 bound = g at *
  have sum : nearest (nearest (m * n) + e) ≤ (n + 1) * (g + 4 / 10 ^ 7) := by
    rcases positive.eq_or_lt with rfl | several
    · have single := nearest_sum_le_of_one (g := g) (e := e) kept (by linarith) mNonneg (by linarith) eNonneg
        (by linarith [close.1]) (by linarith)
      norm_num at single ⊢
      linarith
    · exact nearest_sum_le several mNonneg (by linarith) (by linarith) eNonneg (by linarith [close.1]) (by linarith)
  have size : (0 : ℚ) < n + 1 := by positivity
  have quotient : nearest (nearest (m * n) + e) / (n + 1) ≤ g + 4 / 10 ^ 7 := by
    rw [div_le_iff₀ size]
    linarith
  have quotientNonneg : 0 ≤ nearest (nearest (m * n) + e) / (n + 1) :=
    div_nonneg (nearest_nonneg (add_nonneg (nearest_nonneg (mul_nonneg mNonneg (Nat.cast_nonneg n))) eNonneg)) size.le
  have mean := nearest_le_add quotientNonneg (by norm_num; linarith)
  rw [← rounded]
  refine roundTo_le_of_lt ?_
  rw [rounded]
  norm_num at mean ⊢
  linarith

/-- What is rounded to six places is in the unit interval as a float where it is as a number. -/
theorem nearest_roundTo_in_unit_iff (x : ℚ) :
    0 ≤ nearest (roundTo 6 x) ∧ nearest (roundTo 6 x) ≤ 1 ↔ 0 ≤ roundTo 6 x ∧ roundTo 6 x ≤ 1 := by
  have small := tiny_le
  constructor
  · rintro ⟨lower, upper⟩
    constructor
    · by_contra negative
      have mirrored : ((0 : ℤ) : ℚ) / 10 ^ 6 < roundTo 6 (-x) := by
        rw [roundTo_neg, Int.cast_zero, zero_div]
        linarith
      have gap := roundTo_gap mirrored
      rw [roundTo_neg] at gap
      norm_num at gap small
      have low := mul_le_nearest (x := -roundTo 6 x) (by linarith)
      rw [nearest_neg] at low
      norm_num at low
      linarith
    · by_contra high
      have above : ((10 ^ 6 : ℤ) : ℚ) / 10 ^ 6 < roundTo 6 x := by
        norm_num
        linarith
      have gap := roundTo_gap above
      norm_num at gap small
      have low := mul_le_nearest (x := roundTo 6 x) (by linarith)
      norm_num at low
      linarith
  · rintro ⟨lower, upper⟩
    exact ⟨nearest_nonneg lower, nearest_one ▸ nearest_mono upper⟩

theorem lastPlace_of_mem {x : ℚ} (lower : 1 ≤ x) (upper : x < 2) : lastPlace x = -52 := by
  obtain ⟨low, high⟩ := exponent_spec (by linarith : x ≠ 0)
  rw [abs_of_nonneg (by linarith)] at low high
  have most := (zpow_lt_zpow_iff_right₀ (one_lt_two (α := ℚ))).mp (low.trans_lt (upper.trans_eq (zpow_one 2).symm))
  have least := (zpow_lt_zpow_iff_right₀ (one_lt_two (α := ℚ))).mp ((zpow_zero (2 : ℚ)).trans_le lower |>.trans_lt high)
  rw [lastPlace]
  omega

/-- The number from which on rounding goes above one by half a millionth. -/
def aboveOne : ℚ := 1 + 4503599627 / 2 ^ 53

theorem nearest_le_one_add_iff (x : ℚ) : nearest x ≤ 1 + 1 / 2 / 10 ^ 6 ↔ x < aboveOne := by
  constructor
  · intro le
    by_contra reached
    have tie : nearest aboveOne = 1 + 2251799814 / 2 ^ 52 := by decide +kernel
    have above := tie ▸ nearest_mono (not_lt.mp reached)
    norm_num at above le
    linarith
  · intro below
    rcases lt_or_ge x 1 with small | large
    · have one := nearest_one ▸ nearest_mono small.le
      linarith
    · have bound : x < 2 := below.trans (by norm_num [aboveOne])
      rw [nearest, lastPlace_of_mem large bound]
      have scaled : halfEven (x / 2 ^ (-52 : ℤ)) ≤ 2 ^ 52 + 2251799813 := by
        refine halfEven_le_of_lt ?_
        rw [aboveOne] at below
        norm_num at below ⊢
        linarith
      have cast : (halfEven (x / 2 ^ (-52 : ℤ)) : ℚ) ≤ 2 ^ 52 + 2251799813 := by exact_mod_cast scaled
      have pos := place_pos (-52)
      refine (mul_le_mul_of_nonneg_right cast pos.le).trans ?_
      norm_num

/-- What is missing to one does not lose its sign in rounding, up to half a millionth. -/
theorem le_nearest_one_sub_iff {x : ℚ} (kept : nearest x = x) :
    -(1 / 2 / 10 ^ 6) ≤ nearest (1 - x) ↔ x ≤ 1 + 1 / 2 / 10 ^ 6 := by
  rcases lt_or_ge x (1 / 2) with small | large
  · have nonneg := nearest_nonneg (x := 1 - x) (by linarith)
    constructor
    · intro
      linarith
    · intro
      linarith
  · rcases le_or_gt x 2 with within | far
    · rw [nearest_one_sub kept large within]
      constructor
      · intro
        linarith
      · intro
        linarith
    · have low := nearest_mono (show 1 - x ≤ -1 by linarith)
      rw [nearest_neg, nearest_one] at low
      constructor
      · intro
        linarith
      · intro
        linarith

end Binary64

namespace PyFloat

theorem add_finite (p q : ℚ) : PyFloat.finite p + .finite q = ofRat (p + q) := by
  rfl

theorem sub_finite (p q : ℚ) : PyFloat.finite p - .finite q = ofRat (p - q) := by
  rw [sub_eq_add_neg]
  rfl

theorem mul_finite (p q : ℚ) : PyFloat.finite p * .finite q = ofRat (p * q) := by
  rfl

theorem div_finite (p : ℚ) {q : ℚ} (nonzero : q ≠ 0) : PyFloat.finite p / .finite q = ofRat (p / q) := by
  change ((PyFloat.div? (.finite p) (.finite q)).map rounded).getD .nan = ofRat (p / q)
  rw [div?, if_neg nonzero]
  rfl

theorem natCast_eq (n : ℕ) : (n : PyFloat) = .finite (Binary64.nearest n) := rfl

theorem roundTo_finite (places : ℕ) (q : ℚ) : FloatLike.roundTo places (PyFloat.finite q) = ofRat (roundTo places q) := by
  rfl

theorem ofRat_of_lt {q : ℚ} (small : |Binary64.nearest q| < 2 ^ 1024) : ofRat q = .finite (Binary64.nearest q) :=
  if_pos small

/-- Nothing overflows far below the greatest float. -/
theorem ofRat_of_le {q : ℚ} {k : ℕ} (le : |q| ≤ 2 ^ k) (small : k < 1024) : ofRat q = .finite (Binary64.nearest q) :=
  ofRat_of_lt ((Binary64.abs_nearest_le le).trans_lt (pow_lt_pow_right₀ one_lt_two small))

/-- The cast of a positive number is positive. -/
theorem natCast_pos {n : ℕ} (positive : 0 < n) : 0 < Binary64.nearest (n : ℚ) := by
  have one : Binary64.nearest 1 ≤ Binary64.nearest (n : ℚ) := Binary64.nearest_mono (by exact_mod_cast positive)
  rw [Binary64.nearest_one] at one
  exact zero_lt_one.trans_le one

/-- A result of rounding is a float, or none at all. -/
theorem nearest_of_rounded {x : PyFloat} {q : ℚ} (value : x.rounded = .finite q) : Binary64.nearest q = q := by
  cases x with
  | finite p =>
    rw [rounded, ofRat] at value
    split at value
    · cases value
      exact Binary64.nearest_idem p
    · cases value
  | nan => cases value
  | infinity negative => cases value

theorem nearest_of_div {x y : PyFloat} {q : ℚ} (value : x / y = .finite q) : Binary64.nearest q = q := by
  change ((x.div? y).map rounded).getD .nan = .finite q at value
  cases quotient : x.div? y with
  | none =>
    rw [quotient] at value
    cases value
  | some z =>
    rw [quotient] at value
    exact nearest_of_rounded value

/-- The magnitude of the first is at most the second, and neither is nan. -/
inductive Within : PyFloat → PyFloat → Prop
  | finite {p q : ℚ} (le : |p| ≤ q) : Within (.finite p) (.finite q)
  | overflow (p : ℚ) : Within (.finite p) (.infinity false)
  | infinite (negative : Bool) : Within (.infinity negative) (.infinity false)

namespace Within

theorem bounds {x y : PyFloat} (within : x.Within y) : 0 ≤ y ∧ FloatLike.abs x ≤ y := by
  cases within with
  | finite le => exact ⟨decide_eq_true ((abs_nonneg _).trans le), decide_eq_true le⟩
  | overflow p => exact ⟨rfl, rfl⟩
  | infinite negative => exact ⟨rfl, rfl⟩

theorem ofRat_infinity (p : ℚ) : (PyFloat.ofRat p).Within (.infinity false) := by
  rw [PyFloat.ofRat]
  split
  · exact .overflow _
  · exact .infinite _

theorem ofRat {p q : ℚ} (le : |p| ≤ q) : (ofRat p).Within (ofRat q) := by
  have nonneg := (abs_nonneg p).trans le
  have rounded : |Binary64.nearest p| ≤ Binary64.nearest q := by
    rw [← Binary64.nearest_abs]
    exact Binary64.nearest_mono le
  by_cases small : |Binary64.nearest q| < 2 ^ 1024
  · rw [ofRat_of_lt small, ofRat_of_lt (rounded.trans_lt ((le_abs_self _).trans_lt small))]
    exact .finite rounded
  · have large : PyFloat.ofRat q = .infinity false := by
      rw [PyFloat.ofRat, if_neg small, decide_eq_false (not_lt.mpr nonneg)]
    rw [large]
    exact ofRat_infinity p

theorem rounded {x y : PyFloat} (within : x.Within y) : x.rounded.Within y.rounded := by
  cases within with
  | finite le => exact .ofRat le
  | overflow p => exact ofRat_infinity p
  | infinite negative => exact .infinite negative

theorem add {x y : PyFloat} (within : x.Within y) (e : ℚ) : (x + .finite e).Within (y + .finite |e|) := by
  refine rounded ?_
  cases within with
  | finite le => exact .finite ((abs_add_le _ e).trans (add_le_add_left le |e|))
  | overflow p => exact .overflow _
  | infinite negative => exact .infinite negative

theorem mul_natCast {x y : PyFloat} (within : x.Within y) {n : ℕ} (positive : 0 < n) : (x * n).Within (y * n) := by
  have factor := natCast_pos positive
  refine rounded ?_
  rw [natCast_eq]
  generalize Binary64.nearest (n : ℚ) = f at factor
  have scaled (negative : Bool) : (PyFloat.infinity negative).mul (.finite f) = .infinity negative := by
    have sign : decide (f < 0) = false := decide_eq_false (not_lt.mpr factor.le)
    cases negative <;> simp [mul, factor.ne', isNegative, sign]
  cases within with
  | finite le =>
    refine .finite ?_
    rw [abs_mul, abs_of_pos factor]
    exact mul_le_mul_of_nonneg_right le factor.le
  | overflow p =>
    rw [scaled]
    exact .overflow _
  | infinite negative =>
    rw [scaled, scaled]
    exact .infinite negative

theorem div_natCast {x y : PyFloat} (within : x.Within y) {n : ℕ} (positive : 0 < n) : (x / n).Within (y / n) := by
  have divisor := natCast_pos positive
  rw [natCast_eq]
  generalize Binary64.nearest (n : ℚ) = f at divisor
  have divided (negative : Bool) : PyFloat.infinity negative / .finite f = .infinity negative := by
    change (((PyFloat.infinity negative).div? (.finite f)).map PyFloat.rounded).getD .nan = .infinity negative
    have sign : decide (f < 0) = false := decide_eq_false (not_lt.mpr divisor.le)
    cases negative <;> simp [div?, divisor.ne', PyFloat.rounded, sign]
  cases within with
  | finite le =>
    rw [div_finite _ divisor.ne', div_finite _ divisor.ne']
    refine ofRat ?_
    rw [abs_div, abs_of_pos divisor]
    exact div_le_div_of_nonneg_right le divisor.le
  | overflow p =>
    rw [div_finite p divisor.ne', divided]
    exact ofRat_infinity _
  | infinite negative =>
    rw [divided, divided]
    exact .infinite negative

theorem roundTo {x y : PyFloat} (within : x.Within y) (places : ℕ) :
    (FloatLike.roundTo places x).Within (FloatLike.roundTo places y) := by
  refine rounded ?_
  cases within with
  | finite le =>
    refine .finite ?_
    rw [abs_roundTo]
    exact roundTo_mono places le
  | overflow p => exact .overflow _
  | infinite negative => exact .infinite negative

end Within

theorem not_in_unit_of_overflow {q : ℚ} (large : ¬ |Binary64.nearest q| < 2 ^ 1024) : ¬ (0 ≤ ofRat q ∧ ofRat q ≤ 1) := by
  rw [ofRat, if_neg large]
  rintro ⟨lower, upper⟩
  cases sign : decide (q < 0) with
  | true =>
    rw [sign] at lower
    cases lower
  | false =>
    rw [sign] at upper
    cases upper

theorem roundTo_in_unit_iff (q : ℚ) :
    0 ≤ ofRat (roundTo 6 q) ∧ ofRat (roundTo 6 q) ≤ 1 ↔ 0 ≤ roundTo 6 q ∧ roundTo 6 q ≤ 1 := by
  rw [← Binary64.nearest_roundTo_in_unit_iff]
  by_cases small : |Binary64.nearest (roundTo 6 q)| < 2 ^ 1024
  · rw [ofRat_of_lt small]
    exact and_congr decide_eq_true_iff decide_eq_true_iff
  · refine iff_of_false (not_in_unit_of_overflow small) ?_
    rintro ⟨lower, upper⟩
    refine small ?_
    rw [abs_of_nonneg lower]
    exact upper.trans_lt (one_lt_pow₀ one_lt_two (by decide))

theorem clip_finite (q : ℚ) : max 0 (min 1 (PyFloat.finite q)) = .finite (clamp01 q) := by
  change pyMax (.finite 0) (pyMin (.finite 1) (.finite q)) = _
  by_cases small : q < 1
  · have least : pyMin (.finite 1) (.finite q) = .finite q := if_pos (decide_eq_true small)
    rw [least, clamp01, min_eq_right small.le]
    by_cases positive : 0 < q
    · rw [max_eq_right positive.le]
      exact if_pos (decide_eq_true positive)
    · rw [max_eq_left (not_lt.mp positive)]
      exact if_neg (by simpa [lt] using positive)
  · have least : pyMin (.finite 1) (.finite q) = .finite 1 := if_neg (by simpa [lt] using small)
    rw [least, clamp01, min_eq_left (not_lt.mp small)]
    rfl

theorem round_clip_in_unit (x : PyFloat) :
    0 ≤ FloatLike.roundTo 6 (max 0 (min 1 x)) ∧ FloatLike.roundTo 6 (max 0 (min 1 x)) ≤ 1 := by
  obtain ⟨q, clipped, lower, upper⟩ := inUnit_clip x
  have same : max 0 (min 1 x) = .finite q := clipped
  rw [same, roundTo_finite]
  exact (roundTo_in_unit_iff q).mpr ⟨roundTo_nonneg 6 lower, roundTo_le_one 6 upper⟩

/-- A float rounds as it does clipped to the unit interval where it rounds into the interval. -/
theorem round_eq_round_clip_iff (x : PyFloat) :
    FloatLike.roundTo 6 x = FloatLike.roundTo 6 (max 0 (min 1 x)) ↔
      0 ≤ FloatLike.roundTo 6 x ∧ FloatLike.roundTo 6 x ≤ 1 := by
  constructor
  · intro same
    rw [same]
    exact round_clip_in_unit x
  · rintro ⟨lower, upper⟩
    cases x with
    | finite q =>
      have within := (roundTo_in_unit_iff q).mp ⟨lower, upper⟩
      rw [clip_finite, roundTo_finite, roundTo_finite, (roundTo_eq_roundTo_clamp01_iff 6 q).mpr within]
    | nan => cases lower
    | infinity negative =>
      cases negative with
      | true => cases lower
      | false => cases upper

end PyFloat
