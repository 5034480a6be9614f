import Mathlib.Algebra.Order.Archimedean.Basic
import Mathlib.Algebra.Order.Floor.Ring
import Mathlib.Algebra.Order.Ring.Rat
import Mathlib.Data.Rat.Floor
import Mathlib.Algebra.Order.Group.MinMax
import Mathlib.Tactic.Linarith
import Mathlib.Tactic.Ring
import Mathlib.Tactic.FieldSimp
import Mathlib.Tactic.Positivity

namespace Rounding

section Field

variable {K : Type} [Field K] [LinearOrder K] [FloorRing K]

/-- The integer nearest to `x`; a tie goes to the even neighbour. -/
def halfEven (x : K) : ℤ :=
  if x - ⌊x⌋ < 1 / 2 then ⌊x⌋
  else if 1 / 2 < x - ⌊x⌋ then ⌊x⌋ + 1
  else if ⌊x⌋ % 2 = 0 then ⌊x⌋ else ⌊x⌋ + 1

/-- Rounding to a number of decimal places, ties to even. -/
def roundTo (places : ℕ) (x : K) : K := halfEven (x * 10 ^ places) / 10 ^ places

end Field

theorem halfEven_eq_floor_or (x : ℚ) :
    (halfEven x = ⌊x⌋ ∧ x - ⌊x⌋ ≤ 1 / 2) ∨ (halfEven x = ⌊x⌋ + 1 ∧ 1 / 2 ≤ x - ⌊x⌋) := by
  unfold halfEven
  split_ifs with below above even
  · exact Or.inl ⟨rfl, below.le⟩
  · exact Or.inr ⟨rfl, above.le⟩
  · exact Or.inl ⟨rfl, not_lt.mp above⟩
  · exact Or.inr ⟨rfl, not_lt.mp below⟩

theorem abs_halfEven_sub_le (x : ℚ) : |(halfEven x : ℚ) - x| ≤ 1 / 2 := by
  rcases halfEven_eq_floor_or x with ⟨value, bound⟩ | ⟨value, bound⟩
  · rw [value, abs_le]
    have := Int.floor_le x
    constructor <;> linarith
  · rw [value, abs_le]
    have := Int.lt_floor_add_one x
    push_cast
    constructor <;> linarith

@[simp]
theorem halfEven_intCast (n : ℤ) : halfEven (n : ℚ) = n := by
  simp [halfEven]

theorem halfEven_mono {x y : ℚ} (le : x ≤ y) : halfEven x ≤ halfEven y := by
  rcases lt_or_eq_of_le (Int.floor_mono le) with strict | same
  · have upper : halfEven x ≤ ⌊x⌋ + 1 := by
      rcases halfEven_eq_floor_or x with ⟨value, _⟩ | ⟨value, _⟩ <;> omega
    have lower : ⌊y⌋ ≤ halfEven y := by
      rcases halfEven_eq_floor_or y with ⟨value, _⟩ | ⟨value, _⟩ <;> omega
    omega
  · unfold halfEven
    rw [← same]
    split_ifs <;> first | omega | (exfalso; linarith)

theorem halfEven_le_of_lt {x : ℚ} {n : ℤ} (below : x < n + 1 / 2) : halfEven x ≤ n := by
  have close := abs_halfEven_sub_le x
  rw [abs_le] at close
  have next : (halfEven x : ℚ) < n + 1 := by linarith [close.2]
  exact Int.lt_add_one_iff.mp (by exact_mod_cast next)

theorem halfEven_tie {x : ℚ} (tie : |(halfEven x : ℚ) - x| = 1 / 2) : halfEven x % 2 = 0 := by
  have lower := Int.floor_le x
  have upper := Int.lt_floor_add_one x
  revert tie
  unfold halfEven
  split_ifs with below above even <;> intro tie
  · rw [abs_sub_comm, abs_of_nonneg (by linarith)] at tie
    linarith
  · push_cast at tie
    rw [abs_of_pos (by linarith)] at tie
    linarith
  · exact even
  · omega

/-- The nearest integer, an even one at a tie, is told by that. -/
theorem halfEven_unique {x : ℚ} {n : ℤ} (near : |(n : ℚ) - x| ≤ 1 / 2) (tie : |(n : ℚ) - x| = 1 / 2 → n % 2 = 0) :
    halfEven x = n := by
  by_contra other
  have close := abs_halfEven_sub_le x
  have even : |(halfEven x : ℚ) - x| = 1 / 2 → halfEven x % 2 = 0 := halfEven_tie
  rw [abs_le] at near close
  rcases lt_or_gt_of_ne other with below | above
  · have step : (halfEven x : ℚ) + 1 ≤ n := by exact_mod_cast below
    have atTie : (n : ℚ) - x = 1 / 2 ∧ (halfEven x : ℚ) - x = -(1 / 2) := by constructor <;> linarith
    rw [atTie.1] at tie
    rw [atTie.2] at even
    have next : n = halfEven x + 1 := by
      have apart : (n : ℚ) = halfEven x + 1 := by linarith
      exact_mod_cast apart
    have evenBelow := even (by norm_num)
    have evenAbove := tie (by norm_num)
    omega
  · have step : (n : ℚ) + 1 ≤ halfEven x := by exact_mod_cast above
    have atTie : (n : ℚ) - x = -(1 / 2) ∧ (halfEven x : ℚ) - x = 1 / 2 := by constructor <;> linarith
    rw [atTie.1] at tie
    rw [atTie.2] at even
    have next : halfEven x = n + 1 := by
      have apart : (halfEven x : ℚ) = n + 1 := by linarith
      exact_mod_cast apart
    have evenBelow := tie (by norm_num)
    have evenAbove := even (by norm_num)
    omega

theorem halfEven_neg (x : ℚ) : halfEven (-x) = -halfEven x := by
  have mirrored : ((-halfEven x : ℤ) : ℚ) - -x = -(halfEven x - x) := by
    push_cast
    ring
  apply halfEven_unique
  · rw [mirrored, abs_neg]
    exact abs_halfEven_sub_le x
  · rw [mirrored, abs_neg]
    intro tie
    have even := halfEven_tie tie
    omega

theorem roundTo_mono (places : ℕ) {x y : ℚ} (le : x ≤ y) : roundTo places x ≤ roundTo places y := by
  unfold roundTo
  have scaled : x * 10 ^ places ≤ y * 10 ^ places := by
    apply mul_le_mul_of_nonneg_right le
    positivity
  apply div_le_div_of_nonneg_right _ (by positivity)
  exact_mod_cast halfEven_mono scaled

/-- A decimal fraction with at most `places` digits is not changed. -/
theorem roundTo_of_decimal (places : ℕ) (n : ℤ) :
    roundTo places (n / 10 ^ places : ℚ) = n / 10 ^ places := by
  unfold roundTo
  rw [div_mul_cancel₀ _ (by positivity), halfEven_intCast]

@[simp]
theorem roundTo_intCast (places : ℕ) (n : ℤ) : roundTo places (n : ℚ) = n := by
  have scaled := roundTo_of_decimal places (n * 10 ^ places)
  push_cast at scaled
  rwa [mul_div_cancel_right₀ _ (by positivity)] at scaled

@[simp]
theorem roundTo_zero (places : ℕ) : roundTo places (0 : ℚ) = 0 := by
  simpa using roundTo_intCast places 0

@[simp]
theorem roundTo_one {K : Type} [Field K] [LinearOrder K] [IsStrictOrderedRing K] [FloorRing K] (places : ℕ) :
    roundTo places (1 : K) = 1 := by
  have scale : (10 : K) ^ places ≠ 0 := by positivity
  have whole : (1 : K) * 10 ^ places = ((10 ^ places : ℤ) : K) := by push_cast; ring
  rw [roundTo, whole, halfEven, Int.floor_intCast, sub_self, if_pos one_half_pos]
  push_cast
  exact div_self scale

theorem roundTo_idem (places : ℕ) (x : ℚ) : roundTo places (roundTo places x) = roundTo places x :=
  roundTo_of_decimal places _

theorem roundTo_neg (places : ℕ) (x : ℚ) : roundTo places (-x) = -roundTo places x := by
  rw [roundTo, neg_mul, halfEven_neg, Int.cast_neg, neg_div, roundTo]

theorem abs_roundTo_sub_le (places : ℕ) (x : ℚ) : |roundTo places x - x| ≤ 1 / 2 / 10 ^ places := by
  have near := abs_halfEven_sub_le (x * 10 ^ places)
  have scaled : roundTo places x - x = (halfEven (x * 10 ^ places) - x * 10 ^ places) / 10 ^ places := by
    unfold roundTo
    field_simp
  rw [scaled, abs_div, abs_of_pos (by positivity : (0 : ℚ) < 10 ^ places)]
  exact div_le_div_of_nonneg_right near (by positivity)

/-- Between two decimal fractions in a row there is no rounded number. -/
theorem roundTo_gap {places : ℕ} {x : ℚ} {n : ℤ} (above : (n : ℚ) / 10 ^ places < roundTo places x) :
    ((n + 1 : ℤ) : ℚ) / 10 ^ places ≤ roundTo places x := by
  have unit : (0 : ℚ) < 10 ^ places := by positivity
  rw [roundTo, div_lt_div_iff_of_pos_right unit] at above
  refine div_le_div_of_nonneg_right ?_ unit.le
  exact_mod_cast Int.add_one_le_iff.mpr (by exact_mod_cast above)

/-- What is nearer to a rounded number than half of the last place is rounded to it, or to less. -/
theorem roundTo_le_of_lt {places : ℕ} {x y : ℚ} (near : x < roundTo places y + 1 / 2 / 10 ^ places) :
    roundTo places x ≤ roundTo places y := by
  have unit : (0 : ℚ) < 10 ^ places := by positivity
  have close := abs_roundTo_sub_le places x
  rw [abs_le] at close
  have below : roundTo places x < roundTo places y + 1 / 10 ^ places := by
    have halves : (1 : ℚ) / 10 ^ places = 1 / 2 / 10 ^ places + 1 / 2 / 10 ^ places := by ring
    linarith [close.2]
  rw [roundTo, roundTo] at below ⊢
  rw [← add_div, div_lt_div_iff_of_pos_right unit] at below
  have whole : halfEven (x * 10 ^ places) < halfEven (y * 10 ^ places) + 1 := by exact_mod_cast below
  refine div_le_div_of_nonneg_right ?_ unit.le
  exact_mod_cast Int.lt_add_one_iff.mp whole

theorem roundTo_nonneg (places : ℕ) {x : ℚ} (nonneg : 0 ≤ x) : 0 ≤ roundTo places x := by
  simpa using roundTo_mono places nonneg

theorem abs_roundTo (places : ℕ) (x : ℚ) : |roundTo places x| = roundTo places |x| := by
  rcases le_total 0 x with nonneg | nonpos
  · rw [abs_of_nonneg nonneg, abs_of_nonneg (roundTo_nonneg places nonneg)]
  · have mirrored := roundTo_nonneg places (neg_nonneg.mpr nonpos)
    rw [roundTo_neg] at mirrored
    rw [abs_of_nonpos nonpos, roundTo_neg, abs_of_nonpos (neg_nonneg.mp mirrored)]

theorem roundTo_le_one (places : ℕ) {x : ℚ} (le : x ≤ 1) : roundTo places x ≤ 1 := by
  simpa using roundTo_mono places le

/-- What is at least one unit of the last place does not round to nothing. -/
theorem roundTo_pos (places : ℕ) {x : ℚ} (large : 1 / 10 ^ places ≤ x) : 0 < roundTo places x := by
  have unit := roundTo_of_decimal places 1
  have least := roundTo_mono places large
  push_cast at unit
  rw [unit] at least
  exact lt_of_lt_of_le (by positivity) least

/-- Rounding tells numbers at a distance apart somewhere. -/
theorem exists_roundTo_sub_ne (places : ℕ) {distance : ℚ} (apart : distance ≠ 0) :
    ∃ x, roundTo places x ≠ roundTo places (x - distance) := by
  by_contra same
  push Not at same
  -- Then every multiple of the distance rounds to nothing.
  have multiples : ∀ n : ℕ, roundTo places (n * distance) = 0 := by
    intro n
    induction n with
    | zero => rw [Nat.cast_zero, zero_mul, roundTo_zero]
    | succ n ih =>
      have before : ((n + 1 : ℕ) : ℚ) * distance - distance = n * distance := by
        push_cast
        ring
      rw [same, before, ih]
  have positive : 0 < |distance| := abs_pos.mpr apart
  obtain ⟨n, large⟩ := exists_nat_gt (1 / 2 / 10 ^ places / |distance|)
  have far := (div_lt_iff₀ positive).mp large
  have close := abs_roundTo_sub_le places (n * distance)
  rw [multiples n, zero_sub, abs_neg, abs_mul, Nat.abs_cast] at close
  exact absurd close (not_le.mpr far)

/-- A tie below an even integer is rounded up to it. -/
theorem halfEven_sub_half {n : ℤ} (even : n % 2 = 0) : halfEven (n - 1 / 2 : ℚ) = n := by
  have floor : ⌊(n : ℚ) - 1 / 2⌋ = n - 1 := by
    rw [Int.floor_eq_iff]
    push_cast
    constructor <;> linarith
  have odd : (n - 1) % 2 ≠ 0 := by omega
  unfold halfEven
  rw [floor, if_neg (by push_cast; linarith), if_neg (by push_cast; linarith), if_neg odd]
  omega

/-- Rounding reaches one from half a unit in the last place below it. -/
theorem roundTo_eq_one_iff {places : ℕ} (positive : 0 < places) {x : ℚ} (le : x ≤ 1) :
    roundTo places x = 1 ↔ 1 - 1 / 2 / 10 ^ places ≤ x := by
  have scale : (0 : ℚ) < 10 ^ places := by positivity
  constructor
  · intro one
    have close := abs_roundTo_sub_le places x
    rw [one, abs_le] at close
    linarith [close.2]
  · intro near
    have even : ((10 : ℤ) ^ places) % 2 = 0 := by
      obtain ⟨p, rfl⟩ := Nat.exists_eq_add_of_lt positive
      rw [pow_succ]
      omega
    have atTie : roundTo places (1 - 1 / 2 / 10 ^ places : ℚ) = 1 := by
      have scaled : (1 - 1 / 2 / 10 ^ places : ℚ) * 10 ^ places = ((10 ^ places : ℤ) : ℚ) - 1 / 2 := by
        push_cast
        field_simp
      rw [roundTo, scaled, halfEven_sub_half even]
      push_cast
      exact div_self scale.ne'
    exact le_antisymm (roundTo_le_one places le) (atTie ▸ roundTo_mono places near)

/-- Rounding does not go above one up to half a unit in the last place above it. -/
theorem roundTo_le_one_iff {places : ℕ} (positive : 0 < places) (x : ℚ) :
    roundTo places x ≤ 1 ↔ x ≤ 1 + 1 / 2 / 10 ^ places := by
  constructor
  · intro le
    have close := abs_roundTo_sub_le places x
    rw [abs_le] at close
    linarith [close.1]
  · intro near
    have even : ((10 : ℤ) ^ places) % 2 = 0 := by
      obtain ⟨p, rfl⟩ := Nat.exists_eq_add_of_lt positive
      rw [pow_succ]
      omega
    have scaled : (1 + 1 / 2 / 10 ^ places : ℚ) * 10 ^ places = ((10 ^ places : ℤ) : ℚ) + 1 / 2 := by
      push_cast
      field_simp
    have tie : |((10 ^ places : ℤ) : ℚ) - (1 + 1 / 2 / 10 ^ places) * 10 ^ places| = 1 / 2 := by
      rw [scaled, sub_add_cancel_left, abs_neg, abs_of_pos one_half_pos]
    have atTie : roundTo places (1 + 1 / 2 / 10 ^ places : ℚ) = 1 := by
      rw [roundTo, halfEven_unique tie.le fun _ => even]
      push_cast
      exact div_self (by positivity)
    exact atTie ▸ roundTo_mono places near

/-- Nor below zero up to half a unit below it. -/
theorem roundTo_nonneg_iff (places : ℕ) (x : ℚ) : 0 ≤ roundTo places x ↔ -(1 / 2 / 10 ^ places) ≤ x := by
  constructor
  · intro nonneg
    have close := abs_roundTo_sub_le places x
    rw [abs_le] at close
    linarith [close.2]
  · intro near
    have scaled : (-(1 / 2 / 10 ^ places) : ℚ) * 10 ^ places = ((0 : ℤ) : ℚ) - 1 / 2 := by
      push_cast
      field_simp
      norm_num
    have atTie : roundTo places (-(1 / 2 / 10 ^ places) : ℚ) = 0 := by
      rw [roundTo, scaled, halfEven_sub_half (by decide), Int.cast_zero, zero_div]
    exact atTie ▸ roundTo_mono places near

/-- The nearest point of the interval `[0, 1]`. -/
def clamp01 (x : ℚ) : ℚ := max 0 (min 1 x)

theorem clamp01_mono {x y : ℚ} (le : x ≤ y) : clamp01 x ≤ clamp01 y := max_le_max_left 0 (min_le_min_left 1 le)

theorem clamp01_le_one (x : ℚ) : clamp01 x ≤ 1 := max_le zero_le_one (min_le_left _ _)

theorem clamp01_of_mem {x : ℚ} (lower : 0 ≤ x) (upper : x ≤ 1) : clamp01 x = x := by
  rw [clamp01, min_eq_right upper, max_eq_right lower]

theorem clamp01_of_nonpos {x : ℚ} (low : x ≤ 0) : clamp01 x = 0 := by
  rw [clamp01, max_eq_left ((min_le_right _ _).trans low)]

theorem clamp01_of_one_le {x : ℚ} (high : 1 ≤ x) : clamp01 x = 1 := by
  rw [clamp01, min_eq_left high, max_eq_right zero_le_one]

theorem clamp01_nonneg (x : ℚ) : 0 ≤ clamp01 x := le_max_left _ _

/-- A number rounds as its nearest point of the interval does where it rounds into
the interval. -/
theorem roundTo_eq_roundTo_clamp01_iff (places : ℕ) (x : ℚ) :
    roundTo places x = roundTo places (clamp01 x) ↔ 0 ≤ roundTo places x ∧ roundTo places x ≤ 1 := by
  constructor
  · intro same
    rw [same]
    exact ⟨roundTo_nonneg places (clamp01_nonneg x), roundTo_le_one places (clamp01_le_one x)⟩
  · rintro ⟨lower, upper⟩
    rcases le_total x 0 with low | nonneg
    · rw [clamp01_of_nonpos low, roundTo_zero]
      have rounded := roundTo_mono places low
      rw [roundTo_zero] at rounded
      exact le_antisymm rounded lower
    · rcases le_total x 1 with le | high
      · rw [clamp01_of_mem nonneg le]
      · rw [clamp01_of_one_le high, roundTo_one]
        have rounded := roundTo_mono places high
        rw [roundTo_one] at rounded
        exact le_antisymm upper rounded

end Rounding
