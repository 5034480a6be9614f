import Centroid.Lib.FloatBounds
import Centroid.Lib.WeightedMean

open Rounding

namespace Rounding

/-- Numbers so close that no tie lies between them round alike. -/
theorem roundTo_eq_of_near {places : ℕ} {x y margin : ℚ} (near : |y - x| ≤ margin)
    (far : ∀ k : ℤ, margin < |x - (k + 1 / 2) / 10 ^ places|) : roundTo places y = roundTo places x := by
  have unit : (0 : ℚ) < 10 ^ places := by positivity
  have close := abs_halfEven_sub_le (x * 10 ^ places)
  generalize whole : halfEven (x * 10 ^ places) = k at close
  rw [abs_le] at near close
  have below : x * 10 ^ places + margin * 10 ^ places < k + 1 / 2 := by
    have apart := far k
    have side : x ≤ (k + 1 / 2) / 10 ^ places := by
      rw [le_div_iff₀ unit]
      linarith [close.1]
    rw [abs_of_nonpos (by linarith), neg_sub, lt_sub_iff_add_lt, lt_div_iff₀ unit] at apart
    linarith
  have above : k - 1 / 2 < x * 10 ^ places - margin * 10 ^ places := by
    have apart := far (k - 1)
    have side : ((k - 1 : ℤ) + 1 / 2 : ℚ) / 10 ^ places ≤ x := by
      rw [div_le_iff₀ unit]
      push_cast
      linarith [close.2]
    rw [abs_of_nonneg (by linarith), lt_sub_comm, div_lt_iff₀ unit] at apart
    push_cast at apart
    linarith
  have lower := mul_le_mul_of_nonneg_right near.1 unit.le
  have upper := mul_le_mul_of_nonneg_right near.2 unit.le
  have inside : |(k : ℚ) - y * 10 ^ places| < 1 / 2 := by
    rw [abs_lt]
    constructor <;> linarith
  rw [roundTo, roundTo, whole, halfEven_unique inside.le fun tie => absurd tie inside.ne]

theorem abs_clamp01_sub_le {x y : ℚ} (lower : 0 ≤ y) (upper : y ≤ 1) : |clamp01 x - y| ≤ |x - y| := by
  rcases le_total x 0 with low | positive
  · rw [clamp01_of_nonpos low, abs_of_nonpos (by linarith), abs_of_nonpos (by linarith)]
    linarith
  · rcases le_total x 1 with inside | high
    · rw [clamp01_of_mem positive inside]
    · rw [clamp01_of_one_le high, abs_of_nonneg (by linarith), abs_of_nonneg (by linarith)]
      linarith

end Rounding

namespace Binary64

/-- Next to a number of that size the least numbers do not count. -/
theorem tiny_le_of_le {whole : ℚ} (least : 2 ^ (-1000 : ℤ) ≤ whole) : tiny ≤ whole / 2 ^ 75 := by
  have split : tiny = 2 ^ (-1000 : ℤ) / 2 ^ 75 := by
    rw [tiny, div_eq_mul_inv, ← zpow_natCast, ← zpow_neg, ← zpow_add₀ two_ne_zero]
    norm_num
  rw [split]
  exact div_le_div_of_nonneg_right least (by positivity)

/-- A product with a number of the unit interval, rounded. -/
theorem abs_nearest_mul_sub_le {whole x w : ℚ} (least : 2 ^ (-1000 : ℤ) ≤ whole) (lower : 0 ≤ x) (upper : x ≤ 1)
    (nonneg : 0 ≤ w) (part : w ≤ whole) : |nearest (x * w) - x * w| ≤ whole / 2 ^ 52 := by
  have close := abs_nearest_sub_le_mul (x * w)
  have small := tiny_le_of_le least
  have product : x * w ≤ whole := (mul_le_of_le_one_left nonneg upper).trans part
  rw [abs_of_nonneg (mul_nonneg lower nonneg)] at close
  norm_num at close small ⊢
  linarith

/-- One more summand costs four units in the last place of the whole. -/
theorem abs_nearest_add_sub_le {whole a b r e : ℚ} {k : ℕ} (least : 2 ^ (-1000 : ℤ) ≤ whole) (few : k ≤ 2 ^ 40)
    (near : |a - b| ≤ k * (whole / 2 ^ 51)) (close : |r - e| ≤ whole / 2 ^ 52) (lower : 0 ≤ b + e) (part : b + e ≤ whole) :
    |nearest (a + r) - (b + e)| ≤ (k + 1) * (whole / 2 ^ 51) := by
  have rounded := abs_nearest_sub_le_mul (a + r)
  have small := tiny_le_of_le least
  have positive : 0 ≤ whole := lower.trans part
  have count : (k : ℚ) ≤ 2 ^ 40 := by exact_mod_cast few
  have drift : k * (whole / 2 ^ 51) ≤ whole / 2 ^ 11 := by
    have scaled := mul_le_mul_of_nonneg_right count (by positivity : 0 ≤ whole / 2 ^ 51)
    norm_num at scaled ⊢
    linarith
  have size : |a + r| ≤ whole + whole / 2 ^ 11 + whole / 2 ^ 52 := by
    rw [abs_le] at near close ⊢
    constructor <;> linarith [near.1, near.2, close.1, close.2]
  rw [abs_le] at rounded near close ⊢
  norm_num at rounded near close small size drift ⊢
  constructor <;> linarith [rounded.1, rounded.2, near.1, near.2, close.1, close.2]

/-- A quotient of sums that are off by that much, rounded. -/
theorem abs_nearest_div_sub_le {sum total mean whole : ℚ} {n : ℕ} (some : 1 ≤ n) (few : n ≤ 2 ^ 40) (positive : 0 < whole)
    (lower : 0 ≤ mean) (upper : mean ≤ 1) (top : |sum - mean * whole| ≤ n * (whole / 2 ^ 51))
    (bottom : |total - whole| ≤ n * (whole / 2 ^ 51)) : 0 < total ∧ |nearest (sum / total) - mean| ≤ n / 2 ^ 49 := by
  have one : (1 : ℚ) ≤ n := by exact_mod_cast some
  have count : (n : ℚ) ≤ 2 ^ 40 := by exact_mod_cast few
  obtain ⟨margin, isMargin⟩ : ∃ margin : ℚ, margin = n / 2 ^ 51 := ⟨_, rfl⟩
  have small : margin ≤ 1 / 2 ^ 11 := by
    rw [isMargin]
    exact (div_le_div_of_nonneg_right count (by positivity)).trans_eq (by norm_num)
  have least : 1 / 2 ^ 51 ≤ margin := by
    rw [isMargin]
    exact div_le_div_of_nonneg_right one (by positivity)
  have scaled : n * (whole / 2 ^ 51) = margin * whole := by
    rw [isMargin]
    ring
  rw [scaled, abs_le] at top bottom
  have drift : margin * whole ≤ 1 / 2 ^ 11 * whole := mul_le_mul_of_nonneg_right small positive.le
  have enough : whole ≤ 5 / 4 * total := by linarith [bottom.1]
  have totalPos : 0 < total := by linarith
  have room : 2 * (margin * whole) ≤ 5 / 2 * margin * total := by
    have scaled := mul_le_mul_of_nonneg_left enough (by linarith : 0 ≤ margin)
    linarith
  -- the mean of the total differs from the mean of the whole by the drift of the total at most
  have shift : |mean * total - mean * whole| ≤ margin * whole := by
    rw [← mul_sub, abs_mul, abs_of_nonneg lower]
    exact (mul_le_of_le_one_left (abs_nonneg _) upper).trans (abs_le.mpr bottom)
  rw [abs_le] at shift
  have quotient : |sum / total - mean| ≤ 5 / 2 * margin := by
    rw [abs_le, le_sub_iff_add_le, sub_le_iff_le_add, le_div_iff₀ totalPos, div_le_iff₀ totalPos]
    constructor <;> linarith [top.1, top.2, shift.1, shift.2]
  rw [abs_le] at quotient
  have rounded := abs_nearest_sub_le_of_lt (x := sum / total) (p := -51) (by decide) (by
    rw [abs_lt]
    norm_num
    constructor <;> linarith [quotient.1, quotient.2])
  rw [abs_le] at rounded
  have goal : (n : ℚ) / 2 ^ 49 = 4 * margin := by
    rw [isMargin]
    ring
  refine ⟨totalPos, ?_⟩
  rw [goal, abs_le]
  norm_num at rounded least ⊢
  constructor <;> linarith [rounded.1, rounded.2, quotient.1, quotient.2]

end Binary64

namespace PyFloat

variable {ι : Type}

/-- The number that a float is, zero where it is none. -/
def value : PyFloat → ℚ
  | .finite q => q
  | _ => 0

/-- The floats `f i * w i` and the floats `w i`, added up in the order of the items. -/
def weightedSums (w f : ι → PyFloat) (items : List ι) : PyFloat × PyFloat :=
  items.foldl (fun acc i => (acc.1 + f i * w i, acc.2 + w i)) (0, 0)

/-- The weighted mean, clipped to the unit interval and rounded to six places. -/
def roundedMean (w f : ι → PyFloat) (items : List ι) : PyFloat :=
  let sums := weightedSums w f items
  FloatLike.roundTo 6 (max 0 (min 1 (if 0 < sums.2 then sums.1 / sums.2 else 0)))

theorem value_nonneg {w : ι → PyFloat} {items : List ι} (weights : ∀ i ∈ items, ∃ q, w i = .finite q ∧ 0 ≤ q) :
    ∀ i ∈ items, 0 ≤ (value ∘ w) i := by
  intro i listed
  obtain ⟨q, isFloat, nonneg⟩ := weights i listed
  rwa [Function.comp_apply, isFloat]

theorem value_in_unit {f : ι → PyFloat} {items : List ι} (scores : ∀ i ∈ items, (f i).InUnit) :
    ∀ i ∈ items, 0 ≤ (value ∘ f) i ∧ (value ∘ f) i ≤ 1 := by
  intro i listed
  obtain ⟨q, isFloat, unit⟩ := scores i listed
  rwa [Function.comp_apply, isFloat]

/-- A sum of floats is near the sum of the numbers still when one more is added. -/
theorem add_near {whole a b r e : ℚ} {k : ℕ} (least : 2 ^ (-1000 : ℤ) ≤ whole) (most : whole ≤ 2 ^ 1000)
    (few : k ≤ 2 ^ 40) (near : |a - b| ≤ k * (whole / 2 ^ 51)) (close : |r - e| ≤ whole / 2 ^ 52) (lower : 0 ≤ b + e)
    (part : b + e ≤ whole) :
    ∃ c, PyFloat.finite a + .finite r = .finite c ∧ |c - (b + e)| ≤ (k + 1 : ℕ) * (whole / 2 ^ 51) := by
  have count : (k : ℚ) ≤ 2 ^ 40 := by exact_mod_cast few
  have positive : 0 ≤ whole := lower.trans part
  have drift : k * (whole / 2 ^ 51) ≤ whole / 2 ^ 11 :=
    (mul_le_mul_of_nonneg_right count (by positivity)).trans_eq (by ring)
  have size : |a + r| ≤ 2 ^ 1001 := by
    rw [pow_succ]
    generalize (2 : ℚ) ^ 1000 = most at *
    rw [abs_le] at near close ⊢
    norm_num at near close drift ⊢
    constructor <;> linarith [near.1, near.2, close.1, close.2]
  refine ⟨_, (add_finite a r).trans (ofRat_of_le size (by decide)), ?_⟩
  push_cast
  exact Binary64.abs_nearest_add_sub_le least few near close lower part

/-- The two sums are near the sums of the numbers, up to some units in the last place of a whole that the
weights do not exceed. -/
theorem weightedSums_near {whole : ℚ} (least : 2 ^ (-1000 : ℤ) ≤ whole) (most : whole ≤ 2 ^ 1000) {w f : ι → PyFloat}
    {items : List ι} (weights : ∀ i ∈ items, ∃ q, w i = .finite q ∧ 0 ≤ q) (scores : ∀ i ∈ items, (f i).InUnit)
    (few : items.length ≤ 2 ^ 40) (part : WeightedMean.total (value ∘ w) items ≤ whole) :
    ∃ top bottom, weightedSums w f items = (.finite top, .finite bottom) ∧
      |top - WeightedMean.weighted (value ∘ w) (value ∘ f) items| ≤ items.length * (whole / 2 ^ 51) ∧
      |bottom - WeightedMean.total (value ∘ w) items| ≤ items.length * (whole / 2 ^ 51) := by
  induction items using List.reverseRecOn with
  | nil => exact ⟨0, 0, rfl, by simp [WeightedMean.weighted], by simp [WeightedMean.total]⟩
  | append_singleton items i ih =>
    have earlier : ∀ j ∈ items, j ∈ items ++ [i] := fun j listed => List.mem_append_left [i] listed
    obtain ⟨weight, isWeight, nonneg⟩ := weights i (List.mem_append_right items List.mem_cons_self)
    obtain ⟨score, isScore, lower, upper⟩ := scores i (List.mem_append_right items List.mem_cons_self)
    have itemWeight : (value ∘ w) i = weight := congrArg value isWeight
    have itemScore : (value ∘ f) i = score := congrArg value isScore
    have weightsNonneg := value_nonneg fun j listed => weights j (earlier j listed)
    have scoresUnit := value_in_unit fun j listed => scores j (earlier j listed)
    rw [List.length_append, List.length_singleton] at few ⊢
    rw [WeightedMean.total, List.map_append, List.sum_append, List.map_singleton, List.sum_singleton, itemWeight] at part ⊢
    rw [WeightedMean.weighted, List.map_append, List.sum_append, List.map_singleton, List.sum_singleton, itemWeight, itemScore]
    have restNonneg : 0 ≤ WeightedMean.total (value ∘ w) items := WeightedMean.total_nonneg weightsNonneg
    obtain ⟨weightedNonneg, weightedLe⟩ := WeightedMean.weighted_of_unit weightsNonneg scoresUnit
    change WeightedMean.total (value ∘ w) items + weight ≤ whole at part
    obtain ⟨top, bottom, run, nearTop, nearBottom⟩ := ih (fun j listed => weights j (earlier j listed))
      (fun j listed => scores j (earlier j listed)) (by omega) (by linarith)
    have heaviest : weight ≤ whole := by linarith
    have small : score * weight ≤ weight := mul_le_of_le_one_left nonneg upper
    have product : PyFloat.finite score * .finite weight = .finite (Binary64.nearest (score * weight)) := by
      refine (mul_finite score weight).trans (ofRat_of_le (k := 1000) ?_ (by decide))
      rw [abs_of_nonneg (mul_nonneg lower nonneg)]
      exact (small.trans heaviest).trans most
    obtain ⟨top', nextTop, boundTop⟩ := add_near least most (by omega) nearTop
      (Binary64.abs_nearest_mul_sub_le least lower upper nonneg heaviest)
      (add_nonneg weightedNonneg (mul_nonneg lower nonneg)) (by linarith)
    have exactWeight : |weight - weight| ≤ whole / 2 ^ 52 := by
      rw [sub_self, abs_zero]
      exact div_nonneg (nonneg.trans heaviest) (by positivity)
    obtain ⟨bottom', nextBottom, boundBottom⟩ :=
      add_near least most (by omega) nearBottom exactWeight (by linarith) part
    refine ⟨top', bottom', ?_, boundTop, boundBottom⟩
    rw [weightedSums, List.foldl_append]
    change ((weightedSums w f items).1 + f i * w i, (weightedSums w f items).2 + w i) = _
    rw [run, isWeight, isScore, product, nextTop, nextBottom]

/-- Weights that are numbers, neither too small nor too large in total, and a mean that keeps a distance from
the ties of the sixth place which grows with the number of the items. -/
structure FarFromTies (w f : ι → PyFloat) (items : List ι) : Prop where
  weights : ∀ i ∈ items, ∃ q, w i = .finite q ∧ 0 ≤ q
  few : items.length ≤ 2 ^ 40
  least : 2 ^ (-1000 : ℤ) ≤ WeightedMean.total (value ∘ w) items
  most : WeightedMean.total (value ∘ w) items ≤ 2 ^ 1000
  far : ∀ k : ℤ, (items.length : ℚ) / 2 ^ 49 < |WeightedMean.mean (value ∘ w) (value ∘ f) items - (k + 1 / 2) / 10 ^ 6|

theorem FarFromTies.perm {w f : ι → PyFloat} {items items' : List ι} (settled : FarFromTies w f items)
    (perm : items.Perm items') : FarFromTies w f items' where
  weights i listed := settled.weights i (perm.mem_iff.mpr listed)
  few := perm.length_eq ▸ settled.few
  least := by
    rw [WeightedMean.total, ← (perm.map _).sum_eq]
    exact settled.least
  most := by
    rw [WeightedMean.total, ← (perm.map _).sum_eq]
    exact settled.most
  far := by
    rw [← perm.length_eq, ← WeightedMean.mean_perm _ _ perm]
    exact settled.far

/-- Then the rounded mean is that of the numbers. -/
theorem FarFromTies.roundedMean_eq {w f : ι → PyFloat} {items : List ι} (settled : FarFromTies w f items)
    (scores : ∀ i ∈ items, (f i).InUnit) :
    roundedMean w f items = ofRat (roundTo 6 (WeightedMean.mean (value ∘ w) (value ∘ f) items)) := by
  obtain ⟨weights, few, least, most, far⟩ := settled
  have positive : 0 < WeightedMean.total (value ∘ w) items := (Binary64.place_pos _).trans_le least
  have weightsNonneg := value_nonneg weights
  have scoresUnit := value_in_unit scores
  have lower := WeightedMean.le_mean_of_nonneg weightsNonneg positive fun i listed => (scoresUnit i listed).1
  have upper := WeightedMean.mean_le_of_nonneg weightsNonneg positive fun i listed => (scoresUnit i listed).2
  obtain ⟨top, bottom, run, nearTop, nearBottom⟩ := weightedSums_near least most weights scores few le_rfl
  rw [← div_mul_cancel₀ (WeightedMean.weighted (value ∘ w) (value ∘ f) items) positive.ne'] at nearTop
  change |top - WeightedMean.mean (value ∘ w) (value ∘ f) items * _| ≤ _ at nearTop
  generalize WeightedMean.mean (value ∘ w) (value ∘ f) items = mean at *
  obtain ⟨bottomPos, near⟩ := Binary64.abs_nearest_div_sub_le
    (List.length_pos_iff.mpr (WeightedMean.ne_nil_of_total_pos positive)) few positive lower upper
    nearTop nearBottom
  have small : |Binary64.nearest (top / bottom)| < 2 ^ 1024 := by
    have count : (items.length : ℚ) / 2 ^ 49 ≤ 1 := by
      rw [div_le_one (by positivity)]
      exact (by exact_mod_cast few : (items.length : ℚ) ≤ 2 ^ 40).trans (by norm_num)
    have bounded : |Binary64.nearest (top / bottom)| ≤ 2 ^ 1 := by
      rw [abs_le] at near ⊢
      constructor <;> linarith [near.1, near.2]
    exact bounded.trans_lt (pow_lt_pow_right₀ one_lt_two (by decide))
  have divides : (0 : PyFloat) < .finite bottom := decide_eq_true bottomPos
  rw [roundedMean, run]
  dsimp only
  rw [if_pos divides, div_finite top bottomPos.ne', ofRat_of_lt small, clip_finite, roundTo_finite,
    roundTo_eq_of_near ((abs_clamp01_sub_le lower upper).trans near) far]

/-- And so it is the same in whatever order the floats are added. -/
theorem FarFromTies.roundedMean_perm {w f : ι → PyFloat} {items items' : List ι} (settled : FarFromTies w f items)
    (scores : ∀ i ∈ items, (f i).InUnit) (perm : items.Perm items') : roundedMean w f items = roundedMean w f items' := by
  rw [settled.roundedMean_eq scores, (settled.perm perm).roundedMean_eq fun i listed => scores i (perm.mem_iff.mpr listed),
    WeightedMean.mean_perm _ _ perm]

/-- Four numbers whose mean is half a millionth above `0.394101`. -/
example : roundedMean (fun _ => 1) id
      [.ofRat 0.098418, .ofRat 0.511554, .ofRat 0.029724, .ofRat 0.93671] = .ofRat 0.394101 ∧
    roundedMean (fun _ => 1) id
      [.ofRat 0.098418, .ofRat 0.511554, .ofRat 0.93671, .ofRat 0.029724] = .ofRat 0.394102 := by
  decide +kernel

end PyFloat
