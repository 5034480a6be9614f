import Mathlib.Algebra.Order.BigOperators.Group.List
import Mathlib.Algebra.Order.Field.Basic
import Mathlib.Algebra.BigOperators.Ring.List
import Mathlib.Data.List.MinMax

universe u v

namespace WeightedMean

variable {ι : Type u} {𝕜 : Type v} [Field 𝕜]

def total (w : ι → 𝕜) (items : List ι) : 𝕜 := (items.map w).sum

def weighted (w f : ι → 𝕜) (items : List ι) : 𝕜 := (items.map fun i => f i * w i).sum

def mean (w f : ι → 𝕜) (items : List ι) : 𝕜 := weighted w f items / total w items

theorem weighted_const (w : ι → 𝕜) (c : 𝕜) (items : List ι) : weighted w (fun _ => c) items = c * total w items :=
  List.sum_map_mul_left items w c

theorem total_congr {w w' : ι → 𝕜} {items : List ι} (same : ∀ i ∈ items, w i = w' i) : total w items = total w' items :=
  congrArg List.sum (List.map_congr_left same)

theorem weighted_congr {w w' f : ι → 𝕜} {items : List ι} (same : ∀ i ∈ items, w i = w' i) :
    weighted w f items = weighted w' f items :=
  congrArg List.sum (List.map_congr_left fun i listed => by rw [same i listed])

/-- The order of the items does not matter. -/
theorem mean_perm (w f : ι → 𝕜) {items items' : List ι} (perm : items.Perm items') : mean w f items = mean w f items' := by
  rw [mean, mean, weighted, weighted, total, total, (perm.map _).sum_eq, (perm.map w).sum_eq]

/-- Only the proportions of the weights matter. -/
theorem mean_scale {c : 𝕜} (nonzero : c ≠ 0) (w f : ι → 𝕜) (items : List ι) :
    mean (fun i => w i * c) f items = mean w f items := by
  have scaled : weighted (fun i => w i * c) f items = weighted w f items * c := by
    rw [weighted, weighted, ← List.sum_map_mul_right]
    exact congrArg List.sum (List.map_congr_left fun i _ => (mul_assoc _ _ _).symm)
  have whole : total (fun i => w i * c) items = total w items * c := List.sum_map_mul_right items w c
  rw [mean, mean, scaled, whole, mul_div_mul_right _ _ nonzero]

variable [LinearOrder 𝕜] [IsStrictOrderedRing 𝕜] {w f f' : ι → 𝕜} {items : List ι}

theorem total_pos (positive : ∀ i ∈ items, 0 < w i) (some : items ≠ []) : 0 < total w items := by
  refine List.sum_pos _ (fun x member => ?_) (by simpa using some)
  obtain ⟨i, listed, rfl⟩ := List.mem_map.mp member
  exact positive i listed

theorem weighted_mono (nonneg : ∀ i ∈ items, 0 ≤ w i) (le : ∀ i ∈ items, f i ≤ f' i) :
    weighted w f items ≤ weighted w f' items :=
  List.sum_le_sum fun i listed => mul_le_mul_of_nonneg_right (le i listed) (nonneg i listed)

theorem total_nonneg (nonneg : ∀ i ∈ items, 0 ≤ w i) : 0 ≤ total w items := by
  refine List.sum_nonneg fun x member => ?_
  obtain ⟨i, listed, rfl⟩ := List.mem_map.mp member
  exact nonneg i listed

theorem weighted_of_unit (nonneg : ∀ i ∈ items, 0 ≤ w i) (unit : ∀ i ∈ items, 0 ≤ f i ∧ f i ≤ 1) :
    0 ≤ weighted w f items ∧ weighted w f items ≤ total w items := by
  have lower := weighted_mono (f := fun _ => 0) nonneg fun i listed => (unit i listed).1
  have upper := weighted_mono nonneg fun i listed => (unit i listed).2
  rw [weighted_const, zero_mul] at lower
  rw [weighted_const, one_mul] at upper
  exact ⟨lower, upper⟩

/-- A larger function has the larger mean. -/
theorem mean_mono_of_nonneg (nonneg : ∀ i ∈ items, 0 ≤ w i) (le : ∀ i ∈ items, f i ≤ f' i) :
    mean w f items ≤ mean w f' items :=
  div_le_div_of_nonneg_right (weighted_mono nonneg le) (total_nonneg nonneg)

omit [IsStrictOrderedRing 𝕜] in
theorem mean_const_of_pos (whole : 0 < total w items) (c : 𝕜) : mean w (fun _ => c) items = c := by
  rw [mean, weighted_const, mul_div_assoc, div_self whole.ne', mul_one]

/-- The mean lies between all bounds of the items. -/
theorem le_mean_of_nonneg (nonneg : ∀ i ∈ items, 0 ≤ w i) (whole : 0 < total w items) {low : 𝕜}
    (lower : ∀ i ∈ items, low ≤ f i) : low ≤ mean w f items :=
  (mean_const_of_pos whole low).ge.trans (mean_mono_of_nonneg nonneg lower)

theorem mean_le_of_nonneg (nonneg : ∀ i ∈ items, 0 ≤ w i) (whole : 0 < total w items) {high : 𝕜}
    (upper : ∀ i ∈ items, f i ≤ high) : mean w f items ≤ high :=
  (mean_mono_of_nonneg nonneg upper).trans (mean_const_of_pos whole high).le

omit [IsStrictOrderedRing 𝕜] in
theorem ne_nil_of_total_pos (whole : 0 < total w items) : items ≠ [] := by
  rintro rfl
  exact lt_irrefl _ whole

/-- Some item is at most the mean, and some item is at least the mean. -/
theorem exists_le_mean (nonneg : ∀ i ∈ items, 0 ≤ w i) (whole : 0 < total w items) : ∃ i ∈ items, f i ≤ mean w f items := by
  obtain ⟨least, found⟩ := Option.ne_none_iff_exists'.mp (mt (List.argmin_eq_none (f := f)).mp (ne_nil_of_total_pos whole))
  exact ⟨least, List.argmin_mem (f := f) found,
    le_mean_of_nonneg nonneg whole fun i listed => List.le_of_mem_argmin listed found⟩

theorem exists_mean_le (nonneg : ∀ i ∈ items, 0 ≤ w i) (whole : 0 < total w items) : ∃ i ∈ items, mean w f items ≤ f i := by
  obtain ⟨greatest, found⟩ := Option.ne_none_iff_exists'.mp (mt (List.argmax_eq_none (f := f)).mp (ne_nil_of_total_pos whole))
  exact ⟨greatest, List.argmax_mem (f := f) found,
    mean_le_of_nonneg nonneg whole fun i listed => List.le_of_mem_argmax listed found⟩

theorem mean_mono (positive : ∀ i ∈ items, 0 < w i) (le : ∀ i ∈ items, f i ≤ f' i) : mean w f items ≤ mean w f' items :=
  mean_mono_of_nonneg (fun i listed => (positive i listed).le) le

theorem le_mean (positive : ∀ i ∈ items, 0 < w i) (some : items ≠ []) {low : 𝕜} (lower : ∀ i ∈ items, low ≤ f i) :
    low ≤ mean w f items :=
  le_mean_of_nonneg (fun i listed => (positive i listed).le) (total_pos positive some) lower

theorem mean_le (positive : ∀ i ∈ items, 0 < w i) (some : items ≠ []) {high : 𝕜} (upper : ∀ i ∈ items, f i ≤ high) :
    mean w f items ≤ high :=
  mean_le_of_nonneg (fun i listed => (positive i listed).le) (total_pos positive some) upper

end WeightedMean
