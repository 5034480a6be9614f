import Mathlib.Algebra.Order.Field.Basic
import Mathlib.Data.Finset.SymmDiff
import Mathlib.Data.Finset.Card
import Mathlib.Data.Rat.Cast.Order
import Mathlib.Tactic.Linarith
import Mathlib.Tactic.Positivity
import Mathlib.Tactic.Ring

namespace Jaccard

open scoped symmDiff

variable {α : Type} [DecidableEq α]

/-- The share of the joint elements on which two finite sets differ. Two empty
sets differ on nothing. -/
def distance (s t : Finset α) : ℚ := (s ∆ t).card / (s ∪ t).card

theorem card_symmDiff_add_card_inter (s t : Finset α) : (s ∆ t).card + (s ∩ t).card = (s ∪ t).card := by
  have apart : Disjoint (s ∆ t) (s ∩ t) := disjoint_symmDiff_inf s t
  have together : s ∆ t ∪ s ∩ t = s ∪ t := symmDiff_sup_inf s t
  rw [← Finset.card_union_of_disjoint apart, together]

/-- What two sets have jointly, from their sizes and their difference. -/
theorem two_mul_card_union (s t : Finset α) : 2 * (s ∪ t).card = s.card + t.card + (s ∆ t).card := by
  have difference := card_symmDiff_add_card_inter s t
  have sizes := Finset.card_union_add_card_inter s t
  omega

theorem card_symmDiff_triangle (s t u : Finset α) : (s ∆ u).card ≤ (s ∆ t).card + (t ∆ u).card := by
  have below : s ∆ u ⊆ s ∆ t ∪ t ∆ u := symmDiff_triangle s t u
  exact le_trans (Finset.card_le_card below) (Finset.card_union_le _ _)

theorem card_le_add_card_symmDiff (s t : Finset α) : t.card ≤ s.card + (s ∆ t).card := by
  have below : t ⊆ s ∪ s ∆ t := by
    intro x member
    by_cases inside : x ∈ s
    · exact Finset.mem_union_left _ inside
    · exact Finset.mem_union_right _ (Finset.mem_symmDiff.mpr (Or.inr ⟨member, inside⟩))
  exact le_trans (Finset.card_le_card below) (Finset.card_union_le _ _)

theorem distance_eq_one_sub {s t : Finset α} (some : s ∪ t ≠ ∅) :
    distance s t = 1 - (s ∩ t).card / (s ∪ t).card := by
  have positive : (0 : ℚ) < (s ∪ t).card := by exact_mod_cast Finset.card_pos.mpr (Finset.nonempty_of_ne_empty some)
  have sizes : ((s ∆ t).card : ℚ) + (s ∩ t).card = (s ∪ t).card := by exact_mod_cast card_symmDiff_add_card_inter s t
  rw [distance, eq_sub_iff_add_eq, ← add_div, sizes, div_self positive.ne']

theorem distance_nonneg (s t : Finset α) : 0 ≤ distance s t := by
  unfold distance
  positivity

theorem distance_le_one (s t : Finset α) : distance s t ≤ 1 := by
  refine div_le_one_of_le₀ ?_ (Nat.cast_nonneg _)
  exact_mod_cast Finset.card_le_card Finset.symmDiff_subset_union

theorem distance_comm (s t : Finset α) : distance s t = distance t s := by
  rw [distance, distance, symmDiff_comm, Finset.union_comm]

theorem distance_eq_zero_iff (s t : Finset α) : distance s t = 0 ↔ s = t := by
  rw [distance, div_eq_zero_iff, Nat.cast_eq_zero, Nat.cast_eq_zero, Finset.card_eq_zero, Finset.card_eq_zero]
  constructor
  · rintro (same | nothing)
    · exact Finset.symmDiff_eq_empty.mp same
    · obtain ⟨left, right⟩ := Finset.union_eq_empty.mp nothing
      rw [left, right]
  · intro same
    exact Or.inl (Finset.symmDiff_eq_empty.mpr same)

theorem distance_self (s : Finset α) : distance s s = 0 := (distance_eq_zero_iff s s).mpr rfl

/-- A share of a whole only falls when the rest of the whole grows. -/
theorem div_add_le {part rest more : ℚ} (part_nonneg : 0 ≤ part) (rest_nonneg : 0 ≤ rest) (le : rest ≤ more) :
    part / (more + part) ≤ part / (rest + part) := by
  rcases part_nonneg.eq_or_lt with none | positive
  · rw [← none, zero_div, zero_div]
  · exact div_le_div_of_nonneg_left part_nonneg (by linarith) (by linarith)

/-- A share of a whole grows with the part when the rest stays. -/
theorem div_add_mono {part more rest : ℚ} (part_nonneg : 0 ≤ part) (rest_nonneg : 0 ≤ rest) (le : part ≤ more) :
    part / (rest + part) ≤ more / (rest + more) := by
  rcases part_nonneg.eq_or_lt with none | positive
  · rw [← none, zero_div]
    exact div_nonneg (by linarith) (by linarith)
  · rw [div_le_div_iff₀ (by linarith) (by linarith)]
    have scaled := mul_le_mul_of_nonneg_left le rest_nonneg
    linarith [mul_comm part more, mul_comm rest part, mul_comm rest more, mul_add part rest more, mul_add more rest part]

theorem distance_eq (s t : Finset α) :
    distance s t = 2 * ((s ∆ t).card / (s.card + t.card + (s ∆ t).card)) := by
  have joint : (2 : ℚ) * (s ∪ t).card = s.card + t.card + (s ∆ t).card := by exact_mod_cast two_mul_card_union s t
  rw [← joint, distance, ← mul_div_assoc, mul_div_mul_left _ _ two_ne_zero]

/-- The middle set may be charged to either side: the sizes of the outer sets
together with the two differences bound both denominators. -/
theorem distance_triangle (s t u : Finset α) : distance s u ≤ distance s t + distance t u := by
  have detour : ((s ∆ u).card : ℚ) ≤ (s ∆ t).card + (t ∆ u).card := by exact_mod_cast card_symmDiff_triangle s t u
  have fromRight : (t.card : ℚ) ≤ u.card + (t ∆ u).card := by
    have bound := card_le_add_card_symmDiff u t
    rw [symmDiff_comm] at bound
    exact_mod_cast bound
  have fromLeft : (t.card : ℚ) ≤ s.card + (s ∆ t).card := by exact_mod_cast card_le_add_card_symmDiff s t
  rw [distance_eq, distance_eq, distance_eq, ← mul_add]
  refine mul_le_mul_of_nonneg_left ?_ zero_le_two
  calc ((s ∆ u).card : ℚ) / (s.card + u.card + (s ∆ u).card)
      ≤ ((s ∆ t).card + (t ∆ u).card) / (s.card + u.card + ((s ∆ t).card + (t ∆ u).card)) :=
        div_add_mono (by positivity) (by positivity) detour
    _ = (s ∆ t).card / (s.card + (u.card + (t ∆ u).card) + (s ∆ t).card) +
          (t ∆ u).card / (s.card + (s ∆ t).card + u.card + (t ∆ u).card) := by
        rw [add_div]
        congr 2 <;> ring
    _ ≤ (s ∆ t).card / (s.card + t.card + (s ∆ t).card) + (t ∆ u).card / (t.card + u.card + (t ∆ u).card) := by
        refine add_le_add ?_ ?_
        · exact div_add_le (by positivity) (by positivity) (by linarith)
        · exact div_add_le (by positivity) (by positivity) (by linarith)

end Jaccard
