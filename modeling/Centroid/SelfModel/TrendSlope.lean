import Centroid.Lib.LeastSquares
import Centroid.SelfModel.Telemetry
import Centroid.Simulation.Divergence

namespace Centroid

open LeastSquares

/-- How far a line over the positions is from the values. -/
def lineError (values : List ℚ) (a b : ℚ) : ℚ :=
  (values.zipIdx.map fun entry => (entry.1 - (a + b * entry.2)) ^ 2).sum

/-- The denominator of the two slopes. -/
def squaredOffsets (values : List ℚ) : ℚ :=
  (values.zipIdx.map fun entry => ((entry.2 : ℚ) - (values.length - 1) / 2) ^ 2).sum

theorem lineError_eq (values : List ℚ) (a b : ℚ) :
    lineError values a b =
      squaredError Finset.univ (fun i : Fin values.length => (i : ℚ)) (fun i => values[(i : ℕ)]) a b := by
  rw [lineError, sum_zipIdx]
  rfl

theorem squaredOffsets_eq {values : List ℚ} (some : 0 < values.length) :
    squaredOffsets values = spread Finset.univ fun i : Fin values.length => (i : ℚ) := by
  rw [squaredOffsets, sum_zipIdx, spread, average_positions some]

theorem coSpread_positions {values : List ℚ} (some : 0 < values.length) :
    (values.zipIdx.map fun entry =>
        ((entry.2 : ℚ) - (values.length - 1) / 2) * (entry.1 - values.sum / values.length)).sum =
      coSpread Finset.univ (fun i : Fin values.length => (i : ℚ)) fun i => values[(i : ℕ)] := by
  have mean : average Finset.univ (fun i : Fin values.length => values[(i : ℕ)]) = values.sum / values.length := by
    rw [average, Finset.card_univ, Fintype.card_fin, Fin.sum_univ_getElem]
  rw [sum_zipIdx, coSpread, average_positions some, mean]

/-- The slope of the source is that of the points at the positions. -/
theorem computeSlope_eq {values : List ℚ} (two : 2 ≤ values.length) :
    computeSlope values = fitSlope Finset.univ (fun i : Fin values.length => (i : ℚ)) fun i => values[(i : ℕ)] := by
  have some : 0 < values.length := by omega
  have nonzero := (spread_positions_pos (K := ℚ) two).ne'
  rw [fitSlope, ← coSpread_positions some]
  rw [← squaredOffsets_eq some] at nonzero ⊢
  exact if_pos nonzero

/-- A window of the whole list leaves nothing out. -/
theorem computeTrend_eq {values : List ℚ} (two : 2 ≤ values.length) {n : ℕ} (whole : values.length ≤ n) :
    computeTrend values n = computeSlope values := by
  have recent : (if n ≠ 0 ∧ n ≤ values.length then values.drop (values.length - n) else values) = values := by
    split
    · rename_i fits
      rw [le_antisymm fits.2 whole, Nat.sub_self, List.drop_zero]
    · rfl
  have several : ¬values.length < 2 := by omega
  rw [computeTrend, computeSlope]
  dsimp only
  rw [recent, if_neg several, ite_not]

theorem getElem_affine {values : List ℚ} {a b : ℚ}
    (affine : values = (List.range values.length).map fun i : ℕ => a + b * i) (i : Fin values.length) :
    values[(i : ℕ)] = a + b * (i : ℚ) := by
  have entry : values[(i : ℕ)]? = ((List.range values.length).map fun i : ℕ => a + b * i)[(i : ℕ)]? := by
    rw [← affine]
  simpa using entry

/-- On at least two values both slopes are that of the line that fits best, and
have its sign, its exactness and its bound. -/
theorem computeTrend_fits (values : List ℚ) (two : 2 ≤ values.length) :
    (∀ n, values.length ≤ n → computeTrend values n = computeSlope values) ∧
      (∃ a, ∀ a' b', lineError values a (computeSlope values) ≤ lineError values a' b') ∧
      (∀ a b, (∀ a' b', lineError values a b ≤ lineError values a' b') → b = computeSlope values) ∧
      (values.Pairwise (· ≤ ·) → 0 ≤ computeSlope values) ∧
      (values.Pairwise (· ≥ ·) → computeSlope values ≤ 0) ∧
      (∀ a b : ℚ, (values = (List.range values.length).map fun i : ℕ => a + b * i) → computeSlope values = b) ∧
      ((∀ v ∈ values, 0 ≤ v ∧ v ≤ 1) → |computeSlope values| ≤ 1) ∧
      squaredOffsets values ≠ 0 := by
  have some : 0 < values.length := by omega
  have positions : (Finset.univ : Finset (Fin values.length)).Nonempty := ⟨⟨0, some⟩, Finset.mem_univ _⟩
  have spreads := spread_positions_pos (K := ℚ) two
  have line := computeSlope_eq two
  refine ⟨fun n whole => computeTrend_eq two whole, ?_, ?_, ?_, ?_, ?_, ?_, ?_⟩
  · simp only [lineError_eq, line]
    exact ⟨_, squaredError_fitSlope_le _ _ positions spreads⟩
  · intro a b best
    simp only [lineError_eq] at best
    rw [line]
    exact fitSlope_unique _ _ positions spreads best
  · intro rises
    rw [line]
    refine fitSlope_nonneg _ _ positions fun i _ j _ before => ?_
    exact List.pairwise_iff_getElem.mp rises i j i.2 j.2 (Nat.cast_lt.mp before)
  · intro falls
    rw [line]
    refine fitSlope_nonpos _ _ positions fun i _ j _ before => ?_
    exact List.pairwise_iff_getElem.mp falls i j i.2 j.2 (Nat.cast_lt.mp before)
  · intro a b affine
    have points : (fun i : Fin values.length => values[(i : ℕ)]) = fun i : Fin values.length => a + b * (i : ℚ) :=
      funext (getElem_affine affine)
    rw [line, points]
    exact fitSlope_affine _ positions spreads.ne' a b
  · intro band
    rw [line]
    refine abs_fitSlope_le_one _ _ positions (fun i _ => band _ (List.getElem_mem i.2)) fun i _ => ?_
    rw [average_positions some, sub_zero]
    exact position_far i
  · rw [squaredOffsets_eq some]
    exact spreads.ne'

/-- Three values on their way up. -/
theorem computeTrend_fits_rising : computeTrend [1 / 4, 1 / 2, 3 / 4] 5 = 1 / 4 := by
  have fits := computeTrend_fits [1 / 4, 1 / 2, 3 / 4] (by decide)
  rw [fits.1 5 (by decide)]
  exact fits.2.2.2.2.2.1 (1 / 4) (1 / 4) (by norm_num [List.range_succ])

end Centroid
