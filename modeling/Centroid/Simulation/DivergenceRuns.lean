import Centroid.Lib.LeastSquares
import Centroid.Lib.WeightedMean
import Centroid.Simulation.Divergence

namespace Centroid

open Rounding

inductive DivergenceCall where
  | sample (forkId : String) (actual twin : List (Key ℚ × Value ℚ)) (cycle : ℕ)
  | compute (forkId : String)
  | clear (forkId : String)

namespace DivergenceCalculator

def init (lambda_ : ℚ := 9 / 10) (maxSamples : ℕ := 20) : DivergenceCalculator := ⟨lambda_, maxSamples, ∅⟩

def call (self : DivergenceCalculator) : DivergenceCall → DivergenceCalculator
  | .sample forkId actual twin cycle => (self.sample forkId actual twin cycle).1
  | .compute _ => self
  | .clear forkId => self.clear forkId

def run (self : DivergenceCalculator) (calls : List DivergenceCall) : DivergenceCalculator := calls.foldl call self

/-- The sample that `sample` records, whatever was recorded before. -/
def sampleOf (actual twin : List (Key ℚ × Value ℚ)) (cycle : ℕ) : DivergenceSample :=
  ⟨cycle, floatsOf actual, floatsOf twin, roundTo 6 (pointDivergence (floatsOf actual) (floatsOf twin))⟩

def takenBy (forkId : String) (taken : List DivergenceSample) : DivergenceCall → List DivergenceSample
  | .sample f actual twin cycle => if f = forkId then taken ++ [sampleOf actual twin cycle] else taken
  | .compute _ => taken
  | .clear f => if f = forkId then [] else taken

/-- The samples taken for a fork since it was last cleared. -/
def sinceClear (forkId : String) (calls : List DivergenceCall) : List DivergenceSample := calls.foldl (takenBy forkId) []

/-- The queue of a fork keeps the last of the samples taken for it. -/
def Holds (self : DivergenceCalculator) (forkId : String) (taken : List DivergenceSample) : Prop :=
  (self.samples.get? forkId).getD [] = taken.rtake self.maxSamples

theorem Holds.call {self : DivergenceCalculator} {forkId : String} {taken : List DivergenceSample}
    (holds : self.Holds forkId taken) (c : DivergenceCall) : (self.call c).Holds forkId (takenBy forkId taken c) := by
  unfold Holds at holds ⊢
  cases c with
  | sample f actual twin cycle =>
    simp only [DivergenceCalculator.call, DivergenceCalculator.sample, takenBy]
    by_cases own : f = forkId
    · subst own
      rw [if_pos rfl, Dict.get?_set_self, Option.getD_some, holds]
      exact Window.push_rtake _ _ _
    · rw [if_neg own, Dict.get?_set_of_ne _ _ own]
      exact holds
  | compute f => exact holds
  | clear f =>
    simp only [DivergenceCalculator.call, DivergenceCalculator.clear, takenBy]
    by_cases own : f = forkId
    · subst own
      rw [if_pos rfl, Dict.get?_erase_self]
      simp
    · rw [if_neg own, Dict.get?_erase_of_ne _ own]
      exact holds

theorem call_settings (self : DivergenceCalculator) (c : DivergenceCall) :
    (self.call c).lambda_ = self.lambda_ ∧ (self.call c).maxSamples = self.maxSamples := by
  cases c <;> exact ⟨rfl, rfl⟩

theorem run_spec (lambda_ : ℚ) (maxSamples : ℕ) (forkId : String) (calls : List DivergenceCall) :
    (run (init lambda_ maxSamples) calls).lambda_ = lambda_ ∧
      (run (init lambda_ maxSamples) calls).maxSamples = maxSamples ∧
      (run (init lambda_ maxSamples) calls).Holds forkId (sinceClear forkId calls) := by
  induction calls using List.reverseRecOn with
  | nil => exact ⟨rfl, rfl, by simp [Holds, run, init, sinceClear]⟩
  | append_singleton calls c ih =>
    obtain ⟨decay, bound, holds⟩ := ih
    have settings := call_settings (run (init lambda_ maxSamples) calls) c
    rw [run, List.foldl_concat, sinceClear, List.foldl_concat]
    exact ⟨settings.1.trans decay, settings.2.trans bound, holds.call c⟩

theorem queue_run (lambda_ : ℚ) (maxSamples : ℕ) (forkId : String) (calls : List DivergenceCall) :
    ((run (init lambda_ maxSamples) calls).samples.get? forkId).getD [] =
      (sinceClear forkId calls).rtake maxSamples := by
  obtain ⟨_, bound, holds⟩ := run_spec lambda_ maxSamples forkId calls
  rw [Holds, bound] at holds
  exact holds

/-- What is on record has six decimal places. -/
theorem rounded_of_taken {forkId : String} {calls : List DivergenceCall} {s : DivergenceSample}
    (taken : s ∈ sinceClear forkId calls) : roundTo 6 s.pointDivergence = s.pointDivergence := by
  induction calls using List.reverseRecOn with
  | nil => cases taken
  | append_singleton calls c ih =>
    rw [sinceClear, List.foldl_concat] at taken
    cases c with
    | sample f actual twin cycle =>
      simp only [takenBy] at taken
      by_cases own : f = forkId
      · rw [if_pos own] at taken
        rcases List.mem_append.mp taken with earlier | now
        · exact ih earlier
        · rw [List.mem_singleton.mp now]
          exact roundTo_idem 6 _
      · rw [if_neg own] at taken
        exact ih taken
    | compute f => exact ih taken
    | clear f =>
      simp only [takenBy] at taken
      by_cases own : f = forkId
      · rw [if_pos own] at taken
        cases taken
      · rw [if_neg own] at taken
        exact ih taken

/-- The weight of the k-th sample of n. -/
def recency (lambda_ : ℚ) (n : ℕ) (entry : DivergenceSample × ℕ) : ℚ := lambda_ ^ (n - entry.2)

/-- The mean of the point divergences, oldest first, the k-th of n with weight
`λ^(n-k)`. -/
def recencyMean (lambda_ : ℚ) (kept : List DivergenceSample) : ℚ :=
  WeightedMean.mean (recency lambda_ kept.length) (fun entry => entry.1.pointDivergence) (kept.zipIdx 1)

theorem weightedSums_fst (lambda_ : ℚ) (kept : List DivergenceSample) :
    (weightedSums lambda_ kept).1 =
      WeightedMean.weighted (recency lambda_ kept.length) (fun entry => entry.1.pointDivergence) (kept.zipIdx 1) := by
  rw [weightedSums_eq, WeightedMean.weighted]
  exact congrArg List.sum (List.map_congr_left fun entry _ => mul_comm _ _)

theorem weightedSums_snd (lambda_ : ℚ) (kept : List DivergenceSample) :
    (weightedSums lambda_ kept).2 = WeightedMean.total (recency lambda_ kept.length) (kept.zipIdx 1) := by
  rw [weightedSums_eq, WeightedMean.total]
  rfl

theorem recency_total (lambda_ : ℚ) (kept : List DivergenceSample) :
    WeightedMean.total (recency lambda_ kept.length) (kept.zipIdx 1) = recencyWeight lambda_ kept.length :=
  weights_sum lambda_ kept

/-- The last sample has weight one, also when the others have none. -/
theorem recency_total_pos {lambda_ : ℚ} (decay : 0 ≤ lambda_) {kept : List DivergenceSample} (some : kept ≠ []) :
    0 < WeightedMean.total (recency lambda_ kept.length) (kept.zipIdx 1) := by
  have last : lambda_ ^ 0 ∈ (List.range kept.length).map (lambda_ ^ ·) :=
    List.mem_map.mpr ⟨0, List.mem_range.mpr (List.length_pos_iff.mpr some), rfl⟩
  have nonneg : ∀ x ∈ (List.range kept.length).map (lambda_ ^ ·), 0 ≤ x := by
    intro x member
    obtain ⟨k, _, rfl⟩ := List.mem_map.mp member
    exact pow_nonneg decay k
  have single := List.single_le_sum nonneg _ last
  rw [pow_zero] at single
  rw [recency_total, recencyWeight]
  exact lt_of_lt_of_le zero_lt_one single

theorem weighted_zipIdx_mono {lambda_ : ℚ} (decay : 0 ≤ lambda_) (n : ℕ) {kept kept' : List DivergenceSample}
    (le : List.Forall₂ (fun s s' => s.pointDivergence ≤ s'.pointDivergence) kept kept') (start : ℕ) :
    WeightedMean.weighted (recency lambda_ n) (fun entry => entry.1.pointDivergence) (kept.zipIdx start) ≤
      WeightedMean.weighted (recency lambda_ n) (fun entry => entry.1.pointDivergence) (kept'.zipIdx start) := by
  induction le generalizing start with
  | nil => exact le_rfl
  | @cons s s' kept kept' here _ ih =>
    have head := mul_le_mul_of_nonneg_right here (pow_nonneg decay (n - start))
    have tail := ih (start + 1)
    unfold WeightedMean.weighted at tail ⊢
    rw [List.zipIdx_cons, List.zipIdx_cons, List.map_cons, List.map_cons, List.sum_cons, List.sum_cons]
    exact add_le_add head tail

/-- Samples of equal number have the same weights. -/
theorem recencyMean_mono {lambda_ : ℚ} (decay : 0 ≤ lambda_) {kept kept' : List DivergenceSample}
    (le : List.Forall₂ (fun s s' => s.pointDivergence ≤ s'.pointDivergence) kept kept') :
    recencyMean lambda_ kept ≤ recencyMean lambda_ kept' := by
  have length := le.length_eq
  have whole : 0 ≤ recencyWeight lambda_ kept'.length := by
    rw [← recency_total]
    exact WeightedMean.total_nonneg fun entry _ => pow_nonneg decay _
  rw [recencyMean, recencyMean, WeightedMean.mean, WeightedMean.mean, recency_total, recency_total, length]
  exact div_le_div_of_nonneg_right (weighted_zipIdx_mono decay _ le 1) whole

/-- The offsets of at least two positions from their mean do not all vanish. -/
theorem squaredOffsets_pos {values : List ℚ} (two : 2 ≤ values.length) :
    0 < (values.zipIdx.map fun entry => ((entry.2 : ℚ) - (values.length - 1) / 2) ^ 2).sum := by
  have spreads := LeastSquares.spread_positions_pos (K := ℚ) two
  rw [LeastSquares.spread, LeastSquares.average_positions (by omega)] at spreads
  rwa [LeastSquares.sum_zipIdx]

/-- The metric of a fork whose queue is known. -/
theorem compute_weighted {self : DivergenceCalculator} {forkId : String} {kept : List DivergenceSample}
    (queue : (self.samples.get? forkId).getD [] = kept) (decay : 0 ≤ self.lambda_) :
    (self.compute forkId).samples = kept ∧
      (self.compute forkId).weightedDivergence = roundTo 6 (recencyMean self.lambda_ kept) := by
  unfold compute
  rw [queue]
  cases kept with
  | nil => exact ⟨rfl, by simp [recencyMean, WeightedMean.mean, WeightedMean.weighted, roundTo_zero]⟩
  | cons first rest =>
    refine ⟨rfl, ?_⟩
    have whole := recency_total_pos decay (List.cons_ne_nil first rest)
    dsimp only
    rw [weightedSums_snd, if_pos whole, weightedSums_fst, recencyMean, WeightedMean.mean]

/-- A fork is judged by its own samples since its last clearing, of which the
queue keeps the last. -/
theorem compute_own_samples (lambda_ : ℚ) (maxSamples : ℕ) (decay : 0 ≤ lambda_) (forkId : String)
    (calls : List DivergenceCall) :
    let kept := (sinceClear forkId calls).rtake maxSamples
    let metric := (run (init lambda_ maxSamples) calls).compute forkId
    metric.samples = kept ∧
    (∀ calls', sinceClear forkId calls' = sinceClear forkId calls →
      (run (init lambda_ maxSamples) calls').compute forkId = metric) ∧
    (kept ≠ [] → 0 < WeightedMean.total (recency lambda_ kept.length) (kept.zipIdx 1)) ∧
    metric.weightedDivergence = roundTo 6 (recencyMean lambda_ kept) ∧
    (kept ≠ [] → (∃ s ∈ kept, s.pointDivergence ≤ metric.weightedDivergence) ∧
      ∃ s ∈ kept, metric.weightedDivergence ≤ s.pointDivergence) ∧
    (∀ calls', List.Forall₂ (fun s s' => s.pointDivergence ≤ s'.pointDivergence) kept
        ((sinceClear forkId calls').rtake maxSamples) →
      metric.weightedDivergence ≤ ((run (init lambda_ maxSamples) calls').compute forkId).weightedDivergence) ∧
    (2 ≤ kept.length → 0 < ((kept.map (·.pointDivergence)).zipIdx.map fun entry =>
      ((entry.2 : ℚ) - ((kept.map (·.pointDivergence)).length - 1) / 2) ^ 2).sum) := by
  intro kept metric
  have settings := run_spec lambda_ maxSamples forkId calls
  have known := compute_weighted (queue_run lambda_ maxSamples forkId calls) (by rwa [settings.1])
  rw [settings.1] at known
  have rounded : ∀ s ∈ kept, roundTo 6 s.pointDivergence = s.pointDivergence := fun s member =>
    rounded_of_taken (List.mem_of_mem_drop member)
  refine ⟨known.1, ?_, recency_total_pos decay, known.2, ?_, ?_, ?_⟩
  · intro calls' same
    have settings' := run_spec lambda_ maxSamples forkId calls'
    simp only [metric, compute, queue_run, same, settings.1, settings'.1]
  · intro some
    have whole := recency_total_pos decay some
    have nonneg : ∀ entry ∈ kept.zipIdx 1, 0 ≤ recency lambda_ kept.length entry := fun entry _ => pow_nonneg decay _
    rw [known.2]
    constructor
    · obtain ⟨entry, listed, below⟩ := WeightedMean.exists_le_mean (f := fun entry => entry.1.pointDivergence) nonneg whole
      have member : entry.1 ∈ kept := List.fst_mem_of_mem_zipIdx listed
      refine ⟨entry.1, member, ?_⟩
      rw [← rounded _ member]
      exact roundTo_mono 6 below
    · obtain ⟨entry, listed, above⟩ := WeightedMean.exists_mean_le (f := fun entry => entry.1.pointDivergence) nonneg whole
      have member : entry.1 ∈ kept := List.fst_mem_of_mem_zipIdx listed
      refine ⟨entry.1, member, ?_⟩
      rw [← rounded _ member]
      exact roundTo_mono 6 above
  · intro calls' larger
    have settings' := run_spec lambda_ maxSamples forkId calls'
    have known' := compute_weighted (queue_run lambda_ maxSamples forkId calls') (by rwa [settings'.1])
    rw [known.2, known'.2, settings'.1]
    exact roundTo_mono 6 (recencyMean_mono decay larger)
  · intro two
    exact squaredOffsets_pos (by rwa [List.length_map])

/-- Two forks, one sample of each, and a clearing of the other. -/
theorem compute_own_samples_twoForks :
    ((run (init 0 1) [.sample "a" [(.str "x", .num 1)] [(.str "x", .num 3)] 0,
      .sample "b" [(.str "x", .num 1)] [(.str "x", .num 1)] 0, .clear "b"]).compute "a").samples.map
        (·.pointDivergence) = [2] := by
  rw [(compute_own_samples 0 1 le_rfl "a" _).1]
  decide +kernel

end DivergenceCalculator

end Centroid
