import Centroid.Lib.Rounding
import Centroid.Lib.Value
import Centroid.Lib.Window
import Mathlib.Algebra.BigOperators.Group.List.Basic
import Mathlib.Algebra.BigOperators.Ring.List
import Mathlib.Algebra.Order.BigOperators.Group.List

namespace Centroid

open Rounding

/-- A single comparison between actual and twin state. -/
structure DivergenceSample where
  cycle : ℕ
  actualValues : Dict (Key ℚ) ℚ
  twinValues : Dict (Key ℚ) ℚ
  pointDivergence : ℚ

structure DivergenceMetric where
  forkId : String
  samples : List DivergenceSample
  weightedDivergence : ℚ
  lambda_ : ℚ
  divergenceTrend : ℚ

/-- The samples of a fork are a queue of bounded length. -/
structure DivergenceCalculator where
  lambda_ : ℚ
  maxSamples : ℕ
  samples : Dict String (List DivergenceSample)

/-- The entries whose value is a number, under the conversion of `float`. -/
def floatsOf (state : List (Key ℚ × Value ℚ)) : Dict (Key ℚ) ℚ :=
  state.foldl (fun floats entry =>
    match entry.2.num? with
    | some v => floats.set entry.1 v
    | none => floats) ∅

def sharedKeys (actual twin : Dict (Key ℚ) ℚ) : List (Key ℚ) := actual.keys.filter (· ∈ twin.keys)

/-- Mean absolute difference over the shared keys. -/
def pointDivergence (actual twin : Dict (Key ℚ) ℚ) : ℚ :=
  if sharedKeys actual twin = [] then 0
  else
    ((sharedKeys actual twin).map fun k => |(actual.get? k).getD 0 - (twin.get? k).getD 0|).sum /
      (sharedKeys actual twin).length

/-- `_compute_slope`: the least-squares slope over the positions. -/
def computeSlope (values : List ℚ) : ℚ :=
  let n : ℚ := values.length
  let xMean := (n - 1) / 2
  let yMean := values.sum / n
  let numerator := (values.zipIdx.map fun entry => (entry.2 - xMean) * (entry.1 - yMean)).sum
  let denominator := (values.zipIdx.map fun entry => ((entry.2 : ℚ) - xMean) ^ 2).sum
  if denominator ≠ 0 then numerator / denominator else 0

namespace DivergenceCalculator

def sample (self : DivergenceCalculator) (forkId : String) (actual twin : List (Key ℚ × Value ℚ)) (cycle : ℕ) :
    DivergenceCalculator × DivergenceSample :=
  let actualFloats := floatsOf actual
  let twinFloats := floatsOf twin
  let s : DivergenceSample := ⟨cycle, actualFloats, twinFloats, roundTo 6 (pointDivergence actualFloats twinFloats)⟩
  let queue := (self.samples.get? forkId).getD []
  ({ self with samples := self.samples.set forkId (Window.push self.maxSamples queue s) }, s)

/-- The two sums of the loop over the samples, oldest first. -/
def weightedSums (lambda_ : ℚ) (samples : List DivergenceSample) : ℚ × ℚ :=
  (samples.zipIdx 1).foldl
    (fun acc entry =>
      let weight := lambda_ ^ (samples.length - entry.2)
      (acc.1 + weight * entry.1.pointDivergence, acc.2 + weight))
    (0, 0)

def compute (self : DivergenceCalculator) (forkId : String) : DivergenceMetric :=
  match (self.samples.get? forkId).getD [] with
  | [] => ⟨forkId, [], 0, self.lambda_, 0⟩
  | first :: rest =>
    let samples := first :: rest
    let (weighted, weightSum) := weightedSums self.lambda_ samples
    let dT := if 0 < weightSum then weighted / weightSum else 0
    let trend := if samples.length < 2 then 0 else computeSlope (samples.map (·.pointDivergence))
    ⟨forkId, samples, roundTo 6 dT, self.lambda_, roundTo 6 trend⟩

/-- Remove all samples of a fork. -/
def clear (self : DivergenceCalculator) (forkId : String) : DivergenceCalculator :=
  { self with samples := self.samples.erase forkId }

end DivergenceCalculator

/-- On distinct keys the sampler sees exactly the numbers at the top level. -/
theorem get?_floatsOf {state : List (Key ℚ × Value ℚ)} (distinct : (state.map Prod.fst).Nodup) (key : Key ℚ) :
    (floatsOf state).get? key = (Assoc.get? state key).bind Value.num? := by
  have general : ∀ floats : Dict (Key ℚ) ℚ, (state.foldl (fun floats entry =>
      match entry.2.num? with
      | some v => floats.set entry.1 v
      | none => floats) floats).get? key =
        match Assoc.get? state key with
        | some v => v.num?.or (floats.get? key)
        | none => floats.get? key := by
    induction state with
    | nil => intro floats; rfl
    | cons entry rest ih =>
      intro floats
      obtain ⟨k, v⟩ := entry
      rw [List.map_cons, List.nodup_cons] at distinct
      rw [List.foldl_cons, ih distinct.2]
      by_cases here : k = key
      · subst here
        have absent : Assoc.get? rest k = none := (Assoc.get?_eq_none_iff rest k).mpr distinct.1
        simp only [absent, Assoc.get?, if_true]
        cases v.num? with
        | none => rfl
        | some x => simp
      · simp only [Assoc.get?, here, if_false]
        cases v.num? with
        | none => rfl
        | some x => simp only [Dict.get?_set_of_ne _ _ here]
  have atEmpty := general ∅
  rw [floatsOf, atEmpty]
  cases Assoc.get? state key with
  | none => rfl
  | some v => simp

/-- The sampler compares no more fields than the tree has numeric leaves. -/
theorem size_floatsOf_le (state : List (Key ℚ × Value ℚ)) : (floatsOf state).size ≤ Value.entriesLeaves state := by
  have general : ∀ floats : Dict (Key ℚ) ℚ, (state.foldl (fun floats entry =>
      match entry.2.num? with
      | some v => floats.set entry.1 v
      | none => floats) floats).size ≤ floats.size + Value.entriesLeaves state := by
    induction state with
    | nil => intro floats; exact le_rfl
    | cons entry rest ih =>
      intro floats
      obtain ⟨k, v⟩ := entry
      have step := ih (match v.num? with
        | some x => floats.set k x
        | none => floats)
      rw [List.foldl_cons, Value.entriesLeaves]
      cases v with
      | num n =>
        have := floats.size_set_le k n
        simp only [Value.num?, Value.numericLeaves] at step ⊢
        omega
      | bool b =>
        have := floats.size_set_le k (if b then 1 else 0)
        simp only [Value.num?, Value.numericLeaves] at step ⊢
        omega
      | _ =>
        simp only [Value.num?] at step ⊢
        omega
  have fromEmpty := general ∅
  rwa [show (∅ : Dict (Key ℚ) ℚ).size = 0 from rfl, Nat.zero_add] at fromEmpty

theorem mem_sharedKeys {actual twin : Dict (Key ℚ) ℚ} {key : Key ℚ} :
    key ∈ sharedKeys actual twin ↔ key ∈ actual.keys ∧ key ∈ twin.keys := by
  simp [sharedKeys]

theorem pointDivergence_eq_zero {actual twin : Dict (Key ℚ) ℚ}
    (agree : ∀ key ∈ sharedKeys actual twin, actual.get? key = twin.get? key) : pointDivergence actual twin = 0 := by
  unfold pointDivergence
  split
  · rfl
  · have zeros : ((sharedKeys actual twin).map fun k => |(actual.get? k).getD 0 - (twin.get? k).getD 0|) =
        (sharedKeys actual twin).map fun _ => 0 := by
      refine List.map_congr_left fun k member => ?_
      rw [agree k member, sub_self, abs_zero]
    rw [zeros]
    simp

/-- One shared key is enough for a lower bound on the mean. -/
theorem le_pointDivergence {actual twin : Dict (Key ℚ) ℚ} {key : Key ℚ} {a t : ℚ} {bound : ℕ}
    (atActual : actual.get? key = some a) (atTwin : twin.get? key = some t) (few : actual.size ≤ bound) :
    |a - t| / bound ≤ pointDivergence actual twin := by
  have member : key ∈ sharedKeys actual twin :=
    mem_sharedKeys.mpr ⟨(actual.mem_keys_iff key).mpr ⟨a, atActual⟩, (twin.mem_keys_iff key).mpr ⟨t, atTwin⟩⟩
  have nonempty : sharedKeys actual twin ≠ [] := List.ne_nil_of_mem member
  have positive : 0 < (sharedKeys actual twin).length := List.length_pos_iff.mpr nonempty
  have short : (sharedKeys actual twin).length ≤ bound := by
    refine le_trans (List.length_filter_le _ _) ?_
    simpa [Dict.keys, Dict.size] using few
  have term : |a - t| ≤ ((sharedKeys actual twin).map fun k => |(actual.get? k).getD 0 - (twin.get? k).getD 0|).sum := by
    refine List.single_le_sum (fun x inside => ?_) _ (List.mem_map.mpr ⟨key, member, by simp [atActual, atTwin]⟩)
    obtain ⟨k, _, rfl⟩ := List.mem_map.mp inside
    exact abs_nonneg _
  rw [pointDivergence, if_neg nonempty]
  have shortRat : ((sharedKeys actual twin).length : ℚ) ≤ bound := by exact_mod_cast short
  have positiveRat : (0 : ℚ) < (sharedKeys actual twin).length := by exact_mod_cast positive
  calc |a - t| / bound ≤ |a - t| / (sharedKeys actual twin).length :=
        div_le_div_of_nonneg_left (abs_nonneg _) positiveRat shortRat
    _ ≤ _ := div_le_div_of_nonneg_right term positiveRat.le

namespace DivergenceCalculator

/-- The weights of the newest samples, summed up. -/
def recencyWeight (lambda_ : ℚ) (n : ℕ) : ℚ := ((List.range n).map (lambda_ ^ ·)).sum

theorem weightedSums_eq (lambda_ : ℚ) (samples : List DivergenceSample) :
    weightedSums lambda_ samples =
      (((samples.zipIdx 1).map fun e => lambda_ ^ (samples.length - e.2) * e.1.pointDivergence).sum,
        ((samples.zipIdx 1).map fun e => lambda_ ^ (samples.length - e.2)).sum) := by
  have general : ∀ (entries : List (DivergenceSample × ℕ)) (a b : ℚ),
      entries.foldl (fun acc entry => (acc.1 + lambda_ ^ (samples.length - entry.2) * entry.1.pointDivergence,
          acc.2 + lambda_ ^ (samples.length - entry.2))) (a, b) =
        (a + (entries.map fun e => lambda_ ^ (samples.length - e.2) * e.1.pointDivergence).sum,
          b + (entries.map fun e => lambda_ ^ (samples.length - e.2)).sum) := by
    intro entries
    induction entries with
    | nil => simp
    | cons entry rest ih =>
      intro a b
      rw [List.foldl_cons, ih]
      simp [add_assoc]
  have fromZero := general (samples.zipIdx 1) 0 0
  simpa [weightedSums] using fromZero

theorem weights_sum (lambda_ : ℚ) (samples : List DivergenceSample) :
    ((samples.zipIdx 1).map fun e => lambda_ ^ (samples.length - e.2)).sum = recencyWeight lambda_ samples.length := by
  have positions : ((samples.zipIdx 1).map fun e => lambda_ ^ (samples.length - e.2)) =
      (List.range' 1 samples.length).map fun k => lambda_ ^ (samples.length - k) := by
    rw [← List.zipIdx_map_snd 1 samples, List.map_map]
    rfl
  rw [positions, ← List.sum_reverse, ← List.map_reverse, List.reverse_range', List.map_map, recencyWeight]
  congr 1
  refine List.map_congr_left fun j member => ?_
  have bound := List.mem_range.mp member
  simp only [Function.comp]
  congr 1
  omega

/-- Samples that all diverge by the same amount weigh to this amount, unless
the weights do not sum to a positive number. -/
theorem compute_of_constant {self : DivergenceCalculator} {forkId : String} {d : ℚ}
    (constant : ∀ s ∈ (self.samples.get? forkId).getD [], s.pointDivergence = d) :
    (self.compute forkId).weightedDivergence =
      if 0 < recencyWeight self.lambda_ ((self.samples.get? forkId).getD []).length then roundTo 6 d else 0 := by
  unfold compute
  generalize (self.samples.get? forkId).getD [] = samples at constant
  cases samples with
  | nil => simp [recencyWeight]
  | cons first rest =>
    have factor : (((first :: rest).zipIdx 1).map fun e =>
        self.lambda_ ^ ((first :: rest).length - e.2) * e.1.pointDivergence).sum =
          recencyWeight self.lambda_ (first :: rest).length * d := by
      rw [← weights_sum, ← List.sum_map_mul_right]
      congr 1
      refine List.map_congr_left fun e member => ?_
      rw [constant e.1 (List.fst_mem_of_mem_zipIdx member)]
    simp only [weightedSums_eq, factor, weights_sum]
    split
    · rename_i positive
      rw [mul_div_cancel_left₀ _ positive.ne']
    · rw [roundTo_zero]

end DivergenceCalculator

end Centroid
