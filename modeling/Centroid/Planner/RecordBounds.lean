import Centroid.Lib.FloatBounds
import Centroid.Planner.CalibrationHistory
import Mathlib.Data.List.MinMax

namespace Centroid

open Rounding StateLoad

namespace CalibrationRecord

/-- The error of an update is a number. -/
def Numeric (u : CalibrationUpdate PyFloat) : Prop := ∃ e, u.error = .finite e

/-- One more sample keeps the bias below the mean error, whatever overflows. -/
theorem within_addSample {self : CalibrationRecord PyFloat} (within : self.bias.Within self.mae)
    (start : self.sampleCount = 0 → self.mae = .finite 0 ∧ self.bias = .finite 0) {u : CalibrationUpdate PyFloat}
    (numeric : Numeric u) : (self.addSample u.predicted u.actual).bias.Within (self.addSample u.predicted u.actual).mae := by
  obtain ⟨e, error⟩ := numeric
  have scaled : (self.bias * self.sampleCount).Within (self.mae * self.sampleCount) := by
    rcases Nat.eq_zero_or_pos self.sampleCount with zero | positive
    · obtain ⟨mae, bias⟩ := start zero
      rw [mae, bias, zero, PyFloat.natCast_eq, PyFloat.mul_finite]
      refine .ofRat ?_
      rw [zero_mul, abs_zero]
    · exact within.mul_natCast positive
  have summed := scaled.add e
  rw [← error] at summed
  have absolute : FloatLike.abs u.error = .finite |e| := by
    rw [error]
    rfl
  rw [← absolute] at summed
  exact (summed.div_natCast (Nat.succ_pos self.sampleCount)).roundTo 6

theorem within_ofUpdates (field : String) (horizon : Horizon) {own : List (CalibrationUpdate PyFloat)}
    (numeric : ∀ u ∈ own, Numeric u) : (ofUpdates field horizon own).bias.Within (ofUpdates field horizon own).mae := by
  induction own using List.reverseRecOn with
  | nil => exact .finite abs_zero.le
  | append_singleton own u ih =>
    have before := ih fun other member => numeric other (List.mem_append_left _ member)
    have start : (ofUpdates field horizon own).sampleCount = 0 →
        (ofUpdates field horizon own).mae = .finite 0 ∧ (ofUpdates field horizon own).bias = .finite 0 := by
      intro none
      rw [(ofUpdates_spec field horizon own).2.2, List.length_eq_zero_iff] at none
      rw [none]
      exact ⟨rfl, rfl⟩
    rw [ofUpdates_append_singleton]
    exact within_addSample before start (numeric u (by simp))

/-- One more sample, where nothing overflows. -/
theorem mae_addSample {self : CalibrationRecord PyFloat} {m a : ℚ} (mae : self.mae = .finite m) (mNonneg : 0 ≤ m)
    (mMost : m ≤ 10 ^ 9) (few : self.sampleCount < 2 ^ 53) {u : CalibrationUpdate PyFloat}
    (absolute : FloatLike.abs u.error = .finite a) (aNonneg : 0 ≤ a) (aMost : a ≤ 10 ^ 9) :
    (self.addSample u.predicted u.actual).mae = .finite (Binary64.nearest (roundTo 6 (Binary64.nearest
      (Binary64.nearest (Binary64.nearest (m * self.sampleCount) + a) / (self.sampleCount + 1))))) := by
  rw [CalibrationUpdate.error] at absolute
  rw [addSample]
  dsimp only
  rw [absolute, mae]
  generalize self.sampleCount = n at few
  have count : Binary64.nearest (n : ℚ) = n := by
    exact_mod_cast Binary64.nearest_intCast (n := n) (by rw [Nat.abs_cast]; exact_mod_cast few.le)
  have next : Binary64.nearest ((n + 1 : ℕ) : ℚ) = n + 1 := by
    exact_mod_cast Binary64.nearest_intCast (n := (n + 1 : ℕ)) (by rw [Nat.abs_cast]; exact_mod_cast few)
  have many : (n : ℚ) ≤ 2 ^ 53 := by exact_mod_cast few.le
  have size : (0 : ℚ) < n + 1 := by positivity
  have product : |m * n| ≤ 2 ^ 90 := by
    rw [abs_mul, Nat.abs_cast, abs_of_nonneg mNonneg]
    calc m * n ≤ 10 ^ 9 * 2 ^ 53 := mul_le_mul mMost many (Nat.cast_nonneg n) (by positivity)
      _ ≤ 2 ^ 90 := by norm_num
  have sum : |Binary64.nearest (m * n) + a| ≤ 2 ^ 91 := by
    refine (abs_add_le _ _).trans ?_
    have scaled := Binary64.abs_nearest_le product
    rw [abs_of_nonneg aNonneg]
    norm_num at scaled aMost ⊢
    linarith
  have quotient : |Binary64.nearest (Binary64.nearest (m * n) + a) / (n + 1)| ≤ 2 ^ 91 := by
    rw [abs_div, abs_of_pos size]
    have least : (1 : ℚ) ≤ n + 1 := by linarith [Nat.cast_nonneg (α := ℚ) n]
    exact (div_le_self (abs_nonneg _) least).trans (Binary64.abs_nearest_le sum)
  have mean : |roundTo 6 (Binary64.nearest (Binary64.nearest (Binary64.nearest (m * n) + a) / (n + 1)))| ≤ 2 ^ 91 := by
    have rounded := roundTo_mono 6 (Binary64.abs_nearest_le quotient)
    rw [show (2 : ℚ) ^ 91 = ((2 ^ 91 : ℤ) : ℚ) by norm_num, roundTo_intCast, ← abs_roundTo] at rounded
    exact rounded.trans (le_of_eq (by norm_num))
  rw [PyFloat.natCast_eq, PyFloat.natCast_eq, count, next, PyFloat.mul_finite, PyFloat.ofRat_of_le product (by decide),
    PyFloat.add_finite, PyFloat.ofRat_of_le sum (by decide), PyFloat.div_finite _ size.ne',
    PyFloat.ofRat_of_le quotient (by decide), PyFloat.roundTo_finite, PyFloat.ofRat_of_le mean (by decide)]

theorem absolute_spec {u : CalibrationUpdate PyFloat} {a : ℚ} (absolute : FloatLike.abs u.error = .finite a) :
    0 ≤ a ∧ Binary64.nearest a = a := by
  cases error : u.error with
  | finite e =>
    rw [error] at absolute
    cases absolute
    have kept : Binary64.nearest e = e := PyFloat.nearest_of_rounded error
    exact ⟨abs_nonneg e, by rw [Binary64.nearest_abs, kept]⟩
  | nan =>
    rw [error] at absolute
    cases absolute
  | infinity negative =>
    rw [error] at absolute
    cases absolute

/-- As long as nothing is so large that a unit of the last place gets lost, the mean error stays below the
largest error rounded. -/
theorem mae_ofUpdates_le (field : String) (horizon : Horizon) {bound : ℚ} (nonneg : 0 ≤ bound) (most : bound ≤ 10 ^ 9)
    {own : List (CalibrationUpdate PyFloat)} (errors : ∀ u ∈ own, ∃ a, FloatLike.abs u.error = .finite a ∧ a ≤ bound)
    (few : own.length ≤ 2 ^ 53) :
    ∃ m, (ofUpdates field horizon own).mae = .finite m ∧ Binary64.nearest m = m ∧ 0 ≤ m ∧
      m ≤ Binary64.nearest (roundTo 6 bound) := by
  induction own using List.reverseRecOn with
  | nil => exact ⟨0, rfl, Binary64.nearest_zero, le_rfl, Binary64.nearest_nonneg (roundTo_nonneg 6 nonneg)⟩
  | append_singleton own u ih =>
    rw [List.length_append, List.length_singleton] at few
    obtain ⟨m, mae, kept, mNonneg, mLe⟩ := ih (fun other member => errors other (List.mem_append_left _ member)) (by omega)
    obtain ⟨a, absolute, aLe⟩ := errors u (by simp)
    obtain ⟨aNonneg, aKept⟩ := absolute_spec absolute
    have count := (ofUpdates_spec field horizon own).2.2
    have next := mae_addSample mae mNonneg (mLe.trans (Binary64.nearest_roundTo_le most)) (by omega) absolute aNonneg
      (aLe.trans most)
    rw [ofUpdates_append_singleton]
    refine ⟨_, next, Binary64.nearest_idem _, ?_, Binary64.nearest_mono ?_⟩
    · apply Binary64.nearest_nonneg
      apply roundTo_nonneg
      have size : (0 : ℚ) ≤ (ofUpdates field horizon own).sampleCount := Nat.cast_nonneg _
      exact Binary64.nearest_nonneg (div_nonneg (Binary64.nearest_nonneg
        (add_nonneg (Binary64.nearest_nonneg (mul_nonneg mNonneg size)) aNonneg)) (by linarith))
    · rcases Nat.eq_zero_or_pos own.length with none | some
      · rw [count, none, Nat.cast_zero, mul_zero, Binary64.nearest_zero, zero_add, zero_add, div_one, aKept, aKept]
        exact roundTo_mono 6 aLe
      · rw [count]
        exact Binary64.roundTo_mean_le some kept mNonneg mLe aNonneg aLe most

/-- The magnitude of an error, nothing for one that is no number. -/
def magnitude (u : CalibrationUpdate PyFloat) : ℚ :=
  match FloatLike.abs u.error with
  | .finite a => a
  | _ => 0

theorem absolute_of_le {u : CalibrationUpdate PyFloat} {bound : ℚ} (le : FloatLike.abs u.error ≤ .finite bound) :
    FloatLike.abs u.error = .finite (magnitude u) ∧ magnitude u ≤ bound := by
  rw [magnitude]
  cases error : u.error with
  | finite e =>
    rw [error] at le
    exact ⟨rfl, of_decide_eq_true le⟩
  | nan =>
    rw [error] at le
    cases le
  | infinity negative =>
    rw [error] at le
    cases le

/-- The largest of the errors bounds the mean error. -/
theorem exists_mae_le (field : String) (horizon : Horizon) {own : List (CalibrationUpdate PyFloat)} (someUpdate : own ≠ [])
    (errors : ∀ u ∈ own, FloatLike.abs u.error ≤ .finite (10 ^ 9)) (few : own.length ≤ 2 ^ 53) :
    ∃ u ∈ own, (ofUpdates field horizon own).mae ≤ FloatLike.roundTo 6 (FloatLike.abs u.error) := by
  obtain ⟨u, greatest⟩ := Option.ne_none_iff_exists'.mp
    fun none => someUpdate ((List.argmax_eq_none (f := magnitude)).mp none)
  have updated : u ∈ own := List.argmax_mem greatest
  obtain ⟨absolute, most⟩ := absolute_of_le (errors u updated)
  obtain ⟨nonneg, -⟩ := absolute_spec absolute
  have each : ∀ other ∈ own, ∃ a, FloatLike.abs other.error = .finite a ∧ a ≤ magnitude u :=
    fun other member => ⟨_, (absolute_of_le (errors other member)).1, List.le_of_mem_argmax member greatest⟩
  obtain ⟨m, mae, kept, mNonneg, mLe⟩ := mae_ofUpdates_le field horizon nonneg most each few
  refine ⟨u, updated, ?_⟩
  have inRange : |roundTo 6 (magnitude u)| ≤ 2 ^ 91 := by
    have rounded := roundTo_mono 6 (most.trans (by norm_num : (10 : ℚ) ^ 9 ≤ 2 ^ 91))
    rw [show (2 : ℚ) ^ 91 = ((2 ^ 91 : ℤ) : ℚ) by norm_num, roundTo_intCast] at rounded
    rw [abs_of_nonneg (roundTo_nonneg 6 nonneg)]
    exact rounded.trans (le_of_eq (by norm_num))
  rw [mae, absolute, PyFloat.roundTo_finite, PyFloat.ofRat_of_le inRange (by decide)]
  exact decide_eq_true mLe

/-- What a record says of the updates of its pair. Of the errors that are numbers it keeps the bounds, and
that by the largest one as long as they are small enough. -/
structure Summarizes (record : CalibrationRecord PyFloat) (field : String) (horizon : Horizon)
    (own : List (CalibrationUpdate PyFloat)) : Prop where
  field : record.field = field
  horizon : record.horizon = horizon.name
  sampleCount : record.sampleCount = own.length
  bias : (∀ u ∈ own, Numeric u) → 0 ≤ record.mae ∧ FloatLike.abs record.bias ≤ record.mae
  mae : (∀ u ∈ own, FloatLike.abs u.error ≤ .finite (10 ^ 9)) → own.length ≤ 2 ^ 53 →
    ∃ u ∈ own, record.mae ≤ FloatLike.roundTo 6 (FloatLike.abs u.error)

theorem Summarizes.of_updates (field : String) (horizon : Horizon) {own : List (CalibrationUpdate PyFloat)}
    (someUpdate : own ≠ []) : (ofUpdates field horizon own).Summarizes field horizon own := by
  obtain ⟨sameField, sameHorizon, count⟩ := ofUpdates_spec field horizon own
  exact ⟨sameField, sameHorizon, count, fun numeric => (within_ofUpdates field horizon numeric).bounds,
    exists_mae_le field horizon someUpdate⟩

end CalibrationRecord

namespace CalibrationRun

section

variable (floatOfText : String → Option PyFloat) (intOfText : String → Option ℤ) (render : Value PyFloat → String)

/-- After any updates, some of which may fail to be written, and any readings of
the file in between, the record of each pair counts and bounds the errors of
the updates of that pair. Without failed writes these are all its updates. -/
theorem records_count_own_updates (path : String) (disk : Disk PyFloat) (calls : List (CalibrationCall PyFloat)) :
    let updates := (CalibrationLedger.ofHistory calls).memory
    ((∀ call ∈ calls, call.Persists) → updates = calls.filterMap CalibrationCall.update?) ∧
      ∃ run, (start path disk).after (floatReading floatOfText intOfText render) calls = some run ∧
        (∀ record ∈ run.store.records.values, ∃ horizon : Horizon, record.horizon = horizon.name ∧
          run.store.get record.field horizon.name = some record) ∧
        (∀ field horizon, match run.store.get field horizon.name with
          | none => CalibrationUpdate.ofPair updates field horizon = []
          | some record => record.Summarizes field horizon (CalibrationUpdate.ofPair updates field horizon)) ∧
        ∀ u fails field horizon, u.pair ≠ (field, horizon) →
          (run.store.apply u run.disk fails).1.get field horizon.name = run.store.get field horizon.name := by
  refine ⟨CalibrationLedger.memory_of_persists, ?_⟩
  obtain ⟨⟨store, files⟩, reached, inMemory, -⟩ :=
    tracks_after (floatReading_exact floatOfText intOfText render) (tracks_start path disk) calls
  dsimp only at inMemory
  subst inMemory
  refine ⟨_, reached, fun record stored => CalibrationStore.mem_values_ofUpdates stored, ?_, ?_⟩
  · intro field horizon
    rw [CalibrationStore.get_ofUpdates]
    by_cases none : CalibrationUpdate.ofPair (CalibrationLedger.ofHistory calls).memory field horizon = []
    · rw [if_pos none]
      exact none
    · rw [if_neg none]
      exact .of_updates field horizon none
  · intro u fails field horizon other
    rw [CalibrationStore.get_apply, if_neg other]

end

/-- Floats are read as such, and nothing is read out of a text. -/
def floatsOnly : NumberReading PyFloat PyFloat := floatReading (fun _ => none) (fun _ => none) fun _ => ""

/-- Two errors of a name with the separator of keys, which is read again in between. -/
def colonCalls : List (CalibrationCall PyFloat) :=
  [.update ⟨"cpu:temp", .short, .finite (1 / 2), .finite (3 / 4)⟩ false, .load,
    .update ⟨"cpu:temp", .short, .finite 1, .finite (3 / 4)⟩ true]

theorem records_count_colon :
    ∃ run, (start "state/calibration.json" fun _ => .missing).after floatsOnly colonCalls = some run ∧
      ∃ record, run.store.get "cpu:temp" Horizon.short.name = some record ∧ record.sampleCount = 2 ∧ 0 ≤ record.mae ∧
        FloatLike.abs record.bias ≤ record.mae ∧ record.mae ≤ .finite (1 / 4) := by
  obtain ⟨-, run, reached, -, records, -⟩ := records_count_own_updates (fun _ => none) (fun _ => none) (fun _ => "")
    "state/calibration.json" (fun _ => .missing) colonCalls
  have summary := records "cpu:temp" .short
  refine ⟨run, reached, ?_⟩
  cases found : run.store.get "cpu:temp" Horizon.short.name with
  | none =>
    rw [found] at summary
    cases summary
  | some record =>
    rw [found] at summary
    have recorded : record.Summarizes "cpu:temp" .short _ := summary
    have numeric : ∀ u ∈ CalibrationUpdate.ofPair (CalibrationLedger.ofHistory colonCalls).memory "cpu:temp" .short,
        CalibrationRecord.Numeric u := by
      intro u member
      rcases List.mem_pair.mp member with rfl | rfl
      · exact ⟨-1 / 4, by decide +kernel⟩
      · exact ⟨1 / 4, by decide +kernel⟩
    have rounded : ∀ u ∈ CalibrationUpdate.ofPair (CalibrationLedger.ofHistory colonCalls).memory "cpu:temp" .short,
        FloatLike.roundTo 6 (FloatLike.abs u.error) = .finite (1 / 4) := by
      decide +kernel
    obtain ⟨nonneg, bias⟩ := recorded.bias numeric
    obtain ⟨u, member, le⟩ := recorded.mae (by decide +kernel) (by decide +kernel)
    exact ⟨record, rfl, recorded.sampleCount, nonneg, bias, rounded u member ▸ le⟩

/-- An error beyond which floats do not keep six places. -/
def largeUpdate : CalibrationUpdate PyFloat := ⟨"bytes", .short, .ofRat (92780218588 / 10), 0⟩

/-- The same error six times, and the mean error is above it. -/
theorem mean_above_largest_error :
    let calls := List.replicate 6 (CalibrationCall.update largeUpdate false)
    ∃ run, (start "state/calibration.json" fun _ => .missing).after floatsOnly calls = some run ∧
      ∃ record, run.store.get "bytes" Horizon.short.name = some record ∧ record.sampleCount = 6 ∧
        ∀ u ∈ CalibrationUpdate.ofPair (CalibrationLedger.ofHistory calls).memory "bytes" .short,
          FloatLike.roundTo 6 (FloatLike.abs u.error) < record.mae := by
  obtain ⟨run, reached, inMemory, -⟩ := tracks_after (floatReading_exact (fun _ => none) (fun _ => none) fun _ => "")
    (tracks_start "state/calibration.json" fun _ => .missing) (List.replicate 6 (.update largeUpdate false))
  have own : CalibrationUpdate.ofPair (CalibrationLedger.ofHistory (List.replicate 6 (.update largeUpdate false))).memory
      "bytes" .short = List.replicate 6 largeUpdate := rfl
  have found := CalibrationStore.get_ofUpdates "state/calibration.json" (CalibrationLedger.ofHistory
    (List.replicate 6 (.update largeUpdate false))).memory "bytes" .short
  rw [own, ← inMemory] at found
  have above : FloatLike.roundTo 6 (FloatLike.abs largeUpdate.error) <
      (CalibrationRecord.ofUpdates "bytes" .short (List.replicate 6 largeUpdate)).mae := by decide +kernel
  refine ⟨run, reached, _, found, rfl, fun u member => ?_⟩
  have same : u = largeUpdate := List.eq_of_mem_replicate (n := 6) member
  rw [same]
  exact above

end CalibrationRun

end Centroid
