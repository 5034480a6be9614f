import Centroid.Lib.RunningMean
import Centroid.Planner.CalibrationHistory
import Centroid.Planner.PlanLifecycle

namespace Centroid

open Rounding

/-- The stored means of a pair are within a distance of the exact ones. -/
def CalibrationStore.MeansWithin (self : CalibrationStore) (distance : ℚ) (field : String) (horizon : Horizon)
    (own : List CalibrationUpdate) : Prop :=
  ∀ record, self.get field horizon.name = some record →
    |record.mae - Statistics.mean (own.map fun u => |u.error|)| ≤ distance ∧
      |record.bias - Statistics.mean (own.map CalibrationUpdate.error)| ≤ distance

namespace CalibrationRecord

/-- In exact arithmetic both means are running means that are rounded at every step. -/
theorem ofUpdates_means (field : String) (horizon : Horizon) (own : List CalibrationUpdate) :
    (ofUpdates field horizon own).mae = RunningMean.stored (roundTo 6) (own.map fun u => |u.error|) ∧
      (ofUpdates field horizon own).bias = RunningMean.stored (roundTo 6) (own.map CalibrationUpdate.error) := by
  induction own using List.reverseRecOn with
  | nil => exact ⟨rfl, rfl⟩
  | append_singleton own u ih =>
    have count := (ofUpdates_spec field horizon own).2.2
    rw [List.map_append, List.map_append, List.map_singleton, List.map_singleton, RunningMean.stored_append_singleton,
      RunningMean.stored_append_singleton, List.length_map, List.length_map, ← ih.1, ← ih.2,
      ofUpdates_append_singleton, addSample, count]
    simp only [roundTo_rat, abs_rat, Nat.cast_succ, RunningMean.next, CalibrationUpdate.error, and_self]

end CalibrationRecord

namespace CalibrationStore

theorem meansWithin_ofUpdates (path : String) (updates : List CalibrationUpdate) (field : String) (horizon : Horizon) :
    (ofUpdates path updates).MeansWithin (((CalibrationUpdate.ofPair updates field horizon).length + 1) / 4 / 10 ^ 6) field
      horizon (CalibrationUpdate.ofPair updates field horizon) := by
  intro record found
  rw [get_ofUpdates] at found
  generalize CalibrationUpdate.ofPair updates field horizon = own at found ⊢
  split at found
  · cases found
  · rename_i someUpdate
    cases found
    have close := abs_roundTo_sub_le 6
    have drift (values : List ℚ) (same : values.length = own.length) :
        |RunningMean.stored (roundTo 6) values - Statistics.mean values| ≤ ((own.length : ℚ) + 1) / 4 / 10 ^ 6 := by
      have someValue : values ≠ [] := by
        intro none
        rw [none, List.length_nil, eq_comm, List.length_eq_zero_iff] at same
        exact someUpdate same
      refine (RunningMean.abs_stored_sub_mean_le close someValue).trans (le_of_eq ?_)
      rw [same]
      ring
    obtain ⟨mae, bias⟩ := CalibrationRecord.ofUpdates_means field horizon own
    rw [mae, bias]
    exact ⟨drift _ (List.length_map _), drift _ (List.length_map _)⟩

/-- Half a unit of the last place is a tie, and goes to nothing. -/
theorem roundTo_half_unit : roundTo 6 (1 / 2 / 10 ^ 6 : ℚ) = 0 := by
  decide +kernel

/-- Errors that grow by half a unit of the last place. -/
def growingErrors (n : ℕ) : List CalibrationUpdate :=
  (List.range n).map fun k => ⟨"load", .short, ((k + 1 : ℕ) : ℚ) * (1 / 2 / 10 ^ 6), 0⟩

theorem error_growingErrors (n : ℕ) : (growingErrors n).map CalibrationUpdate.error = RunningMean.ramp (1 / 2 / 10 ^ 6) n := by
  rw [growingErrors, List.map_map]
  exact List.map_congr_left fun k _ => sub_zero _

theorem ofPair_growingErrors (n : ℕ) : CalibrationUpdate.ofPair (growingErrors n) "load" .short = growingErrors n := by
  refine List.filter_eq_self.mpr fun u member => decide_eq_true ?_
  obtain ⟨k, -, rfl⟩ := List.mem_map.mp member
  rfl

theorem length_growingErrors (n : ℕ) : (growingErrors n).length = n := by
  rw [growingErrors, List.length_map, List.length_range]

/-- The stored bias stays at nothing while the errors grow. -/
theorem not_meansWithin_growingErrors (path : String) {n : ℕ} (many : 3 < n) :
    ¬ (ofUpdates path (growingErrors n)).MeansWithin (1 / 10 ^ 6) "load" .short (growingErrors n) := by
  intro within
  have someUpdate : growingErrors n ≠ [] := by
    rw [← List.length_pos_iff, length_growingErrors]
    omega
  have found := get_ofUpdates path (growingErrors n) "load" .short
  rw [ofPair_growingErrors, if_neg someUpdate] at found
  have close := (within _ found).2
  have large : (3 : ℚ) < n := by exact_mod_cast many
  rw [(CalibrationRecord.ofUpdates_means _ _ _).2, error_growingErrors, RunningMean.stored_ramp roundTo_half_unit,
    RunningMean.mean_ramp _ (by omega), zero_sub, abs_neg, abs_of_pos (by positivity)] at close
  linarith

end CalibrationStore

namespace CalibrationRun

section

variable (floatOfText : String → Option ℚ) (intOfText : String → Option ℤ) (render : Value ℚ → String)

/-- The updates of a pair that are remembered after some calls. -/
def ownUpdates (calls : List CalibrationCall) (field : String) (horizon : Horizon) : List CalibrationUpdate :=
  CalibrationUpdate.ofPair (CalibrationLedger.ofHistory calls).memory field horizon

theorem meansWithin_after {path : String} {disk : Disk ℚ} {calls : List CalibrationCall} {run : CalibrationRun}
    (reached : (start path disk).after (exactReading floatOfText intOfText render) calls = some run) (field : String)
    (horizon : Horizon) :
    run.store.MeansWithin (((ownUpdates calls field horizon).length + 1) / 4 / 10 ^ 6) field horizon
      (ownUpdates calls field horizon) := by
  rw [store_after (exactReading_exact floatOfText intOfText render) reached]
  exact CalibrationStore.meansWithin_ofUpdates path _ field horizon

/-- The calls that make some updates, all of which are written. -/
def written (updates : List CalibrationUpdate) : List CalibrationCall := updates.map fun u => .update u false

theorem memory_written (updates : List CalibrationUpdate) :
    (CalibrationLedger.ofHistory (written updates)).memory = updates := by
  have persists : ∀ call ∈ written updates, call.Persists := by
    intro call member
    obtain ⟨u, -, rfl⟩ := List.mem_map.mp member
    rfl
  rw [CalibrationLedger.memory_of_persists persists, written, List.filterMap_map]
  exact List.filterMap_some

/-- From four updates on, the means can be off by more than a unit of the last
place. -/
theorem not_meansWithin_written (path : String) (disk : Disk ℚ) {n : ℕ} (many : 3 < n) :
    ∃ run, (start path disk).after (exactReading floatOfText intOfText render)
        (written (CalibrationStore.growingErrors n)) = some run ∧
      (ownUpdates (written (CalibrationStore.growingErrors n)) "load" .short).length = n ∧
      ¬ run.store.MeansWithin (1 / 10 ^ 6) "load" .short
        (ownUpdates (written (CalibrationStore.growingErrors n)) "load" .short) := by
  obtain ⟨run, reached, -⟩ := tracks_after (exactReading_exact floatOfText intOfText render) (tracks_start path disk)
    (written (CalibrationStore.growingErrors n))
  refine ⟨run, reached, ?_⟩
  rw [store_after (exactReading_exact floatOfText intOfText render) reached, ownUpdates, memory_written,
    CalibrationStore.ofPair_growingErrors]
  exact ⟨CalibrationStore.length_growingErrors n, CalibrationStore.not_meansWithin_growingErrors path many⟩

/-- The rounding of each step adds up. The means of `n` updates are within
`(n + 1) / 4` units of the last place of the exact ones, and they are sure to be
within one unit for three updates at most. -/
theorem meansWithin_unit_iff (path : String) (disk : Disk ℚ) :
    let reached calls run := (start path disk).after (exactReading floatOfText intOfText render) calls = some run
    (∀ calls run field horizon, reached calls run →
        run.store.MeansWithin (((ownUpdates calls field horizon).length + 1) / 4 / 10 ^ 6) field horizon
          (ownUpdates calls field horizon)) ∧
      ∀ n, (∀ calls run field horizon, reached calls run → (ownUpdates calls field horizon).length = n →
        run.store.MeansWithin (1 / 10 ^ 6) field horizon (ownUpdates calls field horizon)) ↔ n ≤ 3 := by
  have general : ∀ calls run field horizon,
      (start path disk).after (exactReading floatOfText intOfText render) calls = some run →
      run.store.MeansWithin (((ownUpdates calls field horizon).length + 1) / 4 / 10 ^ 6) field horizon
        (ownUpdates calls field horizon) :=
    fun calls run field horizon reached => meansWithin_after floatOfText intOfText render reached field horizon
  refine ⟨general, fun n => ⟨fun accurate => ?_, fun few calls run field horizon reached count record found => ?_⟩⟩
  · by_contra many
    obtain ⟨run, reached, count, off⟩ := not_meansWithin_written floatOfText intOfText render path disk (not_le.mp many)
    exact off (accurate _ run _ _ reached count)
  · obtain ⟨mae, bias⟩ := general calls run field horizon reached record found
    have small : (((ownUpdates calls field horizon).length : ℚ) + 1) / 4 / 10 ^ 6 ≤ 1 / 10 ^ 6 := by
      have atMost : (n : ℚ) ≤ 3 := by exact_mod_cast few
      rw [count]
      apply div_le_div_of_nonneg_right _ (by positivity)
      linarith
    exact ⟨mae.trans small, bias.trans small⟩

end

/-- Four errors of half a unit of the last place up to two: both means stay at
nothing. -/
theorem four_growing_errors :
    let calls := written (CalibrationStore.growingErrors 4)
    ∃ run, (start "state/calibration.json" fun _ => .missing).after PlanRun.wordsOnly calls = some run ∧
      ¬ run.store.MeansWithin (1 / 10 ^ 6) "load" .short (ownUpdates calls "load" .short) := by
  obtain ⟨run, reached, -, off⟩ := not_meansWithin_written (fun _ => none) (fun _ => none) (fun _ => "")
    "state/calibration.json" (fun _ => .missing) (show 3 < 4 by decide)
  exact ⟨run, reached, off⟩

end CalibrationRun

end Centroid
