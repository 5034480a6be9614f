import Centroid.Lib.Statistics
import Centroid.Planner.CalibrationHistory
import Centroid.Planner.LinkedConfidence

namespace Centroid

open Rounding Statistics

/-- The update that a score makes. -/
def FeedbackResult.update (r : FeedbackResult) : CalibrationUpdate := ⟨r.field, r.horizon, r.predicted, r.actual⟩

namespace CalibrationRecord

/-- The record of a pair after one more sample. -/
def sampled (field : String) (horizon : Horizon) (found : Option CalibrationRecord) (predicted actual : ℚ) :
    Option CalibrationRecord :=
  some ((found.getD (.init field horizon.name)).addSample predicted actual)

/-- A mean error as the store computes it. -/
structure Computed (record : CalibrationRecord) : Prop where
  nonneg : 0 ≤ record.mae
  rounded : roundTo 6 record.mae = record.mae

theorem Computed.addSample {self : CalibrationRecord} (computed : self.Computed) (predicted actual : ℚ) :
    (self.addSample predicted actual).Computed := by
  have nonneg := computed.nonneg
  refine ⟨roundTo_nonneg 6 ?_, roundTo_idem 6 _⟩
  rw [abs_rat]
  positivity

theorem computed_default (field : String) (horizon : Horizon) :
    (init field horizon.name : CalibrationRecord).Computed := ⟨le_rfl, roundTo_zero 6⟩

/-- The record of a pair, if there is one, has a mean error as the store computes it. -/
def ComputedIn (found : Option CalibrationRecord) : Prop := ∀ record, found = some record → record.Computed

theorem ComputedIn.getD {found : Option CalibrationRecord} (computed : ComputedIn found) (field : String)
    (horizon : Horizon) : (found.getD (.init field horizon.name)).Computed := by
  cases found with
  | none => exact computed_default field horizon
  | some record => exact computed record rfl

theorem ComputedIn.sampled {found : Option CalibrationRecord} (computed : ComputedIn found) (field : String)
    (horizon : Horizon) (predicted actual : ℚ) : ComputedIn (sampled field horizon found predicted actual) := by
  rintro record ⟨⟩
  exact (computed.getD field horizon).addSample predicted actual

end CalibrationRecord

namespace CalibrationStore

open CalibrationRecord

/-- A store in memory after an update. -/
def applied (self : CalibrationStore) (u : CalibrationUpdate) : CalibrationStore := (self.apply u (fun _ => .missing) true).1

/-- Every mean error is as the store computes it. -/
def Computed (self : CalibrationStore) : Prop := ∀ field (horizon : Horizon), ComputedIn (self.get field horizon.name)

end CalibrationStore

namespace ForecastFeedbackLoop

open CalibrationRecord CalibrationStore

variable (faults : WriteFaults) (now : ℚ) (actualValues : Dict String ℚ)

end ForecastFeedbackLoop

end Centroid
