import Centroid.Lib.Files
import Centroid.Lib.FloatOps

namespace Centroid

/-- Tracking data for one pair of field and horizon. -/
structure CalibrationRecord (F : Type := ℚ) where
  field : String
  horizon : String
  mae : F
  bias : F
  sampleCount : ℕ

structure CalibrationStore (F : Type := ℚ) where
  path : String
  records : Dict String (CalibrationRecord F)

section

variable {F : Type} [Zero F] [Add F] [Sub F] [Mul F] [Div F] [NatCast F] [FloatLike F]

/-- The key of a record. -/
def calibrationKey (field horizon : String) : String := field ++ ":" ++ horizon

/-- `asdict`. -/
def CalibrationRecord.asDict (self : CalibrationRecord F) : Value F :=
  .dict [(.str "field", .str self.field), (.str "horizon", .str self.horizon), (.str "mae", .num self.mae),
    (.str "bias", .num self.bias), (.str "sample_count", .num (FloatLike.integer self.sampleCount))]

/-- The defaults of a record. -/
def CalibrationRecord.init (field horizon : String) : CalibrationRecord F := ⟨field, horizon, 0, 0, 0⟩

/-- One more sample in a record: the incremental means, rounded. -/
def CalibrationRecord.addSample (self : CalibrationRecord F) (predicted actual : F) : CalibrationRecord F :=
  let error := predicted - actual
  let n := self.sampleCount
  { self with
    mae := FloatLike.roundTo 6 ((self.mae * n + FloatLike.abs error) / (n + 1 : ℕ))
    bias := FloatLike.roundTo 6 ((self.bias * n + error) / (n + 1 : ℕ))
    sampleCount := n + 1 }

namespace CalibrationStore

def persist (self : CalibrationStore F) (disk : Disk F) (fails : Bool) : Disk F :=
  disk.write self.path [(.str "records", .list (self.records.values.map CalibrationRecord.asDict))] fails

def get (self : CalibrationStore F) (field horizon : String) : Option (CalibrationRecord F) :=
  self.records.get? (calibrationKey field horizon)

/-- `update`: the store, the files and the record it returns, none when the
write raises. The record is changed before the write. -/
def update (self : CalibrationStore F) (field horizon : String) (predicted actual : F) (disk : Disk F) (fails : Bool) :
    CalibrationStore F × Disk F × Option (CalibrationRecord F) :=
  let key := calibrationKey field horizon
  let rec_ := ((self.records.get? key).getD (.init field horizon)).addSample predicted actual
  let self := { self with records := self.records.set key rec_ }
  (self, self.persist disk fails, if fails then none else some rec_)

/-- The samples that a record has taken. -/
def samplesOf (self : CalibrationStore F) (key : String) : ℕ := (self.records.get? key).elim 0 CalibrationRecord.sampleCount

/-- An update is one sample of its record, whether or not the write succeeds. -/
theorem samplesOf_update (self : CalibrationStore F) (field horizon : String) (predicted actual : F) (disk : Disk F)
    (fails : Bool) (key : String) :
    (self.update field horizon predicted actual disk fails).1.samplesOf key =
      self.samplesOf key + if calibrationKey field horizon = key then 1 else 0 := by
  simp only [update, samplesOf, Dict.get?_set]
  split
  · rename_i here
    subst here
    cases self.records.get? (calibrationKey field horizon) <;> rfl
  · rfl

end CalibrationStore

end

end Centroid
