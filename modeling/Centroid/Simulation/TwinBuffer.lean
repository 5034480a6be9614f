import Centroid.Lib.Files
import Mathlib.Algebra.Order.Ring.Rat

namespace Centroid

/-- An isolated copy of the world snapshot. -/
structure TwinState where
  snapshot : List (Key ℚ × Value ℚ)
  forkedAt : ℚ
  forkId : String
  cycle : ℕ

structure TwinBuffer where
  path : String
  cycle : ℕ := 0

/-- How reading the snapshot file fails. -/
inductive SnapshotError where
  | fileNotFound
  | jsonDecodeError

namespace TwinBuffer

def tick (self : TwinBuffer) : TwinBuffer := { self with cycle := self.cycle + 1 }

/-- `fork`, with the time and the identifier that it draws. -/
def fork (self : TwinBuffer) (disk : Disk ℚ) (forkId : String) (now : ℚ) : Except SnapshotError TwinState :=
  match disk self.path with
  | .missing => .error .fileNotFound
  | .garbled => .error .jsonDecodeError
  | .object snapshot => .ok ⟨snapshot, now, forkId, self.cycle⟩

/-- `actual_snapshot`: read afresh, empty when the file is missing. -/
def actualSnapshot (self : TwinBuffer) (disk : Disk ℚ) : Except SnapshotError (List (Key ℚ × Value ℚ)) :=
  match disk self.path with
  | .missing => .ok []
  | .garbled => .error .jsonDecodeError
  | .object snapshot => .ok snapshot

end TwinBuffer

end Centroid
