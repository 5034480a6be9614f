import Centroid.Lib.Value

/-- What reading a file of state as JSON meets. The files of state hold an
object, as their writers leave it, unless they are missing or garbled. -/
inductive StateFile (N : Type) where
  | missing
  | garbled
  | object (entries : List (Key N × Value N))

/-- The files of state, by path. -/
abbrev Disk (N : Type) := String → StateFile N

namespace Disk

variable {N : Type}

/-- A write through a temporary file: it replaces the whole target, or fails
and leaves the target alone. -/
def write (disk : Disk N) (path : String) (entries : List (Key N × Value N)) (fails : Bool) : Disk N :=
  if fails then disk else Function.update disk path (.object entries)

theorem write_of_ne (disk : Disk N) {path other : String} (ne : other ≠ path) (entries : List (Key N × Value N))
    (fails : Bool) : disk.write path entries fails other = disk other := by
  rw [write]
  split
  · rfl
  · exact Function.update_of_ne ne _ _

end Disk
