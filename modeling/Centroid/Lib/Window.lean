import Mathlib.Data.List.DropRight

/-- A queue of bounded length: appending to a full queue drops its head. -/
def Window.push {α : Type} (maxLen : ℕ) (queue : List α) (item : α) : List α :=
  (queue ++ [item]).drop ((queue ++ [item]).length - maxLen)

namespace Window

variable {α : Type}

theorem length_push (maxLen : ℕ) (queue : List α) (item : α) :
    (push maxLen queue item).length = min (queue.length + 1) maxLen := by
  simp only [push, List.length_drop, List.length_append, List.length_singleton]
  omega

theorem mem_push {maxLen : ℕ} {queue : List α} {item x : α} (member : x ∈ push maxLen queue item) :
    x ∈ queue ∨ x = item := by
  have inside := List.mem_of_mem_drop member
  simpa using inside

/-- A queue keeps the last of the items that went through it. -/
theorem push_rtake (maxLen : ℕ) (items : List α) (item : α) :
    push maxLen (items.rtake maxLen) item = (items ++ [item]).rtake maxLen := by
  cases maxLen with
  | zero => simp [push]
  | succ n =>
    rw [List.rtake_concat_succ]
    have kept : (items.rtake (n + 1)).length = min items.length (n + 1) := by
      rw [List.rtake, List.length_drop]
      omega
    rw [push, List.length_append, List.length_singleton, kept, List.drop_append_of_le_length (by omega), List.rtake,
      List.drop_drop, List.rtake]
    congr 2
    omega

theorem rtake_map {β : Type} (f : α → β) (items : List α) (n : ℕ) : (items.map f).rtake n = (items.rtake n).map f := by
  rw [List.rtake, List.rtake, List.length_map, List.map_drop]

end Window
