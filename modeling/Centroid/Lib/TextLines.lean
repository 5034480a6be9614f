import Mathlib.Data.List.Basic
import Mathlib.Data.Nat.Notation

namespace TextLines

/-- The characters at which `splitlines` ends a line. -/
def isLineBreak (c : Char) : Bool := c.toNat ∈ [10, 11, 12, 13, 28, 29, 30, 133, 8232, 8233]

/-- The characters that `strip` removes. -/
def isSpace (c : Char) : Bool :=
  c.toNat ∈ [9, 10, 11, 12, 13, 28, 29, 30, 31, 32, 133, 160, 5760, 8232, 8233, 8239, 8287, 12288] ∨
    8192 ≤ c.toNat ∧ c.toNat ≤ 8202

/-- The lines of a text whose first line begins with what is already read,
backwards. A carriage return and a line feed end one line together. -/
def splitFrom (line : List Char) : List Char → List (List Char)
  | [] => if line = [] then [] else [line.reverse]
  | c :: rest =>
    if c = '\r' ∧ rest.head? = some '\n' then splitFrom line rest
    else if isLineBreak c then line.reverse :: splitFrom [] rest
    else splitFrom (c :: line) rest

/-- `splitlines`. -/
def splitLines (text : List Char) : List (List Char) := splitFrom [] text

/-- Whether `strip` leaves nothing. -/
def isBlankLine (line : List Char) : Bool := line.all isSpace

theorem splitFrom_append (line text rest : List Char) (plain : ∀ c ∈ text, isLineBreak c = false) :
    splitFrom line (text ++ '\n' :: rest) = (line.reverse ++ text) :: splitFrom [] rest := by
  induction text generalizing line with
  | nil =>
    have feed : '\n' ≠ '\r' := by decide
    rw [List.nil_append, splitFrom, if_neg fun both => feed both.1, if_pos (by decide), List.append_nil]
  | cons c text ih =>
    have plainHere := plain c List.mem_cons_self
    have notReturn : ¬ (c = '\r' ∧ (text ++ '\n' :: rest).head? = some '\n') := by
      rintro ⟨rfl, -⟩
      cases plainHere
    rw [List.cons_append, splitFrom, if_neg notReturn, if_neg (by rw [plainHere]; decide),
      ih _ fun other member => plain other (List.mem_cons_of_mem _ member), List.reverse_cons, List.append_assoc,
      List.singleton_append]

/-- A file of lines without breaks in them has just these lines. -/
theorem splitLines_flatMap {α : Type} (line : α → List Char) (items : List α)
    (plain : ∀ item ∈ items, ∀ c ∈ line item, isLineBreak c = false) :
    splitLines (items.flatMap fun item => line item ++ ['\n']) = items.map line := by
  induction items with
  | nil => rfl
  | cons item items ih =>
    have first := splitFrom_append [] (line item) (items.flatMap fun item => line item ++ ['\n'])
      (plain item List.mem_cons_self)
    rw [List.flatMap_cons, List.append_assoc, List.singleton_append, splitLines, first, List.map_cons]
    exact congrArg _ (ih fun other member => plain other (List.mem_cons_of_mem _ member))

end TextLines
