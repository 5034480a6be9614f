import Centroid.Lib.Json
import Centroid.Lib.Rounding

namespace PyFloat

def isNegative : PyFloat → Bool
  | .finite q => q < 0
  | .infinity negative => negative
  | .nan => false

/-- The product without its rounding. -/
def mul : PyFloat → PyFloat → PyFloat
  | .finite p, .finite q => .finite (p * q)
  | .nan, _ => .nan
  | _, .nan => .nan
  | x, y => if x = .finite 0 ∨ y = .finite 0 then .nan else .infinity (x.isNegative ≠ y.isNegative)

def neg : PyFloat → PyFloat
  | .finite q => .finite (-q)
  | .infinity negative => .infinity (!negative)
  | .nan => .nan

def sub (x y : PyFloat) : PyFloat := x.add y.neg

/-- The quotient without its rounding; division by zero raises. -/
def div? : PyFloat → PyFloat → Option PyFloat
  | x, .finite q =>
    if q = 0 then none
    else match x with
      | .finite p => some (.finite (p / q))
      | .infinity negative => some (.infinity (negative ≠ decide (q < 0)))
      | .nan => some .nan
  | .finite _, .infinity _ => some (.finite 0)
  | _, _ => some .nan

/-- `min(a, b)`, which takes the second only when it is less. -/
def pyMin (a b : PyFloat) : PyFloat := if b.lt a then b else a

/-- `max(a, b)`, which takes the second only when it is greater. -/
def pyMax (a b : PyFloat) : PyFloat := if a.lt b then b else a

/-- `round(x, places)`, which is defined on the floats that are no numbers too. -/
def round (places : ℕ) : PyFloat → PyFloat
  | .finite q => .finite (Rounding.roundTo places q)
  | x => x

instance : Zero PyFloat := ⟨.finite 0⟩

instance : One PyFloat := ⟨.finite 1⟩

instance : LT PyFloat := ⟨fun x y => x.lt y = true⟩

instance : DecidableLT PyFloat := fun x y => inferInstanceAs (Decidable (x.lt y = true))

/-- A number from zero to one. -/
def InUnit (x : PyFloat) : Prop := ∃ q, x = .finite q ∧ 0 ≤ q ∧ q ≤ 1

theorem InUnit.ne_nan {x : PyFloat} (unit : x.InUnit) : x ≠ .nan := by
  obtain ⟨q, rfl, _, _⟩ := unit
  simp

/-- A float outside no bound is a number from zero to one, or none at all. -/
theorem inUnit_of_not_lt {x : PyFloat} (lower : x.lt (.finite 0) = false) (upper : (PyFloat.finite 1).lt x = false)
    (number : x ≠ .nan) : x.InUnit := by
  cases x with
  | finite q =>
    refine ⟨q, rfl, ?_, ?_⟩
    · exact not_lt.mp (of_decide_eq_false lower)
    · exact not_lt.mp (of_decide_eq_false upper)
  | nan => exact absurd rfl number
  | infinity negative =>
    cases negative with
    | true => cases lower
    | false => cases upper

/-- The clip to the unit interval has a number in it for every float. -/
theorem inUnit_clip (x : PyFloat) : (pyMax (.finite 0) (pyMin (.finite 1) x)).InUnit := by
  have most : ∃ q, pyMin (.finite 1) x = .finite q ∧ q ≤ 1 ∨ pyMin (.finite 1) x = .infinity true := by
    cases x with
    | finite q =>
      by_cases small : q < 1
      · exact ⟨q, Or.inl ⟨by rw [pyMin, lt, if_pos (decide_eq_true small)], small.le⟩⟩
      · exact ⟨1, Or.inl ⟨by rw [pyMin, lt, if_neg (by simpa using small)], le_rfl⟩⟩
    | nan => exact ⟨1, Or.inl ⟨rfl, le_rfl⟩⟩
    | infinity negative =>
      cases negative with
      | true => exact ⟨0, Or.inr rfl⟩
      | false => exact ⟨1, Or.inl ⟨rfl, le_rfl⟩⟩
  obtain ⟨q, ⟨clipped, upper⟩ | below⟩ := most
  · rw [clipped]
    by_cases positive : 0 < q
    · exact ⟨q, by rw [pyMax, lt, if_pos (decide_eq_true positive)], positive.le, upper⟩
    · exact ⟨0, by rw [pyMax, lt, if_neg (by simpa using positive)], le_rfl, zero_le_one⟩
  · rw [below]
    exact ⟨0, rfl, le_rfl, zero_le_one⟩

theorem InUnit.round {x : PyFloat} (unit : x.InUnit) (places : ℕ) : (x.round places).InUnit := by
  obtain ⟨q, rfl, lower, upper⟩ := unit
  exact ⟨_, rfl, Rounding.roundTo_nonneg places lower, Rounding.roundTo_le_one places upper⟩

/-- A division by what is not at most zero does not raise. -/
theorem exists_div? (x : PyFloat) {y : PyFloat} (above : y.le (.finite 0) = false) : ∃ z, x.div? y = some z := by
  cases y with
  | finite q =>
    have nonzero : q ≠ 0 := (not_le.mp (of_decide_eq_false above)).ne'
    cases x with
    | finite p => exact ⟨_, by rw [div?, if_neg nonzero]⟩
    | nan => exact ⟨_, by rw [div?, if_neg nonzero]⟩
    | infinity negative => exact ⟨_, by rw [div?, if_neg nonzero]⟩
  | nan =>
    cases x with
    | finite p => exact ⟨_, rfl⟩
    | nan => exact ⟨_, rfl⟩
    | infinity negative => exact ⟨_, rfl⟩
  | infinity other =>
    cases x with
    | finite p => exact ⟨_, rfl⟩
    | nan => exact ⟨_, rfl⟩
    | infinity negative => exact ⟨_, rfl⟩

end PyFloat
