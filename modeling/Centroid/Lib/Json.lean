import Centroid.Lib.Value
import Mathlib.Algebra.Order.Ring.Rat

/-- A float, by the number it stands for. The reader of JSON accepts the
three that are no numbers. -/
inductive PyFloat where
  | finite (q : ℚ)
  | nan
  | infinity (negative : Bool)
  deriving DecidableEq

namespace PyFloat

/-- Every comparison with `nan` is false. -/
def lt : PyFloat → PyFloat → Bool
  | .finite p, .finite q => p < q
  | .finite _, .infinity negative => !negative
  | .infinity negative, .finite _ => negative
  | .infinity negative, .infinity other => negative && !other
  | _, _ => false

def le : PyFloat → PyFloat → Bool
  | .finite p, .finite q => p ≤ q
  | .finite _, .infinity negative => !negative
  | .infinity negative, .finite _ => negative
  | .infinity negative, .infinity other => negative || !other
  | _, _ => false

/-- The sum without its rounding. -/
def add : PyFloat → PyFloat → PyFloat
  | .finite p, .finite q => .finite (p + q)
  | .finite _, .infinity negative => .infinity negative
  | .infinity negative, .finite _ => .infinity negative
  | .infinity negative, .infinity other => if negative = other then .infinity negative else .nan
  | _, _ => .nan

end PyFloat

inductive JsonNumber where
  | int (n : ℤ)
  | float (x : PyFloat)
  deriving DecidableEq

/-- `float(number)`, which overflows on an integer that would be rounded to
2 to the 1024 or more. The rounding of the others is left out. -/
def JsonNumber.toFloat? : JsonNumber → Option PyFloat
  | .int n => if n.natAbs < 2 ^ 1024 - 2 ^ 970 then some (.finite n) else none
  | .float x => some x

/-- A value as `json.loads` returns it. -/
abbrev Json := Value JsonNumber

/-- A JSON object. -/
abbrev JsonObject := List (Key JsonNumber × Json)

def JsonObject.get? (data : JsonObject) (name : String) : Option Json :=
  Assoc.get? data (.str name)

/-- `str(value)`; the text of a float, a list or a dictionary is given by
`render`. -/
def Value.pyStr (render : Json → String) : Json → String
  | .null => "None"
  | .bool b => if b then "True" else "False"
  | .num (.int n) => toString n
  | .str s => s
  | value => render value

/-- `bool(value)`: of the numbers only the zeros are false. -/
def Value.pyBool : Json → Bool
  | .null => false
  | .bool b => b
  | .num (.int n) => n ≠ 0
  | .num (.float x) => x ≠ .finite 0
  | .str s => s ≠ ""
  | .stamp _ _ => true
  | .list items => !items.isEmpty
  | .dict entries => !entries.isEmpty
  | .bytes text => text ≠ ""
  | .set members => !members.isEmpty
