import Centroid.Lib.Binary64
import Centroid.Lib.FloatArith

/-- What a program asks of its floats, besides the four operations and the order. -/
class FloatLike (F : Type) where
  /-- A number that stands in the program. -/
  literal : ℚ → F
  /-- An integer of a document, which is no float. -/
  integer : ℕ → F
  abs : F → F
  roundTo : ℕ → F → F

/-- The built-in `sum`. In which order and with what care it adds floats is left to the version
of the language. -/
class FloatSum (F : Type) where
  sum : List F → F

section Exact

instance : FloatLike ℚ where
  literal q := q
  integer n := n
  abs x := |x|
  roundTo := Rounding.roundTo

instance : FloatSum ℚ := ⟨List.sum⟩

@[simp] theorem literal_rat (q : ℚ) : (FloatLike.literal q : ℚ) = q := rfl

@[simp] theorem integer_rat (n : ℕ) : (FloatLike.integer n : ℚ) = n := rfl

@[simp] theorem abs_rat (x : ℚ) : FloatLike.abs x = |x| := rfl

@[simp] theorem roundTo_rat (places : ℕ) (x : ℚ) : FloatLike.roundTo places x = Rounding.roundTo places x := rfl

@[simp] theorem sum_rat (values : List ℚ) : FloatSum.sum values = values.sum := rfl

end Exact

namespace PyFloat

/-- The float nearest to a number, infinite from halfway between the greatest float and
`2 ^ 1024` on. -/
def ofRat (q : ℚ) : PyFloat :=
  let x := Binary64.nearest q
  if |x| < 2 ^ 1024 then .finite x else .infinity (decide (q < 0))

def rounded : PyFloat → PyFloat
  | .finite q => ofRat q
  | x => x

instance : Add PyFloat := ⟨fun x y => (x.add y).rounded⟩

instance : Sub PyFloat := ⟨fun x y => (x.sub y).rounded⟩

instance : Mul PyFloat := ⟨fun x y => (x.mul y).rounded⟩

/-- A division by zero, which raises, is left to its callers. -/
instance : Div PyFloat := ⟨fun x y => ((x.div? y).map rounded).getD .nan⟩

/-- An integer beside a float. One of `2 ^ 1024` or more, which raises, is none here. -/
instance : NatCast PyFloat := ⟨fun n => .finite (Binary64.nearest n)⟩

instance : LE PyFloat := ⟨fun x y => x.le y = true⟩

instance : DecidableLE PyFloat := fun x y => inferInstanceAs (Decidable (x.le y = true))

instance : Max PyFloat := ⟨pyMax⟩

instance : Min PyFloat := ⟨pyMin⟩

instance : FloatLike PyFloat where
  literal := ofRat
  integer n := .finite n
  abs x := match x with
    | .finite q => .finite |q|
    | .infinity _ => .infinity false
    | .nan => .nan
  roundTo places x := (x.round places).rounded

/-- The sum from left to right. -/
@[reducible]
def leftSum : FloatSum PyFloat := ⟨fun values => values.foldl (· + ·) 0⟩

end PyFloat
