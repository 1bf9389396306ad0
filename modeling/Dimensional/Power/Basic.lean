import Dimensional.Decimal.Magnitude
import Dimensional.Error

/-!
# Powers of real numbers

The power of one float to another where the result is a real number, with the cases that have no
result told apart from those that merely round to zero.  Every result that involves an infinity, a
zero or a one is settled here before `Float.pow` is asked.
-/

namespace Dimensional.Power

def infinity : Float := 1.0 / 0.0

def isWhole (x : Float) : Bool := (Decimal.magnitude? x).any Decimal.Magnitude.isWhole

def isOdd (x : Float) : Bool := (Decimal.magnitude? x).any Decimal.Magnitude.isOdd

/-- The power of a number to an infinite exponent: how its absolute value compares with one decides
all. -/
def toInfinite (x y : Float) : Float :=
  let size := x.abs
  if size == 1.0 then 1.0
  else if decide (y > 0.0) = decide (size > 1.0) then infinity
  else 0.0

/-- The power of an infinite number to a finite exponent other than zero.  The sign survives only
under odd exponents, and a negative exponent turns the infinity into a zero. -/
def ofInfinite (x y : Float) : Float :=
  if y > 0.0 then if isOdd y then x else infinity
  else if isOdd y && x < 0.0 then -0.0 else 0.0

/-- The power of a zero, which keeps its sign, to a finite exponent other than zero. -/
def ofZero (x y : Float) : Except ArithmeticFault Float :=
  if y < 0.0 then .error .zeroToNegative else .ok (if isOdd y then x else 0.0)

/-- The power of a positive number to a finite exponent other than zero.  A result that rounds to
zero is a result; one that rounds to infinity is not. -/
def ofPositive (x y : Float) : Except ArithmeticFault Float :=
  if x == 1.0 then .ok 1.0
  else
    let z := Float.pow x y
    if z.isInf then .error .outOfRange else .ok z

/-- The power of a negative number to a whole exponent other than zero. -/
def ofNegative (x y : Float) : Except ArithmeticFault Float :=
  (ofPositive (-x) y).map fun z => if isOdd y then -z else z

/-- One to any exponent is one. -/
theorem ofPositive_one (y : Float) : ofPositive 1.0 y = .ok 1.0 := by
  have h : ((1.0 : Float) == 1.0) = true := by decide
  simp [ofPositive, h]

end Dimensional.Power
