import Dimensional.Power.Complex

/-!
# Powers of unit scales

A number in a unit expression is real as long as powers of negative numbers stay out.  Powers that
are complex are kept, because they decide later on which error the expression ends in.
-/

namespace Dimensional

/-- A number as unit expressions can produce it. -/
inductive Scalar where
  | real (x : Float)
  | complex (z : Power.Complex)

namespace Scalar

def realPow (x y : Float) : Except ArithmeticFault Scalar :=
  if y == 0.0 then .ok (.real 1.0)
  else if x.isNaN then .ok (.real x)
  -- One to any exponent is one, even to NaN.
  else if y.isNaN then .ok (.real (if x == 1.0 then 1.0 else y))
  else if y.isInf then .ok (.real (Power.toInfinite x y))
  else if x.isInf then .ok (.real (Power.ofInfinite x y))
  else if x == 0.0 then (Power.ofZero x y).map .real
  else if x > 0.0 then (Power.ofPositive x y).map .real
  else if Power.isWhole y then (Power.ofNegative x y).map .real
  else (Power.ofNegativeFraction x y).map .complex

def pow : Scalar → Float → Except ArithmeticFault Scalar
  | .real x, y => realPow x y
  | .complex z, y => (z.pow y).map .complex

end Scalar

end Dimensional
