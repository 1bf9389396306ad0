import Dimensional.Power.Basic

/-!
# Powers of complex numbers

A negative number to a power that is not whole is complex, and so are the powers of a complex
number.  Small whole exponents are multiplied out; otherwise the power is taken of the length and
the angle is multiplied.
-/

namespace Dimensional.Power

structure Complex where
  re : Float
  im : Float

namespace Complex

def one : Complex := ⟨1.0, 0.0⟩

def mul (a b : Complex) : Complex := ⟨a.re * b.re - a.im * b.im, a.re * b.im + a.im * b.re⟩

/-- The reciprocal of a number, unless that is zero.  Numerator and denominator are divided by
the greater part first, so that squares of the parts cannot overflow; with a NaN neither part is
the greater one. -/
def inv? (b : Complex) : Option Complex :=
  if b.re.abs ≥ b.im.abs then
    if b.re.abs == 0.0 then none
    else
      let ratio := b.im / b.re
      let denominator := b.re + b.im * ratio
      some ⟨1.0 / denominator, -ratio / denominator⟩
  else if b.im.abs ≥ b.re.abs then
    let ratio := b.re / b.im
    let denominator := b.re * ratio + b.im
    some ⟨ratio / denominator, -1.0 / denominator⟩
  else some ⟨0.0 / 0.0, 0.0 / 0.0⟩

def length (a : Complex) : Float :=
  let (short, long) :=
    if a.re.abs < a.im.abs then (a.re.abs, a.im.abs) else (a.im.abs, a.re.abs)
  if long == 0.0 then 0.0
  else
    let slope := short / long
    long * (1.0 + slope * slope).sqrt

def ofPolar (length angle : Float) : Complex := ⟨length * angle.cos, length * angle.sin⟩

/-- The number `acc * base ^ n` by repeated squaring. -/
def mulPow (acc base : Complex) (n : Nat) : Complex :=
  if n = 0 then acc
  else mulPow (if n % 2 = 1 then acc.mul base else acc) (base.mul base) (n / 2)
termination_by n
decreasing_by omega

/-- The power to a whole exponent of the given size and sign, unless that divides by zero. -/
def wholePow (a : Complex) (negative : Bool) (n : Nat) : Except ArithmeticFault Complex :=
  let power := mulPow one a n
  if negative then
    match power.inv? with
    | some b => .ok b
    | none => .error .complexZeroToNegative
  else .ok power

/-- The power by way of length and angle.  An infinite angle is no direction. -/
def polarPow (a : Complex) (y : Float) : Except ArithmeticFault Complex :=
  if a.length == 0.0 then
    if y < 0.0 then .error .complexZeroToNegative else .ok ⟨0.0, 0.0⟩
  else
    let angle := Float.atan2 a.im a.re * y
    if angle.isInf then .error .complexZeroToNegative
    else .ok (ofPolar (Float.pow a.length y) angle)

/-- The greatest whole exponent that is multiplied out. -/
def multiplyLimit : Float := 100.0

def pow (a : Complex) (y : Float) : Except ArithmeticFault Complex := do
  let power ← match Decimal.magnitude? y with
    | some v =>
      if v.isWhole && y.abs ≤ multiplyLimit then
        wholePow a (y < 0.0) (v.ratio.1 / v.ratio.2)
      else polarPow a y
    -- Infinite and NaN exponents have no magnitude.
    | none => polarPow a y
  if power.re.isInf || power.im.isInf then throw .complexOutOfRange else return power

end Complex

def pi : Float := 3.141592653589793

/-- The power of a negative number to a finite exponent that is not whole. -/
def ofNegativeFraction (x y : Float) : Except ArithmeticFault Complex :=
  match ofPositive (-x) y with
  | .ok length => .ok (.ofPolar length (pi * y))
  | .error _ => .error .complexOutOfRange

end Dimensional.Power
