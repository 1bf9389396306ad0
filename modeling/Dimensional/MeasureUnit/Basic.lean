import Dimensional.Dimension.Basic
import Dimensional.Power.Scalar

/-!
# Units of measure

A unit is a scale, the factor from the unit to base units, together with a dimension and the text
that it was written as.  Products, quotients and powers have no text of their own.
-/

namespace Dimensional

structure MeasureUnit where
  /-- How many base units one of this unit is. -/
  scale : Float
  dims : Dimension
  text : String := ""

def divide (x y : Float) : Except ArithmeticFault Float :=
  if y == 0.0 then .error .divisionByZero else .ok (x / y)

/-- A number that is complex cannot be a scale. -/
def Scalar.toFloat : Scalar → Except Error Float
  | .real x => .ok x
  | .complex .. => .error (.conversion (.notNumeric "complex"))

def liftFault {α : Type} : Except ArithmeticFault α → Except Error α
  | .ok a => .ok a
  | .error fault => .error (.arithmetic fault)

namespace MeasureUnit

def one : MeasureUnit := ⟨1.0, .one, ""⟩

def ofData (scale dims : Datum) (text : String) : Except Error MeasureUnit := do
  return ⟨← scale.toFloat, ← Dimension.ofDatum dims, text⟩

def mul (a b : MeasureUnit) : MeasureUnit := ⟨a.scale * b.scale, a.dims * b.dims, ""⟩

def div (a b : MeasureUnit) : Except Error MeasureUnit := do
  let scale ← liftFault (divide a.scale b.scale)
  return ⟨scale, a.dims / b.dims, ""⟩

def pow (a : MeasureUnit) (x : Float) : Except Error MeasureUnit := do
  let scale ← liftFault (Scalar.realPow a.scale x)
  return ⟨← scale.toFloat, a.dims.pow x, ""⟩

end MeasureUnit

end Dimensional
