import Dimensional.Decimal.Numeral
import Dimensional.Error

/-!
# Values as numbers

A value counts as a number when it is one, a truth value (one or zero), or a text that spells one.
-/

namespace Dimensional.Datum

def toFloat : Datum → Except Error Float
  | .bool b => .ok (if b then 1.0 else 0.0)
  | .int n => match Decimal.floatOfInt? n with
    | some x => .ok x
    | none => .error (.conversion .tooLarge)
  | .real x => .ok x
  | .text s => match Decimal.parseText? s.toList with
    | some x => .ok x
    | none => .error (.conversion (.unreadable s))
  | d => .error (.conversion (.notNumeric d.sortName))

/-- The numbers that several values stand for; the first that is none decides the error. -/
def toFloats (items : List Datum) : Except Error (List Float) := items.mapM toFloat

end Dimensional.Datum
