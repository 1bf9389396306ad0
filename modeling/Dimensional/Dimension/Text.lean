import Dimensional.Decimal.Integer
import Dimensional.Decimal.Significant
import Dimensional.Dimension.Basic

/-!
# The text of a dimension

Two notations: as a unit expression over the base units (`kg/(m*s^2)`), and as powers of the base
quantities (`M^1 · L^-1`).  Exponents next to a whole number are written as that number.  An
exponent that is not finite has no text, so both notations may fail.
-/

namespace Dimensional.Exponents

/-- Exponents below this are left out. -/
def negligible : Float := 1e-12

/-- Are two numbers within a billionth of each other, absolutely or of the greater? -/
def isClose (a b : Float) : Bool :=
  if a == b then true
  else if a.isInf || b.isInf then false
  else
    let gap := (b - a).abs
    gap ≤ (1e-9 * b).abs || gap ≤ (1e-9 * a).abs || gap ≤ 1e-9

def exponentText (x : Float) : Except Error String :=
  match Decimal.nearestInt? x with
  | some n =>
    .ok (if isClose x (Float.ofInt n) then Decimal.integer n else Decimal.general x)
  | none => .error (.conversion (if x.isNaN then .nanToInteger else .infinityToInteger))

/-- A base unit raised to a positive power; the first power is the unit itself. -/
def factorText (symbol : String) (x : Float) : Except Error String := do
  let text ← exponentText x
  return if text = "1" then symbol else symbol ++ "^" ++ text

/-- The factors of a unit expression: those above the line and those below. -/
def factors : List (String × Float) → Except Error (List String × List String)
  | [] => .ok ([], [])
  | (symbol, x) :: rest => do
    if x.abs < negligible then factors rest
    else
      let factor ← factorText symbol x.abs
      let (above, below) ← factors rest
      return if x > 0 then (factor :: above, below) else (above, factor :: below)

def quotientText (above below : List String) : String :=
  let numerator := if above.isEmpty then "1" else "*".intercalate above
  match below with
  | [] => numerator
  | [factor] => numerator ++ "/" ++ factor
  | factors => numerator ++ "/(" ++ "*".intercalate factors ++ ")"

def unitText (xs : Exponents) : Except Error String := do
  let (above, below) ← factors (baseUnits.zip xs)
  return quotientText above below

def powers : List (String × Float) → Except Error (List String)
  | [] => .ok []
  | (symbol, x) :: rest => do
    if x.abs < negligible then powers rest
    else
      let text ← exponentText x
      return (symbol ++ "^" ++ text) :: (← powers rest)

def powerText (xs : Exponents) : Except Error String := do
  match ← powers (baseSymbols.zip xs) with
  | [] => return "1"
  | parts => return " · ".intercalate parts

end Dimensional.Exponents

namespace Dimensional.Dimension

def unitText (d : Dimension) : Except Error String := d.exponents.unitText

end Dimensional.Dimension
