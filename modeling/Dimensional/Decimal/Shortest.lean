import Dimensional.Decimal.Layout
import Dimensional.Decimal.Rounding

/-!
# The shortest digits that read back

`shortest x` shows a float with the fewest significant digits from which the same float is read
again, and among those the ones nearest to it.  A decimal reads back when it lies in the interval of
reals that round to the float; the ends belong to it when the mantissa is even.  Decimals with `n`
digits form a grid around the value, and if any point of the grid lies in the interval, one of the
two next to the value does; so the first `n` with such a point gives the digits.
-/

namespace Dimensional.Decimal

namespace Magnitude

def leastNormal : Nat := Nat.pow 2 52

/-- Four times the distance to the lower end of the interval, in units of the last place: the float
below a power of two is only half as far away. -/
def gapBelow (v : Magnitude) : Nat :=
  if v.mantissa = leastNormal ∧ -1074 < v.exponent then 1 else 2

/-- Whole numbers that stand in the same ratios as a quarter of a unit in the last place of `v` and
a step of the grid `10 ^ power`. -/
def commonUnits (v : Magnitude) (power : Int) : Nat × Nat :=
  let two := 2 - v.exponent
  (Nat.pow 2 (-two).toNat * Nat.pow 10 (-power).toNat,
    Nat.pow 2 two.toNat * Nat.pow 10 power.toNat)

/-- The point of the grid `10 ^ power` next to `v` that reads back as `v`; of two the nearer, and
the even one of two that are equally near. -/
def gridPoint? (v : Magnitude) (power : Int) : Option Nat :=
  let (quarter, step) := v.commonUnits power
  -- The value and the ends of its interval, four times over to keep the ends whole.
  let value := 4 * v.mantissa * quarter
  let low := (4 * v.mantissa - v.gapBelow) * quarter
  let high := (4 * v.mantissa + 2) * quarter
  -- An even mantissa wins ties, so the ends read back as well.
  let inside (n : Nat) : Bool :=
    let point := n * step
    if v.mantissa % 2 = 0 then low ≤ point && point ≤ high else low < point && point < high
  let floor := value / step
  match inside floor, inside (floor + 1) with
  | false, false => none
  | true, false => some floor
  | false, true => some (floor + 1)
  | true, true => some (roundHalfEven value step)

/-- Enough digits to tell any two floats apart. -/
def enoughDigits : Nat := 17

/-- The shortest digits of a positive value as one number, with the power of ten of the last. -/
def shortestDigits (v : Magnitude) : Nat × Int :=
  let first := decade v.ratio.1 v.ratio.2
  -- A grid with `count + 1` digits for numbers of this size.
  let onGrid? (count : Nat) : Option (Nat × Int) :=
    let power := first - count
    (v.gridPoint? power).map fun n => (n, power)
  ((List.range enoughDigits).findSome? onGrid?).getD (0, 0)

end Magnitude

/-- As many digits as needed, exponents from the sixteenth power of ten, whole numbers with `.0`. -/
def shortestStyle : Style := ⟨16, ".0"⟩

def Magnitude.shortest (v : Magnitude) : String :=
  if v.mantissa = 0 then shortestStyle.write ['0'] 0
  else
    let (n, power) := v.shortestDigits
    shortestStyle.write (Nat.toDigits 10 n) (power + digitCount n - 1)

/-- A float with the fewest digits that read back. -/
def shortest (x : Float) : String := withSign Magnitude.shortest x

end Dimensional.Decimal
