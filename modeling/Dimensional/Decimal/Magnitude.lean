/-!
# The exact value of a float

The absolute value of a finite float is `mantissa * 2 ^ exponent`.  Everything that has to be exact
about floats (rounding to an integer, choosing the digits that are printed) works on this form.
-/

namespace Dimensional.Decimal

/-- The number `mantissa * 2 ^ exponent`. -/
structure Magnitude where
  mantissa : Nat
  exponent : Int
  deriving Repr, DecidableEq

/-- The sign bit: set also for negative zero. -/
def isNegative (x : Float) : Bool := Nat.pow 2 63 ≤ x.toBits.toNat

/-- The absolute value of a float, unless it is infinite or no number.  The exponent field takes
eleven bits; its greatest value is that of infinities and NaN, and zero is that of numbers whose
mantissa has no leading one. -/
def magnitude? (x : Float) : Option Magnitude :=
  let bits : Nat := x.toBits.toNat % Nat.pow 2 63
  let field : Nat := bits / Nat.pow 2 52
  let fraction : Nat := bits % Nat.pow 2 52
  if field = 2047 then none
  else if field = 0 then some ⟨fraction, -1074⟩
  else some ⟨Nat.pow 2 52 + fraction, (field : Int) - 1075⟩

namespace Magnitude

def ratio : Magnitude → Nat × Nat
  | ⟨m, .ofNat q⟩ => (m * Nat.pow 2 q, 1)
  | ⟨m, .negSucc q⟩ => (m, Nat.pow 2 (q + 1))

def isWhole (v : Magnitude) : Bool := v.ratio.1 % v.ratio.2 = 0

def isOdd (v : Magnitude) : Bool := v.isWhole && v.ratio.1 / v.ratio.2 % 2 = 1

theorem ratio_den_pos (v : Magnitude) : 0 < v.ratio.2 := by
  obtain ⟨m, q | q⟩ := v
  · exact Nat.one_pos
  · exact Nat.two_pow_pos (q + 1)

end Magnitude

end Dimensional.Decimal
