import Dimensional.Decimal.Layout
import Dimensional.Decimal.Rounding

/-!
# Six significant digits

`general x` shows a float with at most six significant digits, correctly rounded, and without
trailing zeros: positional from `10 ^ -4` up to `10 ^ 6`, with an exponent mark outside.
-/

namespace Dimensional.Decimal

/-- The `count` leading digits of `num / den` as one number, and the power of ten of the first. -/
def leadingDigits (count num den : Nat) : Nat × Int :=
  let power := decade num den
  let scaled := scaleDown num den (power + 1 - count)
  let digits := roundHalfEven scaled.1 scaled.2
  -- Rounding may carry into a digit more than was asked for.
  if digits = Nat.pow 10 count then (Nat.pow 10 (count - 1), power + 1) else (digits, power)

/-- Six significant digits, exponents from the sixth power of ten, whole numbers bare. -/
def generalStyle : Style := ⟨6, ""⟩

def Magnitude.general (v : Magnitude) : String :=
  if v.mantissa = 0 then generalStyle.write ['0'] 0
  else
    let (digits, power) := leadingDigits 6 v.ratio.1 v.ratio.2
    generalStyle.write (Nat.toDigits 10 digits) power

def general (x : Float) : String := withSign Magnitude.general x

end Dimensional.Decimal
