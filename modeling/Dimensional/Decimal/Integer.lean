import Dimensional.Decimal.Magnitude
import Dimensional.Decimal.Rounding

/-!
# Whole numbers

The text of natural numbers and integers, the integer nearest to a float, and the float nearest to
an integer.
-/

namespace Dimensional.Decimal

def natural (n : Nat) : String := String.ofList (Nat.toDigits 10 n)

def integer : Int → String
  | .ofNat n => natural n
  | .negSucc n => "-" ++ natural (n + 1)

/-- How many digits the text of an integer may have. -/
def maxDigits : Nat := 4300

/-- The least natural number that has more digits than that.  Irreducible, so that comparing terms
never computes the power. -/
@[irreducible] def digitLimit : Nat := Nat.pow 10 maxDigits

/-- Is the text of an integer short enough to be made?  The sign is not counted. -/
def isWritable (n : Int) : Bool := n.natAbs < digitLimit

theorem isWritable_eq_false_iff {n : Int} : isWritable n = false ↔ digitLimit ≤ n.natAbs := by
  rw [isWritable, decide_eq_false_iff_not, Nat.not_lt]

/-- The integer nearest to a finite float, the even one of two that are equally near. -/
def nearestInt? (x : Float) : Option Int :=
  (magnitude? x).map fun v =>
    let n : Int := roundHalfEven v.ratio.1 v.ratio.2
    if isNegative x then -n else n

def floatOfInt? (n : Int) : Option Float :=
  let x := Float.ofInt n
  if x.isFinite then some x else none

end Dimensional.Decimal
