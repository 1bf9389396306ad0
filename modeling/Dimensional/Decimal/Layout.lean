import Dimensional.Decimal.Magnitude

/-!
# Laying out digits

A number that is given by its significant digits and the power of ten of the first of them is
written with a point among the digits or with an exponent mark.  A `Style` says where the one
notation gives way to the other and whether a whole number keeps a point.
-/

namespace Dimensional.Decimal

/-- The decisions of a format: how digits and a power of ten become text. -/
structure Style where
  /-- The first power of ten that is written with an exponent mark. -/
  ceiling : Int
  /-- What follows a whole number that is written without an exponent mark. -/
  whole : String

namespace Style

/-- The digits with trailing zeros taken off, but never all of them. -/
def significant (digits : List Char) : List Char :=
  match (digits.reverse.dropWhile (· = '0')).reverse with
  | [] => ['0']
  | kept => kept

/-- Digits with a point: the first digit stands for a multiple of `10 ^ power`. -/
def positional (style : Style) (digits : List Char) : Int → String
  | .negSucc gap => String.ofList ("0.".toList ++ List.replicate gap '0' ++ digits)
  | .ofNat power =>
    match digits.drop (power + 1) with
    | [] =>
      String.ofList (digits ++ List.replicate (power + 1 - digits.length) '0') ++ style.whole
    | fraction => String.ofList (digits.take (power + 1) ++ '.' :: fraction)

/-- One digit before the point, and an exponent of two digits or more after the mark. -/
def exponential (digits : List Char) (power : Int) : String :=
  let fraction := match digits.drop 1 with
    | [] => []
    | rest => '.' :: rest
  let sign := if power < 0 then '-' else '+'
  let exponent := Nat.toDigits 10 power.natAbs
  let padding := List.replicate (2 - exponent.length) '0'
  String.ofList (digits.take 1 ++ fraction ++ 'e' :: sign :: padding ++ exponent)

def write (style : Style) (digits : List Char) (power : Int) : String :=
  let digits := significant digits
  if -4 ≤ power ∧ power < style.ceiling then style.positional digits power
  else exponential digits power

end Style

/-- The text of a float, given that of its finite nonnegative values. -/
def withSign (finite : Magnitude → String) (x : Float) : String :=
  if x.isNaN then "nan"
  else
    let text := match magnitude? x with
      | some v => finite v
      | none => "inf"
    if isNegative x then "-" ++ text else text

end Dimensional.Decimal
