import Dimensional.Character.Blank
import Dimensional.Character.Digit
import Dimensional.Decimal.Rounding

/-!
# Reading numbers

A numeral is a sign, digits with an optional point, and an optional exponent of ten; or one of the
words `inf`, `infinity` and `nan` in any case.  Its value is the float nearest to the number it
spells.

`parse?` reads the ASCII form.  `parseText?` is for text that people type: white space at the ends
is dropped, digits of every script count as digits, and single underscores may separate them.
-/

namespace Dimensional.Decimal

/-- The number `digits * 10 ^ exponent`, or its negative. -/
structure Numeral where
  negative : Bool
  digits : Nat
  exponent : Int
  deriving Repr, DecidableEq

def ofPlaceValues (values : List Nat) : Nat := values.foldl (10 * · + ·) 0

/-- The float nearest to a nonnegative decimal.  Numbers beyond the range of the floats are settled
by their size alone, so that the exponent may be of any length. -/
def nearestFloat (digits : Nat) (exponent : Int) : Float :=
  if digits = 0 then 0.0
  else
    -- The first digit alone tells numbers beyond the greatest float and beneath the least.
    let size := digitCount digits + exponent
    if size > 310 then 1.0 / 0.0
    else if size < -330 then 0.0
    else Float.ofScientific digits (decide (exponent < 0)) exponent.natAbs

def Numeral.toFloat (n : Numeral) : Float :=
  let x := nearestFloat n.digits n.exponent
  if n.negative then -x else x

def digitValue (c : Char) : Nat := c.toNat - '0'.toNat

def ofDigits (cs : List Char) : Nat := ofPlaceValues (cs.map digitValue)

/-- Takes an optional sign off the front; `true` stands for the minus. -/
def takeSign : List Char → Bool × List Char
  | '-' :: rest => (true, rest)
  | '+' :: rest => (false, rest)
  | cs => (false, cs)

/-- What follows the digits: nothing, or an exponent mark, a sign and at least one digit.
Anything else makes the whole text unreadable, also an exponent mark with nothing behind it. -/
def parseExponent? : List Char → Option Int
  | [] => some 0
  | c :: rest =>
    if c = 'e' ∨ c = 'E' then
      let (negative, digits) := takeSign rest
      if digits ≠ [] ∧ digits.all Char.isDigit then
        some (if negative then -(ofDigits digits : Int) else ofDigits digits)
      else none
    else none

/-- The fraction digits after an optional point, and what follows them. -/
def takeFraction : List Char → List Char × List Char
  | '.' :: rest => rest.span Char.isDigit
  | cs => ([], cs)

def parseDigits? (negative : Bool) (cs : List Char) : Option Numeral := do
  let (whole, rest) := cs.span Char.isDigit
  let (fraction, rest) := takeFraction rest
  if whole.isEmpty && fraction.isEmpty then none
  let exponent ← parseExponent? rest
  -- The point is dropped from the digits, and the exponent makes up for it.
  return ⟨negative, ofDigits (whole ++ fraction), exponent - fraction.length⟩

def parse? (cs : List Char) : Option Float :=
  let (negative, rest) := takeSign cs
  -- The words are compared regardless of case and take a sign like digits do.
  let word := String.ofList (rest.map Char.toLower)
  if word = "inf" ∨ word = "infinity" then
    some (if negative then -1.0 / 0.0 else 1.0 / 0.0)
  else if word = "nan" then some (0.0 / 0.0)
  else (parseDigits? negative rest).map Numeral.toFloat

/-- A character of typed text as it counts in a numeral: decimal digits of every script become
ASCII digits and white space the plain space; other characters outside ASCII have no place. -/
def asciiForm? (c : Char) : Option Char :=
  if c.toNat < 128 then some c
  else match Character.decimalDigit? c with
    | some v => some (Nat.digitChar v)
    | none => if Character.isSpace c then some ' ' else none

/-- Takes out underscores that stand between two digits; there may be no others.  `afterDigit`
says whether the character before is a digit that may have an underscore behind it, so two in a
row are refused. -/
def dropSeparators? (afterDigit : Bool) : List Char → Option (List Char)
  | [] => some []
  | '_' :: rest =>
    if afterDigit && (rest.head?.any Char.isDigit) then dropSeparators? false rest else none
  | c :: rest => (dropSeparators? c.isDigit rest).map (c :: ·)

def parseText? (cs : List Char) : Option Float := do
  let ascii ← cs.mapM asciiForm?
  let digits ← dropSeparators? false (Character.trim Character.isSpace ascii)
  parse? digits

end Dimensional.Decimal
