import Dimensional.Character.Printable

/-!
# Quoted text

Messages show a text between quotation marks.  The single mark is used unless the text holds a
single mark and no double one.  A backslash and the mark itself are written after a backslash, line
feed, carriage return and tab by their letters, and every other character that is not printable by
its code point in two, four or eight hexadecimal digits.
-/

namespace Dimensional

namespace Quoted

/-- The last `width` hexadecimal digits of a number. -/
def hexDigits : Nat → Nat → List Char
  | 0, _ => []
  -- The last digit is peeled off, so leading zeros fill the width.
  | width + 1, n => hexDigits width (n / 16) ++ [Nat.digitChar (n % 16)]

/-- A code point in the shortest of the three escape forms that holds it. -/
def escapeCode (n : Nat) : List Char :=
  if n ≤ 0xff then '\\' :: 'x' :: hexDigits 2 n
  else if n ≤ 0xffff then '\\' :: 'u' :: hexDigits 4 n
  else '\\' :: 'U' :: hexDigits 8 n

def escape (mark c : Char) : List Char :=
  if c = mark ∨ c = '\\' then ['\\', c]
  else if c = '\n' then ['\\', 'n']
  else if c = '\r' then ['\\', 'r']
  else if c = '\t' then ['\\', 't']
  else if Character.isPrintable c then [c]
  else escapeCode c.toNat

def mark (cs : List Char) : Char :=
  if cs.contains '\'' && !cs.contains '"' then '"' else '\''

def encode (cs : List Char) : List Char :=
  mark cs :: cs.flatMap (escape (mark cs)) ++ [mark cs]

end Quoted

/-- A text as messages show it: between quotation marks. -/
def quote (s : String) : String := String.ofList (Quoted.encode s.toList)

end Dimensional
