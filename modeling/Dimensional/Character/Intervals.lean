/-!
# Sets of code points

A property of characters that a standard lists is kept as an ascending list of closed intervals of
code points.  `Intervals.contains` looks a code point up; it stops at the first interval that starts
beyond it, so the characters of everyday text are decided by the first few entries.
-/

namespace Dimensional

/-- Closed intervals of code points, ascending and disjoint. -/
abbrev Intervals := List (Nat × Nat)

def Intervals.contains : Intervals → Nat → Bool
  | [], _ => false
  | (first, last) :: rest, n =>
    if n < first then false else if n ≤ last then true else Intervals.contains rest n

end Dimensional
