/-!
# Lower case, as far as it reaches ASCII

Names that are compared without regard to case here are all ASCII.  Besides the capital letters
A to Z only one character has a lower-case form inside ASCII, the Kelvin sign U+212A, whose form is
`k`; so folding these and leaving all else alone decides every such comparison.
-/

namespace Dimensional.Character

/-- The lower-case form, where that is an ASCII letter. -/
def lower (c : Char) : Char := if c = '\u212a' then 'k' else c.toLower

end Dimensional.Character
