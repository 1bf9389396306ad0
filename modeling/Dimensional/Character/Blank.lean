import Dimensional.Character.Intervals

/-!
# Blanks

White space after Unicode 14 (`isSpace`) and the wider class of blanks that separate words in a
text (`isBlank`), which adds the four information separators U+001C to U+001F.  `strip` takes the
blanks off both ends of a text.
-/

namespace Dimensional.Character

/-- Where the characters with the property White_Space lie. -/
def spaces : Intervals :=
  [(0x9, 0xd), (0x20, 0x20), (0x85, 0x85), (0xa0, 0xa0), (0x1680, 0x1680), (0x2000, 0x200a),
   (0x2028, 0x2029), (0x202f, 0x202f), (0x205f, 0x205f), (0x3000, 0x3000)]

def isSpace (c : Char) : Bool := spaces.contains c.toNat

/-- Does this character separate words: white space or an information separator? -/
def isBlank (c : Char) : Bool := isSpace c || (0x1c ≤ c.toNat && c.toNat ≤ 0x1f)

/-- What is left after the longest prefix and the longest suffix of characters in a class. -/
def trim (p : Char → Bool) (cs : List Char) : List Char :=
  ((cs.dropWhile p).reverse.dropWhile p).reverse

def strip (cs : List Char) : List Char := trim isBlank cs

end Dimensional.Character
