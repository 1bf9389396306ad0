import Dimensional.Character.Blank

/-!
# The spelling of unit expressions

Units are written with `*`, `·` or `×`, or with nothing but blanks between factors, and some of them
in Chinese.  `normalize` brings a text into one spelling: `*` is the only sign for a product, there
are no blanks, and localized words give way to symbols.

Blanks stand for a product unless they touch the end of the text, an operator, or the inside of a
parenthesis.
-/

namespace Dimensional.MeasureUnit.Spelling

/-- The plain sign for a product in place of its variants. -/
def plainProduct (c : Char) : Char := if c = '·' ∨ c = '×' then '*' else c

/-- Do blanks after this character mean nothing? -/
def absorbsAfter (c : Char) : Bool := c = '*' || c = '/' || c = '^' || c = '('

def absorbsBefore (c : Char) : Bool := c = '*' || c = '/' || c = '^' || c = ')'

/-- Replaces runs of blanks by a product sign or by nothing.  `last` is the character before, and
`gap` whether blanks stand between it and the rest; an end of the text counts as a parenthesis. -/
def joinWords (last : Char) (gap : Bool) : List Char → List Char
  | [] => []
  | c :: rest =>
    if Character.isBlank c then joinWords last true rest
    else if gap && !absorbsAfter last && !absorbsBefore c then '*' :: c :: joinWords c false rest
    else c :: joinWords c false rest

/-- Replaces localized words by the symbols of the units. -/
def localWords : List Char → List Char
  | [] => []
  | '小' :: '时' :: rest => 'h' :: localWords rest
  | c :: rest =>
    -- The word of two characters was tried first.
    let word := match c with
      | '年' => ['y', 'e', 'a', 'r']
      | '天' => ['d', 'a', 'y']
      | '吨' => ['t', 'o', 'n']
      | 'μ' | 'µ' => ['u']
      | c => [c]
    word ++ localWords rest

def normalize (cs : List Char) : List Char :=
  localWords (joinWords '(' false (cs.map plainProduct))

end Dimensional.MeasureUnit.Spelling
