import Dimensional.Formula.Postfix
import Dimensional.Formula.Scan

/-!
# Formulas

A formula is compiled once and can then be evaluated any number of times.  Units are kept as text;
an unknown unit shows when the formula is evaluated.
-/

namespace Dimensional

/-- A formula that is ready to be evaluated. -/
structure Formula where
  /-- The text of the formula. -/
  source : String
  /-- The tokens in postfix order. -/
  program : List Formula.Token
  /-- The names that the formula refers to, in the order of their first occurrence. -/
  names : List String

namespace Formula

def compile (source : String) : Except Error Formula := do
  let tokens ← Token.scan source
  return ⟨source, ← Token.toPostfix tokens source, Token.names tokens⟩

/-- The formula with a text, of which there has to be one. -/
def compileGiven : Option String → Except Error Formula
  | none => .error (.parse .missingText "" none)
  | some source => compile source

end Formula

end Dimensional
