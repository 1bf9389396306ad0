import Dimensional.Formula.Operator
import Dimensional.Text.Quoted

/-!
# Tokens of formulas

The parts that a formula falls into.  Numbers and names may carry the text of a unit.  The same type
serves for programs, the tokens of a formula in postfix order; a program that was put together by
hand may hold tokens that have no place there, even some that no formula falls into.
-/

namespace Dimensional.Formula

inductive Token where
  | number (value : Float) (unitText : String)
  | name (path : String) (unitText : String)
  | operator (op : Operator)
  | call (callee : Callee) (arity : Int)
  | leftParen
  | rightParen
  | comma
  | foreign (text : String)

namespace Token

def references : Token → List String
  | .name path _ => [path]
  | _ => []

/-- Does an operand have to follow this token?  A minus sign there has one operand. -/
def expectsOperand : Token → Bool
  | .operator _ | .leftParen | .comma => true
  | _ => false

/-- How messages show a token that is out of place; a number stands there by its unit, and all other
tokens by what they refer to. -/
def shown : Token → String
  | .leftParen => "LeftParen()"
  | .rightParen => "RightParen()"
  | .comma => "Comma()"
  | .foreign text => quote text
  | .number _ unitText => unitText
  | .name path _ => path
  | .operator op => op.symbol
  | .call callee _ => callee.name

/-- The names that tokens refer to, one for each occurrence.  Numbers, operators and calls refer
to nothing, so the list is as long as there are name tokens. -/
def occurrences (tokens : List Token) : List String := tokens.flatMap references

@[simp] theorem occurrences_append (as bs : List Token) :
    occurrences (as ++ bs) = occurrences as ++ occurrences bs := List.flatMap_append

def names (tokens : List Token) : List String := (occurrences tokens).eraseDups

end Token

end Dimensional.Formula
