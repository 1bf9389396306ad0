import Dimensional.MeasureUnit.Token

/-!
# Unit expressions in postfix order

Operators move behind their operands.  `^` binds tighter than `*` and `/` and groups to the right;
`*` and `/` bind equally and group to the left.  Only parentheses are checked here; whether every
operator finds its operands shows when the expression is evaluated.
-/

namespace Dimensional.MeasureUnit

/-- How tightly an operator binds; parentheses and operands are no operators. -/
def Lexeme.rank? : Lexeme → Option Nat
  | .times | .over => some 2
  | .power => some 3
  | _ => none

def Lexeme.isOpening : Lexeme → Bool
  | .opens => true
  | _ => false

/-- Does a pending part have to be applied before an operator that binds with `rank`? -/
def Lexeme.yieldsTo (rank : Nat) (groupsRight : Bool) (pending : Lexeme) : Bool :=
  match pending.rank? with
  | some top => rank < top || (top == rank && !groupsRight)
  | none => false

namespace Token

/-- The tokens in postfix order.  `pending` holds operators and parentheses, the latest first. -/
def postfixFrom (text : String) (pending : List Token) : List Token → Except Error (List Token)
  | [] =>
    -- The innermost parenthesis that is still open is reported.
    match pending.find? (·.lexeme.isOpening) with
    | some opening => .error (.parse .mismatchedUnitParentheses text (some opening.position))
    | none => .ok pending
  | token :: rest =>
    match token.lexeme with
    | .number _ | .name _ => return token :: (← postfixFrom text pending rest)
    | .opens => postfixFrom text (token :: pending) rest
    | .closes =>
      match pending.dropWhile (!·.lexeme.isOpening) with
      | [] => .error (.parse .mismatchedUnitParentheses text (some token.position))
      | _ :: below =>
        return pending.takeWhile (!·.lexeme.isOpening) ++ (← postfixFrom text below rest)
    | .times | .over =>
      let yields (top : Token) : Bool := top.lexeme.yieldsTo 2 false
      return pending.takeWhile yields ++
        (← postfixFrom text (token :: pending.dropWhile yields) rest)
    | .power =>
      let yields (top : Token) : Bool := top.lexeme.yieldsTo 3 true
      return pending.takeWhile yields ++
        (← postfixFrom text (token :: pending.dropWhile yields) rest)

def toPostfix (text : String) (tokens : List Token) : Except Error (List Token) :=
  postfixFrom text [] tokens

end Token

end Dimensional.MeasureUnit
