import Dimensional.Error
import Dimensional.Formula.Token

/-!
# Formulas in postfix order

Operators and calls move behind their operands, guided by precedence, grouping and parentheses;
commas and parentheses disappear.  Only parentheses and commas are checked here.  Whether operators
and functions find their operands shows when the program is run.
-/

namespace Dimensional.Formula

/-- What waits for the operands behind it: operators, calls whose arguments are still open, and
open parentheses.  Calls are not compared with operators by precedence; the parenthesis behind
the name takes care of them. -/
inductive Pending where
  | operator (op : Operator)
  | call (callee : Callee) (arity : Int)
  | paren
  deriving DecidableEq

namespace Pending

def isParen : Pending → Bool
  | .paren => true
  | _ => false

def token : Pending → Token
  | .operator op => .operator op
  | .call callee arity => .call callee arity
  | .paren => .leftParen

/-- What waits inside the innermost open parenthesis. -/
def inside (pending : List Pending) : List Token :=
  (pending.takeWhile (!·.isParen)).map token

/-- The innermost open parenthesis and what waits around it. -/
def around (pending : List Pending) : List Pending := pending.dropWhile (!·.isParen)

def precedence (op : Operator) : Except Error Int :=
  match op.precedence? with
  | some n => .ok n
  | none => .error (.missingKey op.symbol)

/-- Is the operator `top` to be applied before `incoming`, which stands behind its operand?
Operators that bind equally tightly go first if they stand first, unless `incoming` groups to
the right. -/
def yields (top incoming : Operator) : Except Error Bool := do
  let left ← precedence top
  let right ← precedence incoming
  return if incoming.groupsRight then left > right else left ≥ right

/-- The waiting operators that are to be applied before `incoming`, and what goes on waiting.  A
call or a parenthesis stops the search. -/
def yielding (incoming : Operator) : List Pending → Except Error (List Token × List Pending)
  | .operator top :: rest => do
    if ← yields top incoming then
      let (applied, waiting) ← yielding incoming rest
      return (.operator top :: applied, waiting)
    else return ([], .operator top :: rest)
  | waiting => .ok ([], waiting)

/-- A call in front of a parenthesis that was just closed, and what goes on waiting. -/
def called : List Pending → List Token × List Pending
  | .call callee arity :: rest => ([.call callee arity], rest)
  | waiting => ([], waiting)

end Pending

namespace Token

/-- The tokens in postfix order.  `pending` is what waits for its operands, the latest first. -/
def postfixFrom (text : String) (pending : List Pending) : List Token → Except Error (List Token)
  | [] =>
    if pending.any Pending.isParen then .error (.parse .mismatchedParentheses text none)
    else .ok (pending.map Pending.token)
  | .number value unitText :: rest =>
    (postfixFrom text pending rest).map (.number value unitText :: ·)
  | .name path unitText :: rest =>
    (postfixFrom text pending rest).map (.name path unitText :: ·)
  | .call callee arity :: rest => postfixFrom text (.call callee arity :: pending) rest
  | .leftParen :: rest => postfixFrom text (.paren :: pending) rest
  | .comma :: rest =>
    -- A comma ends an argument: what waits inside the parenthesis is applied, and the parenthesis
    -- stays open.
    match Pending.around pending with
    | [] => .error (.parse .misplacedComma text none)
    | around => (postfixFrom text around rest).map (Pending.inside pending ++ ·)
  | .operator op :: rest => do
    let (applied, waiting) ← Pending.yielding op pending
    (postfixFrom text (.operator op :: waiting) rest).map (applied ++ ·)
  | .rightParen :: rest =>
    match Pending.around pending with
    | [] => .error (.parse .mismatchedParentheses text none)
    | _ :: waiting =>
      -- The arguments of a call are complete once its parenthesis is closed.
      let (applied, waiting) := Pending.called waiting
      (postfixFrom text waiting rest).map (Pending.inside pending ++ applied ++ ·)
  | .foreign shown :: _ => .error (.parse (.unknownToken (quote shown)) text none)

def toPostfix (tokens : List Token) (text : String) : Except Error (List Token) :=
  postfixFrom text [] tokens

end Token

end Dimensional.Formula
