import Dimensional.MeasureUnit.Atom
import Dimensional.MeasureUnit.Postfix
import Dimensional.MeasureUnit.Spelling

/-!
# Unit expressions

`parse` turns a text such as `kg*m/s^2` into a unit.  The text is brought into its normal spelling,
cut into tokens, put into postfix order and evaluated on a stack.  Two plain numbers are combined by
arithmetic; as soon as a unit takes part, numbers count as units without a dimension.  Exponents are
plain numbers.
-/

namespace Dimensional

namespace MeasureUnit

/-- A value of a part of a unit expression: a plain number, maybe a complex one, or a unit. -/
inductive Operand where
  | scalar (s : Scalar)
  | unit (u : MeasureUnit)

def Operand.toUnit : Operand → Except Error MeasureUnit
  | .scalar s => return ⟨← s.toFloat, .one, ""⟩
  | .unit u => .ok u

def Operand.toReal? : Operand → Option Float
  | .scalar (.real x) => some x
  | _ => none

namespace Operand

def mul : Operand → Operand → Except Error Operand
  | .scalar (.real x), .scalar (.real y) => .ok (.scalar (.real (x * y)))
  | a, b => return .unit ((← a.toUnit).mul (← b.toUnit))

def div : Operand → Operand → Except Error Operand
  | .scalar (.real x), .scalar (.real y) => return .scalar (.real (← liftFault (divide x y)))
  | a, b => do
    -- Both operands are made units before the scales are divided, so a complex number is reported
    -- even where the divisor is zero.
    let a ← a.toUnit
    let b ← b.toUnit
    return .unit (← a.div b)

def pow : Operand → Float → Except Error Operand
  | .scalar s, y => return .scalar (← liftFault (s.pow y))
  | .unit u, y => return .unit (← u.pow y)

/-- Turns an arithmetic fault into a fault of the text at the operator's place. -/
def locate {α : Type} (text : String) (position : Nat) : Except Error α → Except Error α
  | .error (.arithmetic fault) =>
    .error (.parse (.unitArithmetic fault) text (some position))
  | result => result

/-- The power of one operand to another, which has to be a plain number. -/
def power (text : String) (position : Nat) (a b : Operand) : Except Error Operand :=
  match b.toReal? with
  | some y => locate text position (a.pow y)
  | none => .error (.parse .exponentNotNumeric text (some position))

def applyTop (text : String) (position : Nat) (symbol : Char)
    (operation : Operand → Operand → Except Error Operand) :
    List Operand → Except Error (List Operand)
  | b :: a :: rest => return (← operation a b) :: rest
  | _ => .error (.parse (.missingUnitOperand symbol) text (some position))

def step (text : String) (stack : List Operand) (token : Token) : Except Error (List Operand) :=
  match token.lexeme with
  | .number x => .ok (.scalar (.real x) :: stack)
  | .name s => return .unit (← MeasureUnit.ofName s) :: stack
  | .times =>
    applyTop text token.position '*' (fun a b => locate text token.position (a.mul b)) stack
  | .over =>
    applyTop text token.position '/' (fun a b => locate text token.position (a.div b)) stack
  | .power => applyTop text token.position '^' (power text token.position) stack
  | .opens | .closes => .ok stack

end Operand

/-- Can this number be the scale of a unit that is used? -/
def isUsableScale (x : Float) : Bool := x.isFinite && x > 0

/-- The unit that is left on the stack in the end.  Messages show the text as it was given, while
the error itself holds the normal spelling. -/
def ofStack (given normal : String) : List Operand → Except Error MeasureUnit
  | [operand] => do
    let unit ← operand.toUnit
    if isUsableScale unit.scale then return { unit with text := given }
    else throw (.parse (.unusableScale given) normal none)
  | _ => .error (.parse (.unparsableUnit given) normal none)

/-- The unit that a text stands for; a blank text stands for the unit of pure numbers.  The text
is respelled first, and its normal spelling is cut up, put into postfix order and run. -/
def parse (given : String) : Except Error MeasureUnit := do
  let normal := Spelling.normalize given.toList
  if normal.isEmpty then return .one
  let text := String.ofList normal
  let program ← Token.toPostfix text (← Token.scan normal)
  ofStack given text (← program.foldlM (Operand.step text) [])

/-- The unit that a text stands for, if there is one; else the unit of pure numbers. -/
def parseGiven : Option String → Except Error MeasureUnit
  | none => .ok .one
  | some given => parse given

def toBase (value : Datum) (given : Option String) : Except Error Float := do
  let unit ← parseGiven given
  return (← value.toFloat) * unit.scale

def fromBase (value : Datum) (given : Option String) : Except Error Float := do
  let unit ← parseGiven given
  let value ← value.toFloat
  return value / unit.scale

end MeasureUnit

end Dimensional
