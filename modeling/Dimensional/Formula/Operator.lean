/-!
# Operators and functions

The operators of formulas with their symbols, precedence and grouping, and the built-in functions
with their names and numbers of arguments.  Programs that are put together by hand may also hold
symbols and names that nothing is known about.
-/

namespace Dimensional

inductive UnaryOp where
  | minus
  | not
  deriving Repr, DecidableEq

inductive BinaryOp where
  | add
  | sub
  | mul
  | div
  | pow
  | lt
  | le
  | gt
  | ge
  | eq
  | ne
  | and
  | or
  deriving Repr, DecidableEq

/-- An operator of a formula, or a symbol that is none. -/
inductive Operator where
  | unary (op : UnaryOp)
  | binary (op : BinaryOp)
  | unknown (symbol : String)
  deriving Repr, DecidableEq

inductive Builtin where
  | cond
  | min
  | max
  | abs
  | sqrt
  | log
  | log10
  | exp
  deriving Repr, DecidableEq

/-- What is called: a built-in function, or a name that is none. -/
inductive Callee where
  | builtin (f : Builtin)
  | unknown (name : String)
  deriving Repr, DecidableEq

/-- The symbol of an operator; the minus of one operand is told apart from that of two. -/
def UnaryOp.symbol : UnaryOp → String
  | .minus => "u-"
  | .not => "!"

def UnaryOp.all : List UnaryOp := [.minus, .not]

def BinaryOp.symbol : BinaryOp → String
  | .add => "+"
  | .sub => "-"
  | .mul => "*"
  | .div => "/"
  | .pow => "^"
  | .lt => "<"
  | .le => "<="
  | .gt => ">"
  | .ge => ">="
  | .eq => "=="
  | .ne => "!="
  | .and => "&&"
  | .or => "||"

def BinaryOp.all : List BinaryOp :=
  [.add, .sub, .mul, .div, .pow, .lt, .le, .gt, .ge, .eq, .ne, .and, .or]

def BinaryOp.precedence : BinaryOp → Int
  | .pow => 4
  | .mul | .div => 3
  | .add | .sub => 2
  | .lt | .le | .gt | .ge | .eq | .ne => 1
  | .and => 0
  | .or => -1

namespace Operator

def symbol : Operator → String
  | .unary op => op.symbol
  | .binary op => op.symbol
  | .unknown symbol => symbol

def known : List Operator := UnaryOp.all.map .unary ++ BinaryOp.all.map .binary

def ofSymbol (symbol : String) : Operator :=
  (known.find? (·.symbol = symbol)).getD (.unknown symbol)

/-- How tightly an operator binds; operators with one operand bind tightest. -/
def precedence? : Operator → Option Int
  | .unary _ => some 5
  | .binary op => some op.precedence
  | .unknown _ => none

def groupsRight : Operator → Bool
  | .unary _ => true
  | .binary op => op = .pow
  | .unknown _ => false

end Operator

namespace Builtin

def name : Builtin → String
  | .cond => "if"
  | .min => "min"
  | .max => "max"
  | .abs => "abs"
  | .sqrt => "sqrt"
  | .log => "log"
  | .log10 => "log10"
  | .exp => "exp"

def arity : Builtin → Nat
  | .cond => 3
  | .min | .max => 2
  | .abs | .sqrt | .log | .log10 | .exp => 1

def all : List Builtin := [.cond, .min, .max, .abs, .sqrt, .log, .log10, .exp]

def ofName? (name : String) : Option Builtin := all.find? (·.name = name)

end Builtin

namespace Callee

def name : Callee → String
  | .builtin f => f.name
  | .unknown name => name

def ofName (name : String) : Callee :=
  match Builtin.ofName? name with
  | some f => .builtin f
  | none => .unknown name

end Callee

end Dimensional
