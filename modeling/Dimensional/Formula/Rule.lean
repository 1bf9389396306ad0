import Dimensional.Formula.Operator
import Dimensional.Quantity

/-!
# What operators and functions do

Each operator and function has a rule for its operands: which dimensions they must have, and what
number and dimension result.  Numbers follow IEEE arithmetic, so infinities and NaN pass through;
only dimensions, and exponents that are not finite, are ever refused.

Dimensions agree within the `tolerance` of the settings.
-/

namespace Dimensional

/-- The rule of an operator or function, by its number of operands.  Operands come in the order
in which they are written. -/
inductive Rule where
  | one (f : Quantity → Except Error Quantity)
  | two (f : Quantity → Quantity → Except Error Quantity)
  | three (f : Quantity → Quantity → Quantity → Except Error Quantity)

namespace Rule

def arity : Rule → Nat
  | .one _ => 1
  | .two _ => 2
  | .three _ => 3

/-- Applies a rule to the operands on top of the stack, of which the last is on top. -/
def applyTop (name : String) : Rule → List Quantity → Except Error (List Quantity)
  | .one f, a :: rest => (f a).map (· :: rest)
  | .two f, b :: a :: rest => (f a b).map (· :: rest)
  | .three f, c :: b :: a :: rest => (f a b c).map (· :: rest)
  -- The operands are counted only when there are too few.
  | rule, stack => .error (.missingOperand name rule.arity stack.length)

/-! ### Conditions on dimensions -/

/-- The operands must have the same dimension; `what` names the condition in messages. -/
def requireSame (tolerance : Float) (operation what : String) (a b : Quantity) :
    Except Error PUnit :=
  if a.dims.agree tolerance b.dims then .ok ⟨⟩
  else do
    let left ← a.dims.unitText
    let right ← b.dims.unitText
    throw (.unitMismatch operation
      ("requires " ++ what ++ ", got [" ++ left ++ "] and [" ++ right ++ "]"))

def requireOne (tolerance : Float) (operation : String) (a : Quantity) : Except Error PUnit :=
  if a.dims.isOne tolerance then .ok ⟨⟩
  else do
    let text ← a.dims.unitText
    throw (.unitMismatch operation ("requires dimensionless input, got [" ++ text ++ "]"))

/-- The condition on the operands of sums and comparisons. -/
def matching : String := "matching units"

/-! ### Numbers -/

def ofBool (b : Bool) : Quantity := ⟨if b then 1.0 else 0.0, .one⟩

/-- A number as a truth value: all but zero count as true. -/
def isTrue (x : Float) : Bool := x != 0.0

/-- The power of one float to another; a square is a product. -/
def power (x y : Float) : Float := if y == 2.0 then x * x else Float.pow x y

/-- The lesser of two floats, where a NaN gives way to a number. -/
def lesser (x y : Float) : Float := if x ≤ y || y.isNaN then x else y

def greater (x y : Float) : Float := if x ≥ y || y.isNaN then x else y

/-! ### Rules -/

/-- The rule of an operation that keeps the common dimension of its operands. -/
def sameDimension (tolerance : Float) (operation : String) (f : Float → Float → Float) : Rule :=
  .two fun a b => do
    requireSame tolerance operation matching a b
    return ⟨f a.value b.value, a.dims⟩

def comparison (tolerance : Float) (operation : String) (f : Float → Float → Bool) : Rule :=
  .two fun a b => do
    requireSame tolerance operation matching a b
    return ofBool (f a.value b.value)

def connective (tolerance : Float) (operation : String) (f : Bool → Bool → Bool) : Rule :=
  .two fun a b => do
    requireOne tolerance operation a
    requireOne tolerance operation b
    return ofBool (f (isTrue a.value) (isTrue b.value))

def numeric (tolerance : Float) (name : String) (f : Float → Float) : Rule :=
  .one fun a => do
    requireOne tolerance (name ++ "()") a
    return ⟨f a.value, .one⟩

/-- The rule of powers: the exponent is a pure number and finite. -/
def powers (tolerance : Float) : Rule :=
  .two fun a b => do
    requireOne tolerance "^ exponent" b
    if b.value.isFinite then return ⟨power a.value b.value, a.dims.pow b.value⟩
    else throw (.evaluation (.invalidExponent b.value))

/-- The rule of a choice between two quantities of the same dimension.  Both have been evaluated
by now, so both have to fit. -/
def choice (tolerance : Float) : Rule :=
  .three fun condition yes no => do
    requireOne tolerance "if() condition" condition
    requireSame tolerance "if()" "branches with matching units" yes no
    return if isTrue condition.value then yes else no

end Rule

def UnaryOp.rule (tolerance : Float) : UnaryOp → Rule
  | .minus => .one fun a => .ok ⟨-a.value, a.dims⟩
  | .not => .one fun a => do
    Rule.requireOne tolerance UnaryOp.not.symbol a
    return Rule.ofBool (!Rule.isTrue a.value)

def BinaryOp.rule (tolerance : Float) : BinaryOp → Rule
  | .add => Rule.sameDimension tolerance BinaryOp.add.symbol (· + ·)
  | .sub => Rule.sameDimension tolerance BinaryOp.sub.symbol (· - ·)
  | .mul => .two fun a b => .ok ⟨a.value * b.value, a.dims * b.dims⟩
  | .div => .two fun a b => .ok ⟨a.value / b.value, a.dims / b.dims⟩
  | .pow => Rule.powers tolerance
  | .lt => Rule.comparison tolerance BinaryOp.lt.symbol fun x y => x < y
  | .le => Rule.comparison tolerance BinaryOp.le.symbol fun x y => x ≤ y
  | .gt => Rule.comparison tolerance BinaryOp.gt.symbol fun x y => x > y
  | .ge => Rule.comparison tolerance BinaryOp.ge.symbol fun x y => x ≥ y
  | .eq => Rule.comparison tolerance BinaryOp.eq.symbol fun x y => x == y
  | .ne => Rule.comparison tolerance BinaryOp.ne.symbol fun x y => x != y
  | .and => Rule.connective tolerance BinaryOp.and.symbol fun x y => x && y
  | .or => Rule.connective tolerance BinaryOp.or.symbol fun x y => x || y

def Builtin.rule (tolerance : Float) : Builtin → Rule
  | .cond => Rule.choice tolerance
  | .min => Rule.sameDimension tolerance "min()" Rule.lesser
  | .max => Rule.sameDimension tolerance "max()" Rule.greater
  | .abs => .one fun a => .ok ⟨a.value.abs, a.dims⟩
  | .sqrt => .one fun a => .ok ⟨a.value.sqrt, a.dims.pow 0.5⟩
  | .log => Rule.numeric tolerance Builtin.log.name Float.log
  | .log10 => Rule.numeric tolerance Builtin.log10.name Float.log10
  | .exp => Rule.numeric tolerance Builtin.exp.name Float.exp

@[simp] theorem UnaryOp.arity_rule (tolerance : Float) (op : UnaryOp) :
    (op.rule tolerance).arity = 1 := by cases op <;> rfl

@[simp] theorem BinaryOp.arity_rule (tolerance : Float) (op : BinaryOp) :
    (op.rule tolerance).arity = 2 := by cases op <;> rfl

@[simp] theorem Builtin.arity_rule (tolerance : Float) (f : Builtin) :
    (f.rule tolerance).arity = f.arity := by cases f <;> rfl

end Dimensional
