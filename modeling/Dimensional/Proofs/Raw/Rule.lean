import Dimensional.Formula.Rule
import Dimensional.Proofs.Fallible
import Dimensional.Proofs.Raw.Exponents

/-!
# Operators and functions on raw exponents

Quantities whose exponents are plain lists, and for each operator and function the rule that does to
them what its rule does to quantities.  Conditions on dimensions go through raw exponents in pairs,
and every result but that of a choice is a new quantity, which makes of its exponents what the
handling of raw exponents says.

Under a sound handling the two rules do the same (`Mirrors`): each sort of rule once, and then the
rule of every operator and function (`mirrors_unary`, `mirrors_binary`, `mirrors_builtin`).
-/

namespace Dimensional

open Exponents Fallible

/-- A number in base units with exponents of any number. -/
structure RawQuantity where
  value : Float
  exponents : Exponents

namespace RawQuantity

def ofQuantity (q : Quantity) : RawQuantity := ⟨q.value, q.dims.exponents⟩

def make (h : Handling) (value : Float) (exponents : Exponents) : Except Error RawQuantity := do
  return ⟨value, ← h.accept exponents⟩

theorem make_exponents {h : Handling} (hs : h.Sound) (value : Float) (d : Dimension) :
    make h value d.exponents = .ok (ofQuantity ⟨value, d⟩) := by
  rw [make, hs.accept_exponents]
  rfl

/-- What is put on a stack is forgotten with it. -/
theorem map_cons_ofQuantity (x : Except Error Quantity) (rest : List Quantity) :
    (x.map ofQuantity).map (· :: rest.map ofQuantity) =
      (x.map (· :: rest)).map (List.map ofQuantity) := by
  cases x <;> rfl

end RawQuantity

/-- The rule of an operator or function on raw exponents, by its number of operands. -/
inductive RawRule where
  | one (f : RawQuantity → Except Error RawQuantity)
  | two (f : RawQuantity → RawQuantity → Except Error RawQuantity)
  | three (f : RawQuantity → RawQuantity → RawQuantity → Except Error RawQuantity)

namespace RawRule

open RawQuantity

def arity : RawRule → Nat
  | .one _ => 1
  | .two _ => 2
  | .three _ => 3

def applyTop (name : String) : RawRule → List RawQuantity → Except Error (List RawQuantity)
  | .one f, a :: rest => (f a).map (· :: rest)
  | .two f, b :: a :: rest => (f a b).map (· :: rest)
  | .three f, c :: b :: a :: rest => (f a b c).map (· :: rest)
  | rule, stack => .error (.missingOperand name rule.arity stack.length)

/-- The operand must be a pure number: that all of its exponents are zero, however many. -/
def requireOne (tolerance : Float) (operation : String) (a : RawQuantity) : Except Error PUnit :=
  if a.exponents.isZero tolerance then .ok ⟨⟩
  else do
    let text ← a.exponents.unitText
    throw (.unitMismatch operation ("requires dimensionless input, got [" ++ text ++ "]"))

section

variable (h : Handling) (tolerance : Float)

def requireSame (operation what : String) (a b : RawQuantity) : Except Error PUnit := do
  let agrees ← h.agree tolerance a.exponents b.exponents
  if agrees then .ok ⟨⟩
  else do
    let left ← a.exponents.unitText
    let right ← b.exponents.unitText
    throw (.unitMismatch operation
      ("requires " ++ what ++ ", got [" ++ left ++ "] and [" ++ right ++ "]"))

def ofBool (b : Bool) : Except Error RawQuantity :=
  make h (if b then 1.0 else 0.0) Dimension.one.exponents

/-! ### Rules -/

def sameDimension (operation : String) (f : Float → Float → Float) : RawRule :=
  .two fun a b => do
    requireSame h tolerance operation Rule.matching a b
    make h (f a.value b.value) a.exponents

def comparison (operation : String) (f : Float → Float → Bool) : RawRule :=
  .two fun a b => do
    requireSame h tolerance operation Rule.matching a b
    ofBool h (f a.value b.value)

def connective (operation : String) (f : Bool → Bool → Bool) : RawRule :=
  .two fun a b => do
    requireOne tolerance operation a
    requireOne tolerance operation b
    ofBool h (f (Rule.isTrue a.value) (Rule.isTrue b.value))

def numeric (name : String) (f : Float → Float) : RawRule :=
  .one fun a => do
    requireOne tolerance (name ++ "()") a
    make h (f a.value) Dimension.one.exponents

def powers : RawRule :=
  .two fun a b => do
    requireOne tolerance "^ exponent" b
    if b.value.isFinite then make h (Rule.power a.value b.value) (a.exponents.scale b.value)
    else throw (.evaluation (.invalidExponent b.value))

def choice : RawRule :=
  .three fun condition yes no => do
    requireOne tolerance "if() condition" condition
    requireSame h tolerance "if()" "branches with matching units" yes no
    return if Rule.isTrue condition.value then yes else no

def ofUnary : UnaryOp → RawRule
  | .minus => .one fun a => make h (-a.value) a.exponents
  | .not => .one fun a => do
    requireOne tolerance UnaryOp.not.symbol a
    ofBool h (!Rule.isTrue a.value)

def ofBinary : BinaryOp → RawRule
  | .add => sameDimension h tolerance BinaryOp.add.symbol (· + ·)
  | .sub => sameDimension h tolerance BinaryOp.sub.symbol (· - ·)
  | .mul => .two fun a b => do make h (a.value * b.value) (← h.add a.exponents b.exponents)
  | .div => .two fun a b => do make h (a.value / b.value) (← h.sub a.exponents b.exponents)
  | .pow => powers h tolerance
  | .lt => comparison h tolerance BinaryOp.lt.symbol fun x y => x < y
  | .le => comparison h tolerance BinaryOp.le.symbol fun x y => x ≤ y
  | .gt => comparison h tolerance BinaryOp.gt.symbol fun x y => x > y
  | .ge => comparison h tolerance BinaryOp.ge.symbol fun x y => x ≥ y
  | .eq => comparison h tolerance BinaryOp.eq.symbol fun x y => x == y
  | .ne => comparison h tolerance BinaryOp.ne.symbol fun x y => x != y
  | .and => connective h tolerance BinaryOp.and.symbol fun x y => x && y
  | .or => connective h tolerance BinaryOp.or.symbol fun x y => x || y

def ofBuiltin : Builtin → RawRule
  | .cond => choice h tolerance
  | .min => sameDimension h tolerance "min()" Rule.lesser
  | .max => sameDimension h tolerance "max()" Rule.greater
  | .abs => .one fun a => make h a.value.abs a.exponents
  | .sqrt => .one fun a => make h a.value.sqrt (a.exponents.scale 0.5)
  | .log => numeric h tolerance Builtin.log.name Float.log
  | .log10 => numeric h tolerance Builtin.log10.name Float.log10
  | .exp => numeric h tolerance Builtin.exp.name Float.exp

end

/-! ### Rules that do the same

Conditions come to the same on both sides as soon as comparing does.  Behind them stands one new
quantity, or for a choice one of the two that were there. -/

/-- The raw rule makes of quantities what the other rule makes of them, and fails where that
fails. -/
inductive Mirrors : RawRule → Rule → Prop where
  | one {raw : RawQuantity → Except Error RawQuantity} {f : Quantity → Except Error Quantity} :
      (∀ a, raw (ofQuantity a) = (f a).map ofQuantity) → Mirrors (.one raw) (.one f)
  | two {raw : RawQuantity → RawQuantity → Except Error RawQuantity}
      {f : Quantity → Quantity → Except Error Quantity} :
      (∀ a b, raw (ofQuantity a) (ofQuantity b) = (f a b).map ofQuantity) →
        Mirrors (.two raw) (.two f)
  | three {raw : RawQuantity → RawQuantity → RawQuantity → Except Error RawQuantity}
      {f : Quantity → Quantity → Quantity → Except Error Quantity} :
      (∀ a b c, raw (ofQuantity a) (ofQuantity b) (ofQuantity c) = (f a b c).map ofQuantity) →
        Mirrors (.three raw) (.three f)

theorem Mirrors.applyTop {raw : RawRule} {rule : Rule} (hm : Mirrors raw rule) (name : String)
    (stack : List Quantity) :
    raw.applyTop name (stack.map ofQuantity) =
      (rule.applyTop name stack).map (List.map ofQuantity) := by
  cases hm with
  | @one raw f h =>
    obtain _ | ⟨a, rest⟩ := stack
    · rfl
    · show (raw (ofQuantity a)).map (· :: rest.map ofQuantity) = _
      rw [h]
      exact map_cons_ofQuantity (f a) rest
  | @two raw f h =>
    obtain _ | ⟨b, _ | ⟨a, rest⟩⟩ := stack
    · rfl
    · rfl
    · show (raw (ofQuantity a) (ofQuantity b)).map (· :: rest.map ofQuantity) = _
      rw [h]
      exact map_cons_ofQuantity (f a b) rest
  | @three raw f h =>
    obtain _ | ⟨c, _ | ⟨b, _ | ⟨a, rest⟩⟩⟩ := stack
    · rfl
    · rfl
    · rfl
    · show (raw (ofQuantity a) (ofQuantity b) (ofQuantity c)).map (· :: rest.map ofQuantity) = _
      rw [h]
      exact map_cons_ofQuantity (f a b c) rest

/-- A condition in front of two results that are the same leaves them the same. -/
theorem guarded {x : Except Error PUnit} {raw : Except Error RawQuantity}
    {q : Except Error Quantity} (hq : raw = q.map ofQuantity) :
    (x >>= fun _ => raw) = (x >>= fun _ => q).map ofQuantity := by
  rw [bind_then_map, hq]

theorem requireOne_ofQuantity (tolerance : Float) (operation : String) (a : Quantity) :
    requireOne tolerance operation (ofQuantity a) = Rule.requireOne tolerance operation a := rfl

section

variable {h : Handling} (hs : h.Sound) (tolerance : Float)
include hs

theorem requireSame_ofQuantity (operation what : String) (a b : Quantity) :
    requireSame h tolerance operation what (ofQuantity a) (ofQuantity b) =
      Rule.requireSame tolerance operation what a b := by
  rw [requireSame]
  show (h.agree tolerance a.dims.exponents b.dims.exponents >>= _) = _
  rw [hs.agree_exponents]
  rfl

theorem ofBool_eq (b : Bool) : ofBool h b = .ok (ofQuantity (Rule.ofBool b)) :=
  make_exponents hs _ _

theorem mirrors_sameDimension (operation : String) (f : Float → Float → Float) :
    Mirrors (sameDimension h tolerance operation f) (Rule.sameDimension tolerance operation f) := by
  refine .two fun a b => ?_
  rw [requireSame_ofQuantity hs]
  exact guarded (make_exponents hs _ _)

theorem mirrors_comparison (operation : String) (f : Float → Float → Bool) :
    Mirrors (comparison h tolerance operation f) (Rule.comparison tolerance operation f) := by
  refine .two fun a b => ?_
  rw [requireSame_ofQuantity hs]
  exact guarded (ofBool_eq hs _)

theorem mirrors_connective (operation : String) (f : Bool → Bool → Bool) :
    Mirrors (connective h tolerance operation f) (Rule.connective tolerance operation f) := by
  refine .two fun a b => ?_
  rw [requireOne_ofQuantity, requireOne_ofQuantity]
  exact guarded (guarded (ofBool_eq hs _))

theorem mirrors_numeric (name : String) (f : Float → Float) :
    Mirrors (numeric h tolerance name f) (Rule.numeric tolerance name f) := by
  refine .one fun a => ?_
  rw [requireOne_ofQuantity]
  exact guarded (make_exponents hs _ _)

theorem mirrors_powers : Mirrors (powers h tolerance) (Rule.powers tolerance) := by
  refine .two fun a b => ?_
  rw [requireOne_ofQuantity]
  refine guarded ?_
  show (if b.value.isFinite then make h _ (a.dims.pow b.value).exponents else _) = _
  rw [make_exponents hs]
  split <;> rfl

theorem mirrors_choice : Mirrors (choice h tolerance) (Rule.choice tolerance) := by
  refine .three fun condition yes no => ?_
  rw [requireOne_ofQuantity, requireSame_ofQuantity hs]
  refine guarded (guarded ?_)
  show Except.ok (if Rule.isTrue condition.value then _ else _) = Except.ok _
  rw [apply_ite ofQuantity]

theorem mirrors_unary (op : UnaryOp) : Mirrors (ofUnary h tolerance op) (op.rule tolerance) := by
  cases op with
  | minus => exact .one fun a => make_exponents hs _ _
  | not => exact .one fun a => guarded (ofBool_eq hs _)

theorem mirrors_binary (op : BinaryOp) :
    Mirrors (ofBinary h tolerance op) (op.rule tolerance) := by
  unfold ofBinary BinaryOp.rule
  cases op with
  | add | sub => exact mirrors_sameDimension hs tolerance _ _
  | mul =>
    refine .two fun a b => ?_
    show (h.add a.dims.exponents b.dims.exponents >>= _) = _
    rw [hs.add_exponents]
    exact make_exponents hs _ _
  | div =>
    refine .two fun a b => ?_
    show (h.sub a.dims.exponents b.dims.exponents >>= _) = _
    rw [hs.sub_exponents]
    exact make_exponents hs _ _
  | pow => exact mirrors_powers hs tolerance
  | lt | le | gt | ge | eq | ne => exact mirrors_comparison hs tolerance _ _
  | and | or => exact mirrors_connective hs tolerance _ _

theorem mirrors_builtin (f : Builtin) :
    Mirrors (ofBuiltin h tolerance f) (f.rule tolerance) := by
  unfold ofBuiltin Builtin.rule
  cases f with
  | cond => exact mirrors_choice hs tolerance
  | min | max => exact mirrors_sameDimension hs tolerance _ _
  | abs => exact .one fun a => make_exponents hs _ _
  | sqrt => exact .one fun a => make_exponents hs _ (a.dims.pow 0.5)
  | log | log10 | exp => exact mirrors_numeric hs tolerance _ _

end

end RawRule

end Dimensional
