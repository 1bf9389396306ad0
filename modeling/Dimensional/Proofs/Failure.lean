import Dimensional.Formula.Evaluate
import Dimensional.Proofs.Dimension.Text

/-!
# What fails with what

The errors that the parts of an evaluation can end in: texts of units (`raises_parse`) and items
that are no quantities (`raises_toQuantity`).  What the rules of operators and functions can end in is
`Error.IsRuleFault`.  None of these is an error of the machine that runs programs
(`Error.IsMachineFault`); those come only from programs that are put together wrongly.
-/

namespace Dimensional

/-- Errors of the machine itself: operands are missing or left over, or nothing is known about
what is to be applied.  A wrong number of declared arguments is not among them; it is an error of
the program, whatever the stack holds. -/
def Error.IsMachineFault : Error → Prop
  | .missingOperand .. | .unknownOperator _ | .unknownFunction _ => True
  | .evaluation (.valuesLeft ..) => True
  | _ => False

/-- Errors of values that cannot be used as numbers; texts of exponents end in them, too. -/
def Error.IsConversion : Error → Prop
  | .conversion _ => True
  | _ => False

def Error.IsTextFault : Error → Prop
  | .parse .. | .unknownUnit .. => True
  | _ => False

/-- Errors of texts of units: faults of the text, or a scale that is a complex number. -/
def Error.IsUnitFault : Error → Prop
  | .parse .. | .unknownUnit .. => True
  | .conversion fault => fault = .notNumeric "complex"
  | _ => False

def Error.IsItemFault : Error → Prop
  | .evaluation (.notQuantity _) | .evaluation (.invalidPair ..) => True
  | .evaluation (.exponentCount _) | .conversion _ => True
  | _ => False

def Error.IsRuleFault : Error → Prop
  | .unitMismatch .. | .evaluation (.invalidExponent _) | .conversion _ => True
  | _ => False

open Error Fallible

theorem Error.IsTextFault.isUnitFault {e : Error} (h : e.IsTextFault) : e.IsUnitFault := by
  cases e <;> trivial

theorem Error.IsConversion.isItemFault {e : Error} (h : e.IsConversion) : e.IsItemFault := by
  cases e <;> trivial

theorem Error.IsConversion.isRuleFault {e : Error} (h : e.IsConversion) : e.IsRuleFault := by
  cases e <;> trivial

theorem Error.IsConversion.not_isMachineFault {e : Error} (h : e.IsConversion) :
    ¬e.IsMachineFault := by
  intro hm
  cases e <;> trivial

theorem Error.IsUnitFault.not_isMachineFault {e : Error} (h : e.IsUnitFault) :
    ¬e.IsMachineFault := by
  intro hm
  cases e <;> trivial

theorem Error.IsItemFault.not_isMachineFault {e : Error} (h : e.IsItemFault) :
    ¬e.IsMachineFault := by
  intro hm
  cases e with
  | evaluation fault => cases fault <;> trivial
  | _ => trivial

theorem Error.IsRuleFault.not_isMachineFault {e : Error} (h : e.IsRuleFault) :
    ¬e.IsMachineFault := by
  intro hm
  cases e with
  | evaluation fault => cases fault <;> trivial
  | _ => trivial

/-! ### Texts of dimensions -/

theorem raises_unitText (d : Dimension) : Raises IsConversion d.unitText := by
  intro e he
  obtain ⟨x, _, rfl⟩ := (unitText_eq_error_iff d e).1 he
  trivial

/-! ### Items -/

theorem raises_toFloat (d : Datum) : Raises IsConversion d.toFloat := by
  unfold Datum.toFloat
  split
  · exact raises_ok _
  · split
    · exact raises_ok _
    · exact raises_error trivial
  · exact raises_ok _
  · split
    · exact raises_ok _
    · exact raises_error trivial
  · exact raises_error trivial

theorem raises_ofExponents (xs : Exponents) : Raises IsItemFault (Dimension.ofExponents xs) := by
  unfold Dimension.ofExponents
  split
  · exact raises_ok _
  · exact raises_error trivial

theorem raises_ofData (value : Datum) (exponents : List Datum) :
    Raises IsItemFault (Quantity.ofData value exponents) := by
  refine raises_bind ((raises_toFloat value).mono fun _ => IsConversion.isItemFault) fun _ => ?_
  refine raises_bind ?_ fun _ => raises_ok _
  refine raises_bind ?_ raises_ofExponents
  exact (raises_mapM raises_toFloat exponents).mono fun _ => IsConversion.isItemFault

theorem isItemFault_refusePair (value dims : Datum) :
    (Item.refusePair value dims).IsItemFault := by
  unfold Item.refusePair
  split <;> trivial

theorem raises_ofPair (value dims : Datum) (exponents : List Datum) :
    Raises IsItemFault (Item.ofPair value dims exponents) := by
  unfold Item.ofPair
  split
  · exact raises_error trivial
  · exact raises_error (isItemFault_refusePair value dims)
  · exact raises_ofData value exponents

theorem raises_toQuantity (item : Item) : Raises IsItemFault item.toQuantity := by
  unfold Item.toQuantity
  split
  · exact raises_ok _
  · split
    · exact raises_ofPair _ _ _
    · exact raises_error trivial
  · exact raises_error trivial

/-! ### Texts of units

The stages are taken in their order.  Cutting and sorting fail with faults of the text only.
Arithmetic fails with faults of its own (`Operand.IsArithmetic`) until `locate` puts them down
to a place in the text; a complex number in the place of a scale is passed on as the conversion
fault that it is. -/

namespace MeasureUnit

theorem raises_scanFrom (text : String) (place : Token.SignPlace) (position : Nat)
    (cs : List Char) : Raises IsTextFault (Token.scanFrom text place position cs) := by
  fun_induction Token.scanFrom text place position cs with
  | case1 => exact raises_ok _
  | case2 => exact raises_error trivial
  | case3 _ _ _ _ _ _ _ _ _ ih => exact raises_map ih

theorem raises_postfixFrom (text : String) (pending tokens : List Token) :
    Raises IsTextFault (Token.postfixFrom text pending tokens) := by
  induction tokens generalizing pending with
  | nil =>
    rw [Token.postfixFrom]
    split
    · exact raises_error trivial
    · exact raises_ok _
  | cons token rest ih =>
    rw [Token.postfixFrom]
    split
    · exact raises_bind (ih _) fun _ => raises_ok _
    · exact raises_bind (ih _) fun _ => raises_ok _
    · exact ih _
    · split
      · exact raises_error trivial
      · exact raises_bind (ih _) fun _ => raises_ok _
    · exact raises_bind (ih _) fun _ => raises_ok _
    · exact raises_bind (ih _) fun _ => raises_ok _
    · exact raises_bind (ih _) fun _ => raises_ok _

theorem raises_ofName (name : String) : Raises IsTextFault (ofName name) := by
  unfold ofName
  split
  · exact raises_ok _
  · exact raises_error trivial

theorem raises_toFloat_scalar (s : Scalar) : Raises IsUnitFault s.toFloat := by
  cases s with
  | real x => exact raises_ok x
  | complex z => exact raises_error rfl

namespace Operand

theorem raises_toUnit (a : Operand) : Raises IsUnitFault a.toUnit := by
  cases a with
  | scalar s => exact raises_bind (raises_toFloat_scalar s) fun _ => raises_ok _
  | unit u => exact raises_ok u

/-- The errors of arithmetic on units before they are put down to a place in a text. -/
def IsArithmetic (e : Error) : Prop := e.IsUnitFault ∨ ∃ fault, e = .arithmetic fault

theorem raises_liftFault {α : Type} (x : Except ArithmeticFault α) :
    Raises IsArithmetic (liftFault x) := by
  cases x with
  | ok a => exact raises_ok a
  | error fault => exact raises_error (.inr ⟨fault, rfl⟩)

theorem raises_locate {α : Type} {x : Except Error α} (h : Raises IsArithmetic x) (text : String)
    (position : Nat) : Raises IsUnitFault (locate text position x) := by
  unfold locate
  split
  · exact raises_error trivial
  · next hne =>
    intro e he
    rcases h e he with hunit | ⟨fault, rfl⟩
    · exact hunit
    · exact absurd he (hne fault)

theorem raises_mul (a b : Operand) : Raises IsUnitFault (a.mul b) := by
  unfold mul
  split
  · exact raises_ok _
  · refine raises_bind (raises_toUnit _) fun _ => ?_
    exact raises_bind (raises_toUnit _) fun _ => raises_ok _

theorem raises_div (a b : Operand) : Raises IsArithmetic (a.div b) := by
  unfold div
  split
  · exact raises_bind (raises_liftFault _) fun _ => raises_ok _
  · refine raises_bind ((raises_toUnit _).mono fun _ => .inl) fun _ => ?_
    refine raises_bind ((raises_toUnit _).mono fun _ => .inl) fun _ => ?_
    refine raises_bind ?_ fun _ => raises_ok _
    exact raises_bind (raises_liftFault _) fun _ => raises_ok _

theorem raises_pow (a : Operand) (y : Float) : Raises IsArithmetic (a.pow y) := by
  unfold pow
  split
  · exact raises_bind (raises_liftFault _) fun _ => raises_ok _
  · refine raises_bind ?_ fun _ => raises_ok _
    refine raises_bind (raises_liftFault _) fun _ => ?_
    exact raises_bind ((raises_toFloat_scalar _).mono fun _ => .inl) fun _ => raises_ok _

theorem raises_power (text : String) (position : Nat) (a b : Operand) :
    Raises IsUnitFault (power text position a b) := by
  unfold power
  split
  · exact raises_locate (raises_pow _ _) _ _
  · exact raises_error trivial

theorem raises_applyTop {operation : Operand → Operand → Except Error Operand}
    (h : ∀ a b, Raises IsUnitFault (operation a b)) (text : String) (position : Nat)
    (symbol : Char) (stack : List Operand) :
    Raises IsUnitFault (applyTop text position symbol operation stack) := by
  unfold applyTop
  split
  · exact raises_bind (h _ _) fun _ => raises_ok _
  · exact raises_error trivial

theorem raises_step (text : String) (stack : List Operand) (token : Token) :
    Raises IsUnitFault (step text stack token) := by
  unfold step
  split
  · exact raises_ok _
  · exact raises_bind ((raises_ofName _).mono fun _ => IsTextFault.isUnitFault)
      fun _ => raises_ok _
  · exact raises_applyTop
      (fun a b => raises_locate ((raises_mul a b).mono fun _ => .inl) _ _) _ _ _ _
  · exact raises_applyTop (fun a b => raises_locate (raises_div a b) _ _) _ _ _ _
  · exact raises_applyTop (raises_power _ _) _ _ _ _
  · exact raises_ok _
  · exact raises_ok _

end Operand

theorem raises_ofStack (given normal : String) (stack : List Operand) :
    Raises IsUnitFault (ofStack given normal stack) := by
  unfold ofStack
  split
  · refine raises_bind (Operand.raises_toUnit _) fun _ => ?_
    split
    · exact raises_ok _
    · exact raises_error trivial
  · exact raises_error trivial

/-- Whatever is wrong with the text of a unit, it is no fault of a machine. -/
theorem raises_parse (given : String) : Raises IsUnitFault (parse given) := by
  unfold parse
  simp only
  split
  · exact raises_ok _
  · refine raises_bind ((raises_scanFrom _ _ _ _).mono fun _ => IsTextFault.isUnitFault) fun _ => ?_
    refine raises_bind ((raises_postfixFrom _ _ _).mono fun _ => IsTextFault.isUnitFault)
      fun _ => ?_
    refine raises_bind (raises_foldlM (Operand.raises_step _) _ _) fun _ => ?_
    exact raises_ofStack _ _ _

end MeasureUnit

end Dimensional
