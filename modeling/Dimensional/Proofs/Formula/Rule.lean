import Dimensional.Formula.Rule
import Dimensional.Proofs.Failure

/-!
# Rules apart from the stack

What a rule makes of its operands (`Rule.on`), that it does just this on a stack that holds them
(`Rule.applyTop_operands`), and what the rules of operators and functions can fail with.
-/

namespace Dimensional

open Error Fallible

namespace Rule

def on : (rule : Rule) → (Fin rule.arity → Quantity) → Except Error Quantity
  | .one f, operands => f (operands (0 : Fin 1))
  | .two f, operands => f (operands (0 : Fin 2)) (operands (1 : Fin 2))
  | .three f, operands =>
    f (operands (0 : Fin 3)) (operands (1 : Fin 3)) (operands (2 : Fin 3))

/-- On a stack that holds its operands, the last on top, a rule does what it does on them. -/
theorem applyTop_operands {n : Nat} {rule : Rule} (h : rule.arity = n) (name : String)
    (operands : Fin n → Quantity) (stack : List Quantity) :
    rule.applyTop name ((List.ofFn operands).reverse ++ stack) =
      (rule.on fun i => operands (i.cast h)).map (· :: stack) := by
  subst h
  cases rule <;> rfl

/-- A rule that finds its operands is applied to them, of which the last is on top. -/
theorem applyTop_getElem {rule : Rule} {stack : List Quantity} (h : rule.arity ≤ stack.length)
    (name : String) :
    rule.applyTop name stack =
      (rule.on fun i => stack[rule.arity - 1 - i]).map (· :: stack.drop rule.arity) := by
  cases rule with
  | one f =>
    obtain _ | ⟨a, rest⟩ := stack
    · cases h
    · rfl
  | two f =>
    obtain _ | ⟨b, _ | ⟨a, rest⟩⟩ := stack
    · cases h
    · cases Nat.le_of_succ_le_succ h
    · rfl
  | three f =>
    -- Shorter stacks are excluded by their length, one after the other.
    obtain _ | ⟨c, _ | ⟨b, _ | ⟨a, rest⟩⟩⟩ := stack
    · cases h
    · cases Nat.le_of_succ_le_succ h
    · cases Nat.le_of_succ_le_succ (Nat.le_of_succ_le_succ h)
    · rfl

/-- A rule that does not find its operands says how many it needs and how many there are. -/
theorem applyTop_of_lt {rule : Rule} {stack : List Quantity} (h : stack.length < rule.arity)
    (name : String) :
    rule.applyTop name stack = .error (.missingOperand name rule.arity stack.length) := by
  cases rule with
  | one f =>
    obtain _ | ⟨a, rest⟩ := stack
    · rfl
    · simp only [arity, List.length_cons] at h
      omega
  | two f =>
    obtain _ | ⟨b, _ | ⟨a, rest⟩⟩ := stack
    · rfl
    · rfl
    · simp only [arity, List.length_cons] at h
      omega
  | three f =>
    obtain _ | ⟨c, _ | ⟨b, _ | ⟨a, rest⟩⟩⟩ := stack
    · rfl
    · rfl
    · rfl
    · simp only [arity, List.length_cons] at h
      omega

/-- A rule that applies takes its operands off the stack and puts one result there. -/
theorem length_of_applyTop {rule : Rule} {name : String} {stack stack' : List Quantity}
    (h : rule.applyTop name stack = .ok stack') :
    rule.arity ≤ stack.length ∧ stack'.length = stack.length - rule.arity + 1 := by
  unfold applyTop at h
  split at h
  · obtain ⟨q, _, rfl⟩ := Fallible.map_eq_ok_iff.1 h
    simp [arity]
  · obtain ⟨q, _, rfl⟩ := Fallible.map_eq_ok_iff.1 h
    simp [arity]
  · obtain ⟨q, _, rfl⟩ := Fallible.map_eq_ok_iff.1 h
    simp [arity]
  · cases h

/-! ### What rules fail with

A rule is made of conditions on its operands and a result that cannot fail.  The two conditions
are dealt with once, then the families of rules that are made of them, and then every operator
and function as a member of its family. -/

/-- What a rule refuses its operands for: a dimension that does not fit, an exponent of a power,
or a dimension that has no text where one is to be shown.  The last of these says of which
operand. -/
inductive Refuses {n : Nat} (operands : Fin n → Quantity) : Error → Prop where
  | mismatch (operation detail : String) : Refuses operands (.unitMismatch operation detail)
  | exponent (x : Float) : Refuses operands (.evaluation (.invalidExponent x))
  | unwritable (i : Fin n) {e : Error} :
      (operands i).dims.unitText = .error e → Refuses operands e

section

variable {n : Nat} {operands : Fin n → Quantity}

theorem Refuses.isRuleFault {e : Error} (h : Refuses operands e) : e.IsRuleFault := by
  cases h with
  | mismatch | exponent => trivial
  | unwritable i htext => exact (raises_unitText _ e htext).isRuleFault

/-- The text of the dimension of an operand fails as the rule does. -/
theorem raises_unitText_operand (i : Fin n) :
    Raises (Refuses operands) (operands i).dims.unitText :=
  fun _ => .unwritable i

theorem raises_requireSame (tolerance : Float) (operation what : String) (i j : Fin n) :
    Raises (Refuses operands) (requireSame tolerance operation what (operands i) (operands j)) := by
  unfold requireSame
  split
  · exact raises_ok _
  · refine raises_bind (raises_unitText_operand i) fun _ => ?_
    exact raises_bind (raises_unitText_operand j) fun _ => raises_error (.mismatch _ _)

theorem raises_requireOne (tolerance : Float) (operation : String) (i : Fin n) :
    Raises (Refuses operands) (requireOne tolerance operation (operands i)) := by
  unfold requireOne
  split
  · exact raises_ok _
  · exact raises_bind (raises_unitText_operand i) fun _ => raises_error (.mismatch _ _)

end

variable (tolerance : Float)

theorem raises_sameDimension (operation : String) (f : Float → Float → Float)
    (operands : Fin 2 → Quantity) :
    Raises (Refuses operands) ((sameDimension tolerance operation f).on operands) :=
  raises_bind (raises_requireSame _ _ _ 0 1) fun _ => raises_ok _

theorem raises_connective (operation : String) (f : Bool → Bool → Bool)
    (operands : Fin 2 → Quantity) :
    Raises (Refuses operands) ((connective tolerance operation f).on operands) :=
  raises_bind (raises_requireOne _ _ 0) fun _ =>
    raises_bind (raises_requireOne _ _ 1) fun _ => raises_ok _

theorem raises_numeric (name : String) (f : Float → Float) (operands : Fin 1 → Quantity) :
    Raises (Refuses operands) ((numeric tolerance name f).on operands) :=
  raises_bind (raises_requireOne _ _ 0) fun _ => raises_ok _

theorem raises_powers (operands : Fin 2 → Quantity) :
    Raises (Refuses operands) ((powers tolerance).on operands) := by
  refine raises_bind (raises_requireOne _ _ 1) fun _ => ?_
  split
  · exact raises_ok _
  · exact raises_error (.exponent _)

theorem raises_choice (operands : Fin 3 → Quantity) :
    Raises (Refuses operands) ((choice tolerance).on operands) :=
  raises_bind (raises_requireOne _ _ 0) fun _ =>
    raises_bind (raises_requireSame _ _ _ 1 2) fun _ => raises_ok _

theorem refuses_unary (op : UnaryOp) (operands : Fin (op.rule tolerance).arity → Quantity) :
    Raises (Refuses operands) ((op.rule tolerance).on operands) := by
  cases op with
  | minus => exact raises_ok _
  | not => exact raises_bind (@raises_requireOne 1 operands _ _ 0) fun _ => raises_ok _

theorem refuses_binary (op : BinaryOp) (operands : Fin (op.rule tolerance).arity → Quantity) :
    Raises (Refuses operands) ((op.rule tolerance).on operands) := by
  cases op with
  | add | sub => exact raises_sameDimension _ _ _ _
  | mul | div => exact raises_ok _
  | pow => exact raises_powers _ _
  | lt | le | gt | ge | eq | ne =>
    exact raises_bind (@raises_requireSame 2 operands _ _ _ 0 1) fun _ => raises_ok _
  | and | or => exact raises_connective _ _ _ _

theorem refuses_builtin (f : Builtin) (operands : Fin (f.rule tolerance).arity → Quantity) :
    Raises (Refuses operands) ((f.rule tolerance).on operands) := by
  cases f with
  | cond => exact raises_choice _ _
  | min | max => exact raises_sameDimension _ _ _ _
  | abs | sqrt => exact raises_ok _
  | log | log10 | exp => exact raises_numeric _ _ _ _

theorem raises_unary (op : UnaryOp) (operands : Fin (op.rule tolerance).arity → Quantity) :
    Raises IsRuleFault ((op.rule tolerance).on operands) :=
  (refuses_unary tolerance op operands).mono fun _ => Refuses.isRuleFault

theorem raises_binary (op : BinaryOp) (operands : Fin (op.rule tolerance).arity → Quantity) :
    Raises IsRuleFault ((op.rule tolerance).on operands) :=
  (refuses_binary tolerance op operands).mono fun _ => Refuses.isRuleFault

theorem raises_builtin (f : Builtin) (operands : Fin (f.rule tolerance).arity → Quantity) :
    Raises IsRuleFault ((f.rule tolerance).on operands) :=
  (refuses_builtin tolerance f operands).mono fun _ => Refuses.isRuleFault

end Rule

end Dimensional
