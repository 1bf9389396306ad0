import Dimensional.Context
import Dimensional.Formula.Basic
import Dimensional.Formula.Rule
import Dimensional.Settings

/-!
# Evaluating formulas

A program runs on a stack of quantities.  Numbers and names push one, operators and calls replace
their operands by a result, and in the end one quantity has to be left.  Each name is looked up as
often as it occurs, from left to right; an `Outcome` records the look-ups along with the result,
also those that came before an error.
-/

namespace Dimensional

/-- A result or an error, and the names that were looked up on the way to it. -/
structure Outcome (α : Type) where
  lookups : List String
  result : Except Error α

namespace Outcome

variable {α β : Type}

def ofExcept (result : Except Error α) : Outcome α := ⟨[], result⟩

/-- Goes on with the result, and with its look-ups after those so far. -/
def andThen (o : Outcome α) (f : α → Outcome β) : Outcome β :=
  match o.result with
  | .ok a => ⟨o.lookups ++ (f a).lookups, (f a).result⟩
  | .error e => ⟨o.lookups, .error e⟩

end Outcome

namespace Formula

abbrev Lookup := String → Except Error Item

def literal (value : Float) (unitText : String) : Except Error Quantity := do
  let unit ← MeasureUnit.parse unitText
  return ⟨value * unit.scale, unit.dims⟩

/-- Checks the unit that a name declares, if it declares one, against the quantity it stands for.
The unit's scale does not matter. -/
def checkDeclared (tolerance : Float) (path unitText : String) (q : Quantity) :
    Except Error PUnit := do
  if unitText ≠ "" then
    let unit ← MeasureUnit.parse unitText
    if !q.dims.agree tolerance unit.dims then
      -- Writing the dimension may fail, and then that failure is reported.
      let text ← q.dims.unitText
      throw (.unitMismatch path
        ("declared [" ++ unitText ++ "] but value has [" ++ text ++ "]"))

def reference (tolerance : Float) (lookup : Lookup) (path unitText : String) :
    Except Error Quantity := do
  let q ← (← lookup path).toQuantity
  checkDeclared tolerance path unitText q
  return q

def step (tolerance : Float) (lookup : Lookup) (stack : List Quantity) :
    Token → Except Error (List Quantity)
  | .number value unitText => (literal value unitText).map (· :: stack)
  | .name path unitText => (reference tolerance lookup path unitText).map (· :: stack)
  | .operator (.unary op) => (op.rule tolerance).applyTop op.symbol stack
  | .operator (.binary op) => (op.rule tolerance).applyTop op.symbol stack
  | .operator (.unknown symbol) => .error (.unknownOperator symbol)
  | .call (.builtin f) arity =>
    if arity = f.arity then (f.rule tolerance).applyTop (f.name ++ "()") stack
    else .error (.evaluation (.wrongArity f.name f.arity arity))
  | .call (.unknown name) _ => .error (.unknownFunction name)
  | token => .error (.evaluation (.invalidToken token.shown))

def run (tolerance : Float) (lookup : Lookup) (stack : List Quantity) :
    List Token → Outcome (List Quantity)
  | [] => ⟨[], .ok stack⟩
  | token :: rest =>
    Outcome.andThen ⟨token.references, step tolerance lookup stack token⟩
      fun stack => run tolerance lookup stack rest

/-- The one quantity that has to be left on the stack in the end. -/
def finish (source : String) : List Quantity → Except Error Quantity
  | [q] => .ok q
  | stack => .error (.evaluation (.valuesLeft source stack.length))

/-- The quantity of a formula in a context.  The settings are read only once it is clear that names
can be looked up. -/
def evaluate (settings : Except Error Settings) (f : Formula) (context : Context) :
    Outcome Quantity :=
  match context.lookup?, settings with
  | none, _ => .ofExcept (.error (.evaluation .noLookup))
  | some _, .error e => .ofExcept (.error e)
  | some lookup, .ok settings =>
    (run settings.tolerance lookup [] f.program).andThen fun stack =>
      .ofExcept (finish f.source stack)

section

variable {tolerance : Float} {lookup : Lookup} {stack next : List Quantity} {token : Token}

theorem run_cons_of_ok (h : step tolerance lookup stack token = .ok next) (rest : List Token) :
    run tolerance lookup stack (token :: rest) =
      ⟨token.references ++ (run tolerance lookup next rest).lookups,
        (run tolerance lookup next rest).result⟩ := by
  rw [run, Outcome.andThen, h]

theorem run_cons_of_error {e : Error} (h : step tolerance lookup stack token = .error e)
    (rest : List Token) :
    run tolerance lookup stack (token :: rest) = ⟨token.references, .error e⟩ := by
  rw [run, Outcome.andThen, h]

end

/-- A program runs as its first part does and, after that, as the rest does.  So runs can be
taken apart at any token, with the stack that the first part leaves. -/
theorem run_append (tolerance : Float) (lookup : Lookup) (stack : List Quantity)
    (first second : List Token) :
    run tolerance lookup stack (first ++ second) =
      (run tolerance lookup stack first).andThen fun stack =>
        run tolerance lookup stack second := by
  induction first generalizing stack with
  | nil => simp [run, Outcome.andThen]
  | cons token rest ih =>
    simp only [List.cons_append, run, Outcome.andThen]
    split
    · next stack' _ =>
      simp only [ih, Outcome.andThen]
      split <;> simp
    · rfl

end Formula

end Dimensional
