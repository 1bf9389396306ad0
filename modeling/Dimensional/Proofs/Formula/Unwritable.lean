import Dimensional.Proofs.Formula.Reach

/-!
# Errors that cannot be put into words

An evaluation of a text whose units can all be read fails with an error of evaluations: dimensions
that do not fit, operands that are missing, names that are not bound, settings that cannot be read.
There is one exception.  Errors of dimensions show the dimensions, and the exponents of those that a
run comes to may be infinite or no numbers, which have no text.

Main statement: `failure_of_accepted` — what such an evaluation fails with, and where.
-/

namespace Dimensional

open Error Fallible

def Error.IsOfEvaluation (e : Error) : Prop :=
  e.kind = .unitMismatch ∨ e.kind.isA .evaluation = true ∨ e.kind = .configuration

instance (e : Error) : Decidable e.IsOfEvaluation :=
  inferInstanceAs (Decidable (_ ∨ _ ∨ _))

/-- An exponent that cannot be written is no error of expressions. -/
theorem not_isA_expression_unwritable (x : Float) :
    (Exponents.unwritable x).kind.isA .expression = false := by
  unfold Exponents.unwritable
  cases x.isNaN <;> rfl

namespace Formula

def Token.unitText : Token → String
  | .number _ unitText | .name _ unitText => unitText
  | _ => ""

/-- All units that the tokens carry can be read. -/
def Accepted (tokens : List Token) : Prop :=
  ∀ token ∈ tokens, ∃ unit, MeasureUnit.parse token.unitText = .ok unit

/-- The quantities that a token works with: what a name stands for, or the operands.  There are
none where a name stands for nothing, and too few where the stack is not high enough. -/
def Token.operands (lookup : Lookup) (stack : List Quantity) : Token → List Quantity
  | .name path _ => (lookup path >>= Item.toQuantity).toOption.toList
  | .operator (.unary _) => stack.take 1
  | .operator (.binary _) => stack.take 2
  | .call (.builtin f) _ => stack.take f.arity
  | _ => []

/-- An error of evaluations, or that of writing the dimension of one of these quantities. -/
def FailsAmong (operands : List Quantity) (e : Error) : Prop :=
  e.IsOfEvaluation ∨ ∃ q ∈ operands, q.dims.unitText = .error e

/-! ### Single tokens

A token whose unit can be read fails in three ways only: it lacks operands, or it refuses them,
or it cannot show the dimensions that it refuses.  The third is the one with an error that is
none of expressions, and it names its culprit among the quantities that the token works with. -/

/-- A rule on the stack is short of operands, which is an error of evaluations, or it refuses
those on top. -/
theorem raises_applyTop {rule : Rule} {n : Nat} (hn : rule.arity = n)
    (h : ∀ operands, Raises (Rule.Refuses operands) (rule.on operands)) (name : String)
    (stack : List Quantity) : Raises (FailsAmong (stack.take n)) (rule.applyTop name stack) := by
  subst hn
  by_cases hle : rule.arity ≤ stack.length
  -- The operands are there, and the rule refuses them.
  · rw [Rule.applyTop_getElem hle]
    refine raises_map ((h _).mono fun e he => ?_)
    cases he with
    | mismatch => exact .inl (.inl rfl)
    | exponent => exact .inl (.inr (.inl rfl))
    | unwritable i htext =>
      refine .inr ⟨_, ?_, htext⟩
      exact List.mem_take_iff_getElem.2 ⟨_, by omega, rfl⟩
  · rw [Rule.applyTop_of_lt (Nat.lt_of_not_le hle)]
    exact raises_error (.inl (.inr (.inl rfl)))

theorem raises_literal_of_accepted {value : Float} {unitText : String} {unit : MeasureUnit}
    (h : MeasureUnit.parse unitText = .ok unit) {P : Error → Prop} :
    Raises P (literal value unitText) := by
  rw [literal, h]
  exact raises_ok _

/-- A name that is not bound is an error of evaluations.  If it is bound, its declared unit can
be read, and what is left is that the unit does not fit, or that the dimension of the quantity
cannot be shown. -/
theorem raises_reference_of_accepted {path unitText : String} {unit : MeasureUnit}
    (h : MeasureUnit.parse unitText = .ok unit) (tolerance : Float) (b : Bindings) :
    Raises (FailsAmong (tableLookup b path >>= Item.toQuantity).toOption.toList)
      (reference tolerance (tableLookup b) path unitText) := by
  unfold reference tableLookup Bindings.lookup
  cases b.find? path with
  | none => exact raises_error (.inl (.inr (.inl rfl)))
  | some q =>
    show Raises (FailsAmong [q]) (checkDeclared tolerance path unitText q >>= fun _ => .ok q)
    refine raises_bind ?_ fun _ => raises_ok _
    unfold checkDeclared
    split
    · rw [h]
      show Raises _ (if _ then _ else _)
      split
      · refine raises_bind (fun e he => .inr ⟨q, List.mem_singleton_self q, he⟩) fun _ => ?_
        exact raises_error (.inl (.inl rfl))
      · exact raises_ok _
    · exact raises_ok _

/-- **What one token fails with**: an error of evaluations, or that of writing the dimension of a
quantity that it works with. -/
theorem raises_step_of_accepted {before after : Option Token} {token : Token}
    (hplace : token.InPlace before after) (hoperative : token.isOperative = true)
    {unit : MeasureUnit} (hunit : MeasureUnit.parse token.unitText = .ok unit)
    (tolerance : Float) (b : Bindings) (stack : List Quantity) :
    Raises (FailsAmong (token.operands (tableLookup b) stack))
      (step tolerance (tableLookup b) stack token) := by
  -- The place of the token in the text excludes unknown operators and functions, wrong numbers of
  -- arguments and tokens that are none.
  cases token with
  | number value unitText => exact raises_map (raises_literal_of_accepted hunit)
  | name path unitText => exact raises_map (raises_reference_of_accepted hunit tolerance b)
  | operator op =>
    obtain ⟨⟨n, hn⟩, _⟩ := hplace
    cases op with
    | unary op =>
      exact raises_applyTop (UnaryOp.arity_rule tolerance op) (Rule.refuses_unary tolerance op) _ _
    | binary op =>
      exact raises_applyTop (BinaryOp.arity_rule tolerance op) (Rule.refuses_binary tolerance op)
        _ _
    | unknown symbol => cases hn
  | call callee arity =>
    obtain ⟨⟨f, rfl, rfl⟩, _⟩ := hplace
    rw [step, if_pos rfl]
    exact raises_applyTop (Builtin.arity_rule tolerance f) (Rule.refuses_builtin tolerance f) _ _
  | leftParen | rightParen | comma => cases hoperative
  | foreign => exact hplace.elim

/-! ### Evaluations -/

/-- **Where an evaluation fails with something else.**  If all units in a compiled text can be read,
an evaluation in a table of bindings fails with an error of evaluations, or at a token that it comes
to and that works with a quantity one of whose exponents is infinite or no number: then the first of
these cannot be written, and that is no error of expressions. -/
theorem failure_of_accepted {text : String} {f : Formula} {tokens : List Token}
    (h : compile text = .ok f) (hscan : Token.scan text = .ok tokens) (haccepted : Accepted tokens)
    {engine : Engine} {b : Bindings} {e : Error}
    (he : (engine.evaluate f (.table b)).1.result = .error e) :
    e.IsOfEvaluation ∨
      ∃ settings stack token, engine.settings.1 = .ok settings ∧
        Reaches settings.tolerance (tableLookup b) f.program stack token ∧
        step settings.tolerance (tableLookup b) stack token = .error e ∧
        ∃ q ∈ token.operands (tableLookup b) stack,
          ∃ x, q.dims.exponents.find? (!·.isFinite) = some x ∧
            e = Exponents.unwritable x ∧ e.kind.isA .expression = false := by
  cases failure_of_evaluate he with
  | settings hsettings =>
    obtain ⟨_, _, _, rfl, _⟩ := engine.raises_settings e hsettings
    exact .inl (.inr (.inr rfl))
  | @token settings stack token hsettings hreaches hstep =>
    obtain ⟨hoperative, _, _, hplace⟩ := inPlace_of_compile h hreaches.mem
    -- The unit of the token stands in the text, so it is among those that can be read.
    obtain ⟨tokens', hscan', hprogram, _⟩ := scan_of_compile h
    rw [hscan] at hscan'
    cases hscan'
    obtain ⟨unit, hunit⟩ := haccepted token (Token.mem_of_toPostfix hprogram hreaches.mem).1
    rcases raises_step_of_accepted hplace hoperative hunit _ b stack e hstep with
      hexpected | ⟨q, hq, htext⟩
    · exact .inl hexpected
    · obtain ⟨x, hx, rfl⟩ := (unitText_eq_error_iff q.dims e).1 htext
      exact .inr ⟨settings, stack, token, hsettings, hreaches, hstep, q, hq, x, hx, rfl,
        not_isA_expression_unwritable x⟩
  | left heq =>
    subst heq
    exact .inl (.inr (.inl rfl))

/-! ### A power of a power

Exponents multiply, and finite ones whose product is beyond the floats give an infinite one.  No
value has to be out of range for it: the quantity itself is one metre to a large power. -/

/-- A sum of quantities that do not agree is refused in words that show their dimensions. -/
theorem step_add_of_unwritable {tolerance : Float} {c d : Dimension} {e : Error}
    (hagree : c.agree tolerance d = false) (htext : c.unitText = .error e) (lookup : Lookup)
    (x y : Float) :
    step tolerance lookup [⟨y, d⟩, ⟨x, c⟩] (.operator (.binary .add)) = .error e := by
  have hsame : Rule.requireSame tolerance BinaryOp.add.symbol Rule.matching ⟨x, c⟩ ⟨y, d⟩ =
      .error e := by
    rw [Rule.requireSame, hagree, htext]
    rfl
  show ((Rule.requireSame tolerance BinaryOp.add.symbol Rule.matching _ _ >>= _).map _) = _
  rw [hsame]
  rfl

/-- A power with an exponent that is a pure number and finite. -/
theorem step_pow_of_isFinite {tolerance y : Float} {d : Dimension}
    (hone : d.isOne tolerance = true) (hfinite : y.isFinite = true) (lookup : Lookup) (x : Float)
    (c : Dimension) :
    step tolerance lookup [⟨y, d⟩, ⟨x, c⟩] (.operator (.binary .pow)) =
      .ok [⟨Rule.power x y, c.pow y⟩] := by
  have hpure : Rule.requireOne tolerance "^ exponent" ⟨y, d⟩ = .ok ⟨⟩ := if_pos hone
  show ((Rule.requireOne tolerance "^ exponent" ⟨y, d⟩ >>= fun _ =>
    if y.isFinite then _ else _).map _) = _
  rw [hpure, hfinite]
  rfl

theorem step_plain_name {b : Bindings} {path : String} {q : Quantity} (h : b.find? path = some q)
    (tolerance : Float) (stack : List Quantity) :
    step tolerance (tableLookup b) stack (.name path "") = .ok (q :: stack) := by
  rw [step, reference, tableLookup, Bindings.lookup, h]
  rfl

/-- The exponent of the length in this power of a power is infinite, though no number in it is. -/
theorem unitText_power_of_power :
    ((Dimension.length.pow 1e200).pow 1e200).unitText = .error (.conversion .infinityToInteger) :=
  (unitText_eq_error_iff _ _).2 ⟨1 / 0, by decide +kernel, rfl⟩

/-- `(x^y)^y+y` for a length `x` and a number `y` whose square is beyond the floats: the sum has to
be refused, and the dimension of its first operand cannot be shown. -/
theorem evaluate_power_of_power :
    let b : Bindings := ⟨[("x", ⟨1, .length⟩), ("y", ⟨1e200, .one⟩)]⟩
    ∃ f tokens, Token.scan "(x^y)^y+y" = .ok tokens ∧ compile "(x^y)^y+y" = .ok f ∧
      Accepted tokens ∧ (Engine.evaluate {} f (.table b)).1.result =
        .error (.conversion .infinityToInteger) := by
  intro b
  have hscan : Token.scan "(x^y)^y+y" =
      .ok [.leftParen, .name "x" "", .operator (.binary .pow), .name "y" "", .rightParen,
        .operator (.binary .pow), .name "y" "", .operator (.binary .add), .name "y" ""] := by cbv
  have hparse : MeasureUnit.parse "" = .ok .one := rfl
  have hx := @step_plain_name b "x" _ rfl 1e-9
  have hy := @step_plain_name b "y" _ rfl 1e-9
  have hone : Dimension.one.isOne 1e-9 = true := by decide +kernel
  have hpow := @step_pow_of_isFinite 1e-9 1e200 .one hone (by decide +kernel) (tableLookup b)
  have hagree : ((Dimension.length.pow 1e200).pow 1e200).agree 1e-9 .one = false := by
    decide +kernel
  have hadd := step_add_of_unwritable hagree unitText_power_of_power (tableLookup b)
  -- The run stops at the sum, whose left operand is the power.
  have hrun : (run 1e-9 (tableLookup b) [] [.name "x" "", .name "y" "", .operator (.binary .pow),
      .name "y" "", .operator (.binary .pow), .name "y" "", .operator (.binary .add)]).result =
        .error (.conversion .infinityToInteger) := by
    rw [result_run_of_step (hx []), result_run_of_step (hy _), result_run_of_step (hpow _ _),
      result_run_of_step (hy _), result_run_of_step (hpow _ _), result_run_of_step (hy _),
      result_run_cons, hadd]
    rfl
  refine ⟨_, _, hscan, compile_of_scan hscan rfl, ?_, ?_⟩
  · simp [Accepted, Token.unitText, hparse]
  · exact @result_evaluate_of_run_error {} {} _ b _ rfl hrun

/-- The error of `(x^y)^y+y` is none of expressions. -/
theorem not_isA_expression_power_of_power :
    let b : Bindings := ⟨[("x", ⟨1, .length⟩), ("y", ⟨1e200, .one⟩)]⟩
    ∃ f tokens e, Token.scan "(x^y)^y+y" = .ok tokens ∧ compile "(x^y)^y+y" = .ok f ∧
      Accepted tokens ∧ (Engine.evaluate {} f (.table b)).1.result = .error e ∧
      e.kind = .overflow ∧ e.kind.isA .expression = false := by
  obtain ⟨f, tokens, hscan, hcompile, haccepted, he⟩ := evaluate_power_of_power
  exact ⟨f, tokens, _, hscan, hcompile, haccepted, he, rfl, rfl⟩

/-- In `(x^y)^y+y` an operand of a token that the run comes to has an exponent that is not
finite. -/
theorem failure_of_power_of_power :
    let b : Bindings := ⟨[("x", ⟨1, .length⟩), ("y", ⟨1e200, .one⟩)]⟩
    ∃ f tokens e, Token.scan "(x^y)^y+y" = .ok tokens ∧ compile "(x^y)^y+y" = .ok f ∧
      Accepted tokens ∧ (Engine.evaluate {} f (.table b)).1.result = .error e ∧
      ¬e.IsOfEvaluation ∧
      ∃ settings stack token, Reaches settings (tableLookup b) f.program stack token ∧
        ∃ q ∈ token.operands (tableLookup b) stack, ∃ x,
          q.dims.exponents.find? (!·.isFinite) = some x ∧ e = Exponents.unwritable x := by
  intro b
  obtain ⟨f, tokens, hscan, hcompile, haccepted, he⟩ := evaluate_power_of_power
  have hfailure : ¬(Error.conversion .infinityToInteger).IsOfEvaluation := by decide
  rcases failure_of_accepted hcompile hscan haccepted he with
    hexpected | ⟨settings, stack, token, _, hreaches, _, q, hq, x, hx, hwritten, _⟩
  · exact absurd hexpected hfailure
  · exact ⟨f, tokens, _, hscan, hcompile, haccepted, he, hfailure, settings.tolerance, stack, token,
      hreaches, q, hq, x, hx, hwritten⟩

end Formula

end Dimensional
