import Dimensional.Proofs.Formula.Reach
import Dimensional.Proofs.Item
import Dimensional.Proofs.Raw.MeasureUnit
import Dimensional.Proofs.Raw.Rule

/-!
# Formulas over raw exponents

The machine that runs programs, with exponents as plain lists: literals, declared units, operators
and functions make new quantities as the handling of raw exponents says.  Only the exponents of an
item that a look-up returns are counted here in any case, as there may be any number of them.

Under a sound handling the run of a program is, quantity by quantity, that over dimensions
(`run_ofQuantity`).  So an error of exponents that are not eight can come from items only
(`exists_of_step_exponentCount`).

Main statement: `exponents_stay_eight` — whatever a handling does about exponents that are not
eight, it never has to in a run of a program or of a unit expression.
-/

namespace Dimensional

open Error Exponents Fallible

/-! ### Outcomes -/

namespace Outcome

variable {α β γ : Type}

/-- The same look-ups with a result made of the result. -/
def map (o : Outcome α) (f : α → β) : Outcome β := ⟨o.lookups, o.result.map f⟩

theorem map_andThen (o : Outcome α) (f : α → Outcome β) (g : β → γ) :
    (o.andThen f).map g = o.andThen fun a => (f a).map g := by
  obtain ⟨lookups, e | a⟩ := o <;> rfl

theorem andThen_map (o : Outcome α) (f : α → β) (g : β → Outcome γ) :
    (o.map f).andThen g = o.andThen fun a => g (f a) := by
  obtain ⟨lookups, e | a⟩ := o <;> rfl

end Outcome

namespace RawQuantity

/-! ### The machine -/

section

variable (h : Handling)

def literal (value : Float) (unitText : String) : Except Error RawQuantity := do
  let unit ← RawUnit.parse h unitText
  make h (value * unit.scale) unit.exponents

/-- Checks the unit that a name declares, if it declares one, against the quantity it stands for. -/
def checkDeclared (tolerance : Float) (path unitText : String) (q : RawQuantity) :
    Except Error PUnit := do
  if unitText ≠ "" then
    let unit ← RawUnit.parse h unitText
    let agrees ← h.agree tolerance q.exponents unit.exponents
    if !agrees then
      let text ← q.exponents.unitText
      throw (.unitMismatch path
        ("declared [" ++ unitText ++ "] but value has [" ++ text ++ "]"))

/-- The quantity that a name stands for.  The exponents of an item are counted. -/
def reference (tolerance : Float) (lookup : Formula.Lookup) (path unitText : String) :
    Except Error RawQuantity := do
  let q ← (← lookup path).toQuantity
  checkDeclared h tolerance path unitText (ofQuantity q)
  return ofQuantity q

def step (tolerance : Float) (lookup : Formula.Lookup) (stack : List RawQuantity) :
    Formula.Token → Except Error (List RawQuantity)
  | .number value unitText => (literal h value unitText).map (· :: stack)
  | .name path unitText => (reference h tolerance lookup path unitText).map (· :: stack)
  | .operator (.unary op) => (RawRule.ofUnary h tolerance op).applyTop op.symbol stack
  | .operator (.binary op) => (RawRule.ofBinary h tolerance op).applyTop op.symbol stack
  | .operator (.unknown symbol) => .error (.unknownOperator symbol)
  | .call (.builtin f) arity =>
    if arity = f.arity then (RawRule.ofBuiltin h tolerance f).applyTop (f.name ++ "()") stack
    else .error (.evaluation (.wrongArity f.name f.arity arity))
  | .call (.unknown name) _ => .error (.unknownFunction name)
  | token => .error (.evaluation (.invalidToken token.shown))

def run (tolerance : Float) (lookup : Formula.Lookup) (stack : List RawQuantity) :
    List Formula.Token → Outcome (List RawQuantity)
  | [] => ⟨[], .ok stack⟩
  | token :: rest =>
    Outcome.andThen ⟨token.references, step h tolerance lookup stack token⟩
      fun stack => run tolerance lookup stack rest

def finish (source : String) : List RawQuantity → Except Error RawQuantity
  | [q] => .ok q
  | stack => .error (.evaluation (.valuesLeft source stack.length))

def evaluate (settings : Except Error Settings) (f : Formula) (context : Context) :
    Outcome RawQuantity :=
  match context.lookup?, settings with
  | none, _ => .ofExcept (.error (.evaluation .noLookup))
  | some _, .error e => .ofExcept (.error e)
  | some lookup, .ok settings =>
    (run h settings.tolerance lookup [] f.program).andThen fun stack =>
      .ofExcept (finish f.source stack)

end

/-! ### What is forgotten does not matter -/

section

variable {h : Handling} (hs : h.Sound)
include hs

theorem literal_eq (value : Float) (unitText : String) :
    literal h value unitText = (Formula.literal value unitText).map ofQuantity := by
  rw [literal, Formula.literal, RawUnit.parse_eq hs, map_then_bind, bind_then_map]
  exact bind_congr fun unit => make_exponents hs _ _

theorem checkDeclared_ofQuantity (tolerance : Float) (path unitText : String) (q : Quantity) :
    checkDeclared h tolerance path unitText (ofQuantity q) =
      Formula.checkDeclared tolerance path unitText q := by
  unfold checkDeclared Formula.checkDeclared
  split
  · rw [RawUnit.parse_eq hs, map_then_bind]
    refine bind_congr fun unit => ?_
    show (h.agree tolerance q.dims.exponents unit.dims.exponents >>= _) = _
    rw [hs.agree_exponents]
    rfl
  · rfl

theorem reference_eq (tolerance : Float) (lookup : Formula.Lookup) (path unitText : String) :
    reference h tolerance lookup path unitText =
      (Formula.reference tolerance lookup path unitText).map ofQuantity := by
  rw [reference, Formula.reference, bind_then_map]
  refine bind_congr fun item => ?_
  rw [bind_then_map]
  refine bind_congr fun q => ?_
  rw [checkDeclared_ofQuantity hs, bind_then_map]
  rfl

theorem step_ofQuantity (tolerance : Float) (lookup : Formula.Lookup) (stack : List Quantity)
    (token : Formula.Token) :
    step h tolerance lookup (stack.map ofQuantity) token =
      (Formula.step tolerance lookup stack token).map (List.map ofQuantity) := by
  obtain ⟨value, unitText⟩ | ⟨path, unitText⟩ | (op | op | symbol) | ⟨f | shown, arity⟩ | _ | _ |
    _ | shown := token
  · rw [step, literal_eq hs]
    exact map_cons_ofQuantity _ stack
  · rw [step, reference_eq hs]
    exact map_cons_ofQuantity _ stack
  · exact (RawRule.mirrors_unary hs tolerance op).applyTop op.symbol stack
  · exact (RawRule.mirrors_binary hs tolerance op).applyTop op.symbol stack
  · rfl
  · rw [step, Formula.step]
    split
    · exact (RawRule.mirrors_builtin hs tolerance f).applyTop (f.name ++ "()") stack
    · rfl
  all_goals rfl

/-- The run of a program over raw exponents is that over dimensions, with the same look-ups. -/
theorem run_ofQuantity (tolerance : Float) (lookup : Formula.Lookup) (stack : List Quantity)
    (program : List Formula.Token) :
    run h tolerance lookup (stack.map ofQuantity) program =
      (Formula.run tolerance lookup stack program).map (List.map ofQuantity) := by
  induction program generalizing stack with
  | nil => rfl
  | cons token rest ih =>
    rw [run, Formula.run, step_ofQuantity hs, Outcome.map_andThen]
    -- What is forgotten behind the first token is what the rest of the run starts from.
    have hfirst := Outcome.andThen_map
      ⟨token.references, Formula.step tolerance lookup stack token⟩ (List.map ofQuantity)
      fun stack => run h tolerance lookup stack rest
    exact hfirst.trans (congrArg (Outcome.andThen _) (funext ih))

/-- Every quantity that a run puts on the stack has eight exponents. -/
theorem length_of_run {tolerance : Float} {lookup : Formula.Lookup} {program : List Formula.Token}
    {stack : List RawQuantity} (hrun : (run h tolerance lookup [] program).result = .ok stack)
    {q : RawQuantity} (hq : q ∈ stack) : q.exponents.length = 8 := by
  have hsame := run_ofQuantity hs tolerance lookup [] program
  rw [List.map_nil] at hsame
  rw [hsame] at hrun
  obtain ⟨quantities, _, rfl⟩ := map_eq_ok_iff.1 hrun
  obtain ⟨p, _, rfl⟩ := List.mem_map.1 hq
  exact p.dims.length_eq

omit hs in
theorem finish_ofQuantity (source : String) (stack : List Quantity) :
    finish source (stack.map ofQuantity) = (Formula.finish source stack).map ofQuantity := by
  obtain _ | ⟨q, _ | ⟨q', rest⟩⟩ := stack
  · rfl
  · rfl
  · simp [finish, Formula.finish, Except.map]

/-- A formula has the same quantity, or fails with the same error, after the same look-ups. -/
theorem evaluate_eq (settings : Except Error Settings) (f : Formula) (context : Context) :
    evaluate h settings f context = (f.evaluate settings context).map ofQuantity := by
  unfold evaluate Formula.evaluate
  cases context.lookup? with
  | none => rfl
  | some lookup =>
    cases settings with
    | error e => rfl
    | ok settings =>
      show (run h settings.tolerance lookup ([].map ofQuantity) f.program).andThen _ = _
      rw [run_ofQuantity hs, Outcome.andThen_map, Outcome.map_andThen]
      simp only [finish_ofQuantity]
      rfl

end

end RawQuantity

/-! ### Where exponents are counted

Exponents are counted when an item is made a quantity.  Everything else that can fail has errors
of other sorts, so an error of this kind leads back to a name and to what the context answers
for it. -/

theorem Engine.fst_evaluate (engine : Engine) (f : Formula) (context : Context) :
    (engine.evaluate f context).1 = f.evaluate engine.settings.1 context := by
  unfold Engine.evaluate Engine.evaluateBy
  split <;> rfl

namespace Context

/-- What a context answers for a name before anything is made of it. -/
def answer? : Context → Option (String → Except Error Item)
  | .adapted f => some f
  | context => context.lookup?

/-- A look-up comes to the quantity that the answer stands for, or fails as that does.  A context
that converts its answers itself has them converted twice, and the second time changes nothing.
-/
theorem exists_answer {context : Context} {lookup : Formula.Lookup}
    (h : context.lookup? = some lookup) :
    ∃ answer, context.answer? = some answer ∧
      ∀ name, (lookup name >>= Item.toQuantity) = (answer name >>= Item.toQuantity) := by
  cases context with
  | table b => exact ⟨lookup, h, fun _ => rfl⟩
  | adapted f =>
    cases h
    refine ⟨f, rfl, fun name => ?_⟩
    show ((f name >>= fun item => item.toQuantity >>= fun q => .ok (Item.quantity q)) >>= _) = _
    rw [bind_assoc]
    refine bind_congr fun item => ?_
    cases item.toQuantity <;> rfl
  | bare f => exact ⟨lookup, h, fun _ => rfl⟩
  | unusable => cases h

end Context

namespace Formula

variable {tolerance : Float} {lookup : Lookup} {stack : List Quantity} {token : Token}
  {program : List Token} {n : Nat}

/-- Operands have eight exponents, and so has what a rule makes of them. -/
theorem applyTop_ne_exponentCount {rule : Rule}
    (hrule : ∀ operands, Raises IsRuleFault (rule.on operands)) (name : String)
    (stack : List Quantity) (n : Nat) :
    rule.applyTop name stack ≠ .error (.evaluation (.exponentCount n)) := by
  intro h
  by_cases hle : rule.arity ≤ stack.length
  · rw [Rule.applyTop_getElem hle, map_eq_error_iff] at h
    exact hrule _ _ h
  · rw [Rule.applyTop_of_lt (Nat.lt_of_not_le hle)] at h
    cases h

theorem bind_toQuantity_of_reference {path unitText : String}
    (h : reference tolerance lookup path unitText = .error (.evaluation (.exponentCount n))) :
    (lookup path >>= Item.toQuantity) = .error (.evaluation (.exponentCount n)) := by
  rw [reference_eq_bind] at h
  cases hitem : lookup path >>= Item.toQuantity with
  | error e =>
    rw [hitem] at h
    cases h
    rfl
  | ok q =>
    rw [hitem] at h
    have hraises : Raises (IsDeclarationFault path)
        (checkDeclared tolerance path unitText q >>= fun _ => .ok q) :=
      raises_bind (raises_checkDeclared _ _ _ _) fun _ => raises_ok _
    rcases hraises _ h with hunit | ⟨detail, hmismatch⟩ | hconversion
    · exact False.elim hunit
    · cases hmismatch
    · exact False.elim hconversion

/-- A token that fails for a number of exponents is a name, and what it stands for fails so. -/
theorem exists_of_step_exponentCount
    (h : step tolerance lookup stack token = .error (.evaluation (.exponentCount n))) :
    ∃ path unitText, token = .name path unitText ∧
      (lookup path >>= Item.toQuantity) = .error (.evaluation (.exponentCount n)) := by
  -- Texts of units and rules have errors of their own sorts, of which this is none.
  obtain ⟨value, unitText⟩ | ⟨path, unitText⟩ | (op | op | symbol) | ⟨f | shown, arity⟩ | _ | _ |
    _ | shown := token
  · rw [step, map_eq_error_iff] at h
    exact False.elim (raises_literal value unitText _ h)
  · rw [step, map_eq_error_iff] at h
    exact ⟨path, unitText, rfl, bind_toQuantity_of_reference h⟩
  · exact absurd h (applyTop_ne_exponentCount (Rule.raises_unary tolerance op) _ _ _)
  · exact absurd h (applyTop_ne_exponentCount (Rule.raises_binary tolerance op) _ _ _)
  · cases h
  · rw [step] at h
    split at h
    · exact absurd h (applyTop_ne_exponentCount (Rule.raises_builtin tolerance f) _ _ _)
    · cases h
  all_goals cases h

/-- In the end no exponents are counted, so the error has come out of the run. -/
theorem result_run_of_finish {source : String}
    (h : ((run tolerance lookup [] program).andThen fun stack =>
      .ofExcept (finish source stack)).result = .error (.evaluation (.exponentCount n))) :
    (run tolerance lookup [] program).result = .error (.evaluation (.exponentCount n)) := by
  rw [Outcome.andThen] at h
  cases hrun : (run tolerance lookup [] program).result with
  | error e =>
    rw [hrun] at h
    cases h
    rfl
  | ok stack =>
    rw [hrun] at h
    obtain _ | ⟨q, _ | ⟨q', rest⟩⟩ := stack
    all_goals cases h

/-- An evaluation that fails for a number of exponents has come to a name, and what the context
answers fails so, or is a pair with this number of exponents, which is not eight. -/
theorem exists_of_evaluate_exponentCount {engine : Engine} {f : Formula} {context : Context}
    (h : (engine.evaluate f context).1.result = .error (.evaluation (.exponentCount n))) :
    ∃ settings lookup answer stack path unitText,
      engine.settings.1 = .ok settings ∧ context.lookup? = some lookup ∧
      context.answer? = some answer ∧
      Reaches settings.tolerance lookup f.program stack (.name path unitText) ∧
      (answer path = .error (.evaluation (.exponentCount n)) ∨
        ∃ item, answer path = .ok item ∧ item.Miscounts n ∧
          item.toQuantity = .error (.evaluation (.exponentCount n))) := by
  rw [Engine.fst_evaluate] at h
  unfold evaluate at h
  cases hlookup : context.lookup? with
  | none =>
    simp only [hlookup] at h
    cases h
  | some lookup =>
    simp only [hlookup] at h
    cases hsettings : engine.settings.1 with
    | error e =>
      rw [hsettings] at h
      cases h
      obtain ⟨_, _, _, ⟨⟩, _⟩ := engine.raises_settings _ hsettings
    | ok settings =>
      rw [hsettings] at h
      have hrun := result_run_of_finish h
      obtain ⟨before, token, behind, stack, hprogram, hbefore, hfail⟩ := exists_of_run_error hrun
      obtain ⟨path, unitText, rfl, hpath⟩ := exists_of_step_exponentCount hfail
      obtain ⟨answer, hanswer, hsame⟩ := Context.exists_answer hlookup
      refine ⟨settings, lookup, answer, stack, path, unitText, rfl, rfl, hanswer,
        ⟨before, behind, hprogram, hbefore⟩, ?_⟩
      rw [hsame] at hpath
      cases hitem : answer path with
      | error e =>
        rw [hitem] at hpath
        cases hpath
        exact .inl rfl
      | ok item =>
        rw [hitem] at hpath
        exact .inr ⟨item, rfl, Item.miscounts_of_toQuantity hpath, hpath⟩

end Formula

/-- **Exponents stay eight.**  Whatever is done with exponents that are not eight, when a quantity
or a unit is made of them or when two lists are gone through in pairs, it makes no difference:
programs run as they do over dimensions, unit expressions do, and texts of units are parsed into the
same units.  So pairs that end with the shorter list never leave an exponent out; lists of different
length could as well be refused (`Handling.strict`).

All that is ever on the stack has eight exponents, whatever the program, and so has every unit in a
run of a unit expression.  The error of exponents that are not eight is none of a text of a unit;
and an evaluation ends in it only at a name for which the context answers with a pair of that many
exponents, or with this very error. -/
theorem exponents_stay_eight {h : Handling} (hs : h.Sound) :
    (∀ (tolerance : Float) (lookup : Formula.Lookup) (program : List Formula.Token),
      RawQuantity.run h tolerance lookup [] program =
        (Formula.run tolerance lookup [] program).map (List.map .ofQuantity) ∧
      ∀ stack, (RawQuantity.run h tolerance lookup [] program).result = .ok stack →
        ∀ q ∈ stack, q.exponents.length = 8) ∧
    (∀ (text : String) (tokens : List MeasureUnit.Token),
      tokens.foldlM (RawOperand.step h text) [] =
        (tokens.foldlM (MeasureUnit.Operand.step text) []).map (List.map .ofOperand) ∧
      ∀ stack, tokens.foldlM (RawOperand.step h text) [] = .ok stack →
        ∀ u, .unit u ∈ stack → u.exponents.length = 8) ∧
    (∀ text, RawUnit.parse h text = (MeasureUnit.parse text).map .ofUnit ∧
      ∀ n, RawUnit.parse h text ≠ .error (.evaluation (.exponentCount n))) ∧
    ∀ (engine : Engine) (f : Formula) (context : Context),
      RawQuantity.evaluate h engine.settings.1 f context =
        (engine.evaluate f context).1.map .ofQuantity ∧
      ∀ n, (RawQuantity.evaluate h engine.settings.1 f context).result =
          .error (.evaluation (.exponentCount n)) →
        ∃ settings lookup answer stack path unitText,
          engine.settings.1 = .ok settings ∧ context.lookup? = some lookup ∧
          context.answer? = some answer ∧
          Formula.Reaches settings.tolerance lookup f.program stack (.name path unitText) ∧
          (answer path = .error (.evaluation (.exponentCount n)) ∨
            ∃ item, answer path = .ok item ∧ item.Miscounts n ∧
              item.toQuantity = .error (.evaluation (.exponentCount n))) := by
  refine ⟨?_, ?_, ?_, ?_⟩
  · intro tolerance lookup program
    exact ⟨RawQuantity.run_ofQuantity hs tolerance lookup [] program,
      fun _ hrun _ hq => RawQuantity.length_of_run hs hrun hq⟩
  · intro text tokens
    exact ⟨RawOperand.foldlM_step_ofOperand hs text [] tokens,
      fun _ hrun _ hu => RawOperand.length_of_foldlM_step hs hrun hu⟩
  · intro text
    exact ⟨RawUnit.parse_eq hs text, RawUnit.parse_ne_exponentCount hs text⟩
  · intro engine f context
    have hsame : RawQuantity.evaluate h engine.settings.1 f context =
        (engine.evaluate f context).1.map .ofQuantity := by
      rw [engine.fst_evaluate, RawQuantity.evaluate_eq hs]
    refine ⟨hsame, ?_⟩
    intro n hn
    -- The error of the raw evaluation is that of the evaluation, so it has come from an item.
    rw [hsame] at hn
    exact Formula.exists_of_evaluate_exponentCount (map_eq_error_iff.1 hn)

/-- `x*x*y` where `x` is two metres and `y` a pair of seven exponents only: the product of metres
has eight, and so has that of metres and seconds in a text of a unit, whether lists of other lengths
are checked or not; `y` is refused, although a handling might take it. -/
theorem exponents_stay_eight_of_short_pair :
    let answer : String → Except Error Item := fun name =>
      .ok (if name = "x" then .quantity ⟨2, .length⟩
        else .tuple [.real 2, .list (List.replicate 7 (.real 1))])
    let times : Formula.Token := .operator (.binary .mul)
    let square : List Formula.Token := [.name "x" "", .name "x" "", times]
    let f : Formula := ⟨"x*x*y", square ++ [.name "y" "", times], ["x", "y"]⟩
    let units : List MeasureUnit.Token := [⟨.name "m", 0⟩, ⟨.name "s", 2⟩, ⟨.times, 1⟩]
    Handling.checked.Sound ∧ Handling.strict.Sound ∧
    RawQuantity.run .checked 1e-9 answer [] square =
      RawQuantity.run .strict 1e-9 answer [] square ∧
    (∃ q, (RawQuantity.run .strict 1e-9 answer [] square).result = .ok [q] ∧
      q.exponents.length = 8) ∧
    (∃ u, units.foldlM (RawOperand.step .strict "m*s") [] = .ok [.unit u] ∧
      u.exponents.length = 8) ∧
    (RawQuantity.evaluate .strict (Engine.settings {}).1 f (.bare answer)).result =
      .error (.evaluation (.exponentCount 7)) ∧
    ∃ (settings : Settings) (stack : List Quantity) (path unitText : String) (item : Item),
      Formula.Reaches settings.tolerance answer f.program stack (.name path unitText) ∧
        answer path = .ok item ∧ item.Miscounts 7 := by
  intro answer times square f units
  obtain ⟨hchecked, _⟩ := exponents_stay_eight Handling.sound_checked
  obtain ⟨hrun, hunits, _, hevaluate⟩ := exponents_stay_eight Handling.sound_strict
  have hsquare : (RawQuantity.run .strict 1e-9 answer [] square).result =
      .ok [⟨2 * 2, (Dimension.length * .length).exponents⟩] := rfl
  obtain ⟨u, hu⟩ : ∃ u, units.foldlM (RawOperand.step .strict "m*s") [] = .ok [.unit u] := ⟨_, rfl⟩
  have hy : (RawQuantity.evaluate .strict (Engine.settings {}).1 f (.bare answer)).result =
      .error (.evaluation (.exponentCount 7)) := rfl
  refine ⟨Handling.sound_checked, Handling.sound_strict,
    (hchecked _ _ _).1.trans (hrun _ _ _).1.symm,
    ⟨_, hsquare, (hrun _ _ _).2 _ hsquare _ (List.mem_singleton_self _)⟩,
    ⟨u, hu, (hunits _ _).2 _ hu u (List.mem_singleton_self _)⟩, hy, ?_⟩
  obtain ⟨settings, lookup, answer', stack, path, unitText, _, hlookup, hanswer, hreaches, hitem⟩ :=
    (hevaluate {} f (.bare answer)).2 7 hy
  cases hlookup
  cases hanswer
  obtain herror | ⟨item, hitem, hcount, _⟩ := hitem
  · cases herror
  · exact ⟨settings, stack, path, unitText, item, hreaches, hitem, hcount⟩

end Dimensional
