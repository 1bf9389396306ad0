import Dimensional.Proofs.Formula.Lockstep
import Dimensional.Proofs.Formula.Supplied
import Dimensional.Proofs.MeasureUnit.Overflow

/-!
# Programs without declared units

A name may declare a unit.  The unit is compared with the quantity that the name stands for, and
that quantity is what goes on the stack: it is neither converted nor rescaled.  So a program does
the same without its declarations (`Formula.bare`), unless one of them refuses its quantity.

Main statement: `evaluate_bare` — declarations are assertions and nothing else.
-/

namespace Dimensional

open Fallible

/-- For each of these names there is a quantity whose exponents are finite, or none at all. -/
def Context.FiniteOn (context : Context) (names : List String) : Prop :=
  ∀ supply, context.supply? = some supply →
    ∀ name ∈ names, ∀ q, supply name = .ok q → q.dims.IsFinite

/-- A dimension with finite exponents has a text. -/
theorem Dimension.IsFinite.exists_unitText {d : Dimension} (h : d.IsFinite) :
    ∃ text, d.unitText = .ok text := by
  cases htext : d.unitText with
  | ok text => exact ⟨text, rfl⟩
  | error e =>
    obtain ⟨x, hx, _⟩ := (unitText_eq_error_iff d e).1 htext
    have hfinite := h x (List.mem_of_find?_eq_some hx)
    have hinfinite := List.find?_some hx
    rw [hfinite] at hinfinite
    cases hinfinite

namespace Formula

/-- The token without the unit that it declares, if it is a name. -/
def Token.bare : Token → Token
  | .name path _ => .name path ""
  | token => token

def bare (f : Formula) : Formula := { f with program := f.program.map Token.bare }

theorem Token.references_bare (token : Token) : token.bare.references = token.references := by
  cases token <;> rfl

/-! ### Single tokens

Only a name with a declaration can tell a program from its bare form.  Its check has two ways to
fail, a unit that cannot be read and a dimension that does not fit, as long as the dimension of
the quantity can be printed in the message; with an exponent that is infinite or no number it
cannot. -/

/-- The token is a name with a declared unit, and this is the error of comparing it with the
quantity that the name stands for. -/
def Declines (tolerance : Float) (lookup : Lookup) (token : Token) (e : Error) : Prop :=
  ∃ path unitText q, token = .name path unitText ∧ unitText ≠ "" ∧
    (lookup path >>= Item.toQuantity) = .ok q ∧ checkDeclared tolerance path unitText q = .error e

section

variable {tolerance : Float} {lookup : Lookup}

/-- A name puts its quantity on the stack once its declaration is checked.  The check decides
whether it does, and never what it puts there. -/
theorem step_name {path : String} {q : Quantity} (hq : (lookup path >>= Item.toQuantity) = .ok q)
    (unitText : String) (stack : List Quantity) :
    step tolerance lookup stack (.name path unitText) =
      (checkDeclared tolerance path unitText q).map fun _ => q :: stack := by
  rw [step, reference_eq_bind, hq]
  show (checkDeclared tolerance path unitText q >>= fun _ => .ok q).map _ = _
  cases checkDeclared tolerance path unitText q <;> rfl

/-- **One token without its declaration** does what it does with it, unless that declines.  All
tokens but names have no declaration; a name is looked up before it is checked, and so it is
looked up in either case. -/
theorem agreesUnless_step_bare (token : Token) (stack : List Quantity) :
    AgreesUnless (Declines tolerance lookup token) (step tolerance lookup stack token)
      (step tolerance lookup stack token.bare) := by
  cases token with
  | name path unitText =>
    cases hq : lookup path >>= Item.toQuantity with
    -- The name cannot be looked up, and that comes before the check.
    | error e =>
      refine AgreesUnless.map (.inl ?_)
      rw [reference_eq_bind, reference_eq_bind, hq]
      rfl
    | ok q =>
      rw [Token.bare, step_name hq, step_name hq]
      cases hcheck : checkDeclared tolerance path unitText q with
      | ok => exact .inl rfl
      | error e =>
        refine .inr ⟨path, unitText, q, rfl, ?_, hq, hcheck⟩
        -- An empty declaration is checked by nothing.
        rintro rfl
        cases hcheck
  | _ => exact .inl rfl

/-- The check passes a quantity of the declared dimension, and of no declared dimension at all.
-/
theorem checkDeclared_of_agree {unitText : String} {unit : MeasureUnit} {q : Quantity}
    (hunit : MeasureUnit.parse unitText = .ok unit) (h : q.dims.agree tolerance unit.dims = true)
    (path : String) : checkDeclared tolerance path unitText q = .ok ⟨⟩ := by
  unfold checkDeclared
  split
  · rw [hunit]
    show (if !q.dims.agree tolerance unit.dims then _ else _) = _
    rw [h]
    rfl
  · rfl

theorem checkDeclared_of_not_agree {unitText text : String} {unit : MeasureUnit} {q : Quantity}
    (hunit : MeasureUnit.parse unitText = .ok unit) (hne : unitText ≠ "")
    (h : q.dims.agree tolerance unit.dims = false) (htext : q.dims.unitText = .ok text)
    (path : String) :
    checkDeclared tolerance path unitText q =
      .error (.unitMismatch path
        ("declared [" ++ unitText ++ "] but value has [" ++ text ++ "]")) := by
  unfold checkDeclared
  rw [if_pos hne, hunit]
  show (if !q.dims.agree tolerance unit.dims then _ else _) = _
  rw [h, htext]
  rfl

/-- A declaration that declines a quantity with finite exponents cannot be read, or else it is the
dimension that does not fit. -/
theorem checkDeclared_eq_error {path unitText : String} {q : Quantity} {e : Error}
    (hfinite : q.dims.IsFinite) (hne : unitText ≠ "")
    (h : checkDeclared tolerance path unitText q = .error e) :
    MeasureUnit.parse unitText = .error e ∨ ∃ detail, e = .unitMismatch path detail := by
  cases hunit : MeasureUnit.parse unitText with
  | error e' =>
    unfold checkDeclared at h
    rw [if_pos hne, hunit] at h
    cases h
    exact .inl rfl
  | ok unit =>
    obtain ⟨text, htext⟩ := hfinite.exists_unitText
    cases hagree : q.dims.agree tolerance unit.dims with
    | true =>
      rw [checkDeclared_of_agree hunit hagree] at h
      cases h
    | false =>
      rw [checkDeclared_of_not_agree hunit hne hagree htext] at h
      cases h
      exact .inr ⟨_, rfl⟩

end

/-! ### Evaluations -/

/-- An evaluation with a result has looked up all names. -/
theorem lookups_evaluate_of_ok {settings : Except Error Settings} {f : Formula} {context : Context}
    {q : Quantity} (h : (evaluate settings f context).result = .ok q) :
    (evaluate settings f context).lookups = Token.occurrences f.program := by
  unfold evaluate at h ⊢
  split at h
  · cases h
  · cases h
  · rw [lookups_andThen_ofExcept]
    exact lookups_run_of_ok (result_of_finish h)

theorem occurrences_bare (f : Formula) :
    Token.occurrences f.bare.program = Token.occurrences f.program := by
  rw [bare, Token.occurrences, List.flatMap_map]
  simp only [Token.references_bare]
  rfl

/-- **Declared units are assertions and nothing else.**  A program that has a result has the same
without its declarations, after the same look-ups.  If it has a result without them, and all
exponents of what it looks up are finite, it has the same with them, or it fails at a name that
declares a unit: the unit cannot be read, or it does not fit the quantity that the name stands
for. -/
theorem evaluate_bare (settings : Except Error Settings) (f : Formula) (context : Context) :
    (∀ q, (evaluate settings f context).result = .ok q →
      evaluate settings f.bare context = evaluate settings f context) ∧
    ∀ q, (evaluate settings f.bare context).result = .ok q →
      context.FiniteOn (evaluate settings f.bare context).lookups →
        evaluate settings f context = evaluate settings f.bare context ∨
        ∃ place path unitText e, f.program[place]? = some (.name path unitText) ∧
          unitText ≠ "" ∧ evaluatePlaced settings f context = .error (some place, e) ∧
          (MeasureUnit.parse unitText = .error e ∨ ∃ detail, e = .unitMismatch path detail) := by
  cases hlookup : context.lookup? with
  | none =>
    have hsame : evaluate settings f context = evaluate settings f.bare context := by
      unfold evaluate
      rw [hlookup]
    exact ⟨fun _ _ => hsame.symm, fun _ _ _ => .inl hsame⟩
  | some lookup =>
    cases settings with
    | error e =>
      have hsame : evaluate (.error e) f context = evaluate (.error e) f.bare context := by
        unfold evaluate
        rw [hlookup]
      exact ⟨fun _ _ => hsame.symm, fun _ _ _ => .inl hsame⟩
    | ok settings =>
      rcases @evaluate_agrees_or_stops lookup Token.bare _ settings settings context f f.bare
          hlookup rfl rfl Token.references_bare agreesUnless_step_bare with
        ⟨hsame, _, _⟩ | ⟨place, token, stack, e, harrives, _, hfail, hdeclines⟩
      · exact ⟨fun _ _ => hsame.symm, fun _ _ _ => .inl hsame⟩
      · obtain ⟨path, unitText, q, rfl, hdeclared, hq, hcheck⟩ := hdeclines
        refine ⟨fun q hresult => ?_, fun r hresult hfinite => ?_⟩
        · rw [result_evaluate, hfail] at hresult
          cases hresult
        · refine .inr ⟨place, path, unitText, e, harrives.1, hdeclared, hfail, ?_⟩
          -- Without the declarations the evaluation gets to the end, and so it looks the name up.
          have hmem : path ∈ (evaluate (.ok settings) f.bare context).lookups := by
            rw [lookups_evaluate_of_ok hresult, occurrences_bare]
            exact List.mem_flatMap.2 ⟨_, List.mem_of_getElem? harrives.1, List.mem_singleton_self _⟩
          have hsupply : context.supply? = some fun name => lookup name >>= Item.toQuantity := by
            rw [Context.supply?, hlookup]
            rfl
          exact checkDeclared_eq_error (hfinite _ hsupply path hmem q hq) hdeclared hcheck

/-- `x*y` for a length `x` and a number `y`: declaring `x` in kilometres makes no difference, and
declaring it in seconds makes the evaluation fail at `x`. -/
theorem evaluate_declared_length :
    let b : Bindings := ⟨[("x", ⟨2, .length⟩), ("y", .scalar 3)]⟩
    let f : String → Formula := fun unitText =>
      ⟨"x*y", [.name "x" unitText, .name "y" "", .operator (.binary .mul)], ["x", "y"]⟩
    (∃ q, (evaluate (.ok {}) (f "km") (.table b)).result = .ok q ∧
      (evaluate (.ok {}) (f "") (.table b)).result = .ok q) ∧
    Context.FiniteOn (.table b) ["x", "y"] ∧
    ∃ place path unitText e, (f "s").program[place]? = some (.name path unitText) ∧
      unitText ≠ "" ∧ evaluatePlaced (.ok {}) (f "s") (.table b) = .error (some place, e) ∧
      (MeasureUnit.parse unitText = .error e ∨ ∃ detail, e = .unitMismatch path detail) := by
  intro b f
  obtain ⟨km, hkm, hagree⟩ : ∃ unit, MeasureUnit.parse "km" = .ok unit ∧
      Dimension.length.agree 1e-9 unit.dims = true := by
    have hnormal : MeasureUnit.Spelling.normalize "km".toList = ['k', 'm'] := by cbv
    open MeasureUnit MeasureUnit.Token in
    rw [parse_of_toPostfix hnormal (List.cons_ne_nil _ _)
      (scanFrom_cons rfl (scanFrom_nil _ _ _)) rfl]
    exact ⟨_, rfl, by decide +kernel⟩
  obtain ⟨s, hs, hrefused⟩ : ∃ unit, MeasureUnit.parse "s" = .ok unit ∧
      Dimension.length.agree 1e-9 unit.dims = false := by
    have hnormal : MeasureUnit.Spelling.normalize "s".toList = ['s'] := by cbv
    open MeasureUnit MeasureUnit.Token in
    rw [parse_of_toPostfix hnormal (List.cons_ne_nil _ _)
      (scanFrom_cons rfl (scanFrom_nil _ _ _)) rfl]
    exact ⟨_, rfl, by decide +kernel⟩
  have hx : (tableLookup b "x" >>= Item.toQuantity) = .ok ⟨2, .length⟩ := rfl
  have hfinite : Context.FiniteOn (.table b) ["x", "y"] := by
    rintro supply hsupply name hname q hq
    cases hsupply
    obtain rfl | rfl : name = "x" ∨ name = "y" := by simpa using hname
    · cases hq
      decide +kernel
    · cases hq
      exact Dimension.isFinite_one
  have hstep_km : step 1e-9 (tableLookup b) [] (.name "x" "km") = .ok [⟨2, .length⟩] := by
    have hcheck := @checkDeclared_of_agree _ _ _ ⟨2, .length⟩ hkm hagree "x"
    rw [step_name hx, hcheck]
    rfl
  obtain ⟨e, hstep_s⟩ : ∃ e, step 1e-9 (tableLookup b) [] (.name "x" "s") = .error e := by
    have hcheck := @checkDeclared_of_not_agree _ _ _ _ ⟨2, .length⟩ hs (by decide) hrefused rfl "x"
    rw [step_name hx, hcheck]
    exact ⟨_, rfl⟩
  have hresult : ∃ q, (evaluate (.ok {}) (f "km") (.table b)).result = .ok q := by
    rw [evaluate_table, run_cons_of_ok hstep_km]
    exact ⟨_, rfl⟩
  obtain ⟨q, hq⟩ := hresult
  have hbare := (evaluate_bare (.ok {}) (f "km") (.table b)).1 q hq
  refine ⟨⟨q, hq, ?_⟩, hfinite, ?_⟩
  · rw [← hq, ← hbare]
    rfl
  · rcases (evaluate_bare (.ok {}) (f "s") (.table b)).2 _ rfl hfinite with hsame | hdeclined
    · rw [evaluate_table, run_cons_of_error hstep_s] at hsame
      cases hsame
    · exact hdeclined

end Formula

end Dimensional
