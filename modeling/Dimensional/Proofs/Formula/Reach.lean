import Dimensional.Proofs.Environment
import Dimensional.Proofs.Formula.Depth
import Dimensional.Proofs.Formula.Height
import Dimensional.Proofs.Formula.InPlace
import Dimensional.Proofs.Formula.Reordered

/-!
# Where evaluations fail

A run that fails does so at a token that it comes to, with the stack that it has by then
(`Reaches`, `exists_of_run_error`), and an evaluation in a table of bindings fails there, in the
settings or in the end (`failure_of_evaluate`).  The tokens of a compiled text are in their places,
so that nothing is wrong about them but their operands (`raises_step_of_inPlace`).

Main statement: `wellFormed_compile` — what the scanner promises about its tokens holds of every
text, and the machine can rely on it.
-/

namespace Dimensional

open Error Fallible

/-- Errors of programs with tokens that cannot be applied, whatever there is on the stack. -/
def Error.IsProgramFault : Error → Prop
  | .unknownOperator _ | .unknownFunction _ => True
  | .evaluation (.wrongArity ..) | .evaluation (.invalidToken _) => True
  | _ => False

theorem Error.IsProgramFault.isStructural {e : Error} (h : e.IsProgramFault) : e.IsStructural := by
  cases e with
  | evaluation fault => cases fault <;> trivial
  | _ => trivial

namespace Formula

/-! ### What a text can be refused for -/

theorem Token.raises_scanFrom (text : String) (operandExpected : Bool) (cs : List Char) :
    Raises (IsFaultOf text) (scanFrom text operandExpected cs) := by
  fun_induction scanFrom text operandExpected cs with
  | case1 => exact raises_ok _
  | case2 _ _ _ _ ih => exact ih
  | case3 => exact raises_error ⟨_, _, rfl⟩
  | case4 _ _ _ _ _ _ _ _ ih => exact raises_map ih

/-- The operators of a text can be compared with each other. -/
theorem Token.comparable_of_scan {text : String} {tokens : List Token}
    (h : scan text = .ok tokens) (op : Operator) (hop : .operator op ∈ tokens) :
    ∃ n, op.precedence? = some n := by
  obtain ⟨before, behind, rfl⟩ := List.append_of_mem hop
  exact (inPlace_of_scan h rfl).1

/-- A text that is refused has a fault, and that is shown. -/
theorem raises_compile (text : String) : Raises (Token.IsFaultOf text) (compile text) := by
  intro e he
  unfold compile at he
  cases hscan : Token.scan text with
  | error e' =>
    rw [hscan] at he
    cases he
    exact Token.raises_scanFrom text true text.toList e hscan
  | ok tokens =>
    rw [hscan] at he
    have hpostfix := Token.raises_toPostfix (Token.comparable_of_scan hscan) text
    exact raises_bind hpostfix (fun _ => raises_ok _) e he

/-! ### Where a run fails -/

/-- A run of the program comes to this token, with this stack.  The same token may stand in the
program several times, so the program is parted at the one that is meant. -/
def Reaches (tolerance : Float) (lookup : Lookup) (program : List Token) (stack : List Quantity)
    (token : Token) : Prop :=
  ∃ before behind, program = before ++ token :: behind ∧
    (run tolerance lookup [] before).result = .ok stack

theorem Reaches.mem {tolerance : Float} {lookup : Lookup} {program : List Token}
    {stack : List Quantity} {token : Token} (h : Reaches tolerance lookup program stack token) :
    token ∈ program := by
  obtain ⟨before, behind, rfl, _⟩ := h
  exact List.mem_append_right _ List.mem_cons_self

/-- A run goes on with the stack that its first token leaves. -/
theorem result_run_cons (tolerance : Float) (lookup : Lookup) (stack : List Quantity)
    (token : Token) (rest : List Token) :
    (run tolerance lookup stack (token :: rest)).result =
      step tolerance lookup stack token >>= fun next =>
        (run tolerance lookup next rest).result := by
  rw [run, Outcome.andThen]
  cases step tolerance lookup stack token <;> rfl

theorem result_run_of_step {tolerance : Float} {lookup : Lookup} {stack next : List Quantity}
    {token : Token} (h : step tolerance lookup stack token = .ok next) (rest : List Token) :
    (run tolerance lookup stack (token :: rest)).result =
      (run tolerance lookup next rest).result := by
  rw [run_cons_of_ok h]

/-- A run that fails is a run up to some token and the failure of that token.  What stands behind
the token plays no part. -/
theorem exists_of_run_error {tolerance : Float} {lookup : Lookup} {stack : List Quantity}
    {program : List Token} {e : Error}
    (h : (run tolerance lookup stack program).result = .error e) :
    ∃ before token behind stack', program = before ++ token :: behind ∧
      (run tolerance lookup stack before).result = .ok stack' ∧
      step tolerance lookup stack' token = .error e := by
  induction program generalizing stack with
  | nil => cases h
  | cons token rest ih =>
    rw [result_run_cons] at h
    cases hstep : step tolerance lookup stack token with
    | error e' =>
      rw [hstep] at h
      cases h
      exact ⟨[], token, rest, stack, rfl, rfl, hstep⟩
    -- The token is passed, and the failure is found behind it by induction.
    | ok next =>
      rw [hstep] at h
      obtain ⟨before, token', behind, stack', rfl, hbefore, hfail⟩ := ih h
      refine ⟨token :: before, token', behind, stack', rfl, ?_, hfail⟩
      rw [result_run_of_step hstep]
      exact hbefore

/-- The ways in which an evaluation in a table of bindings fails. -/
inductive Failure (engine : Engine) (f : Formula) (b : Bindings) (e : Error) : Prop where
  /-- There are no settings. -/
  | settings : engine.settings.1 = .error e → Failure engine f b e
  /-- A token fails. -/
  | token {settings : Settings} {stack : List Quantity} {token : Token} :
      engine.settings.1 = .ok settings →
      Reaches settings.tolerance (tableLookup b) f.program stack token →
      step settings.tolerance (tableLookup b) stack token = .error e → Failure engine f b e
  /-- Too many quantities are left, or none. -/
  | left {count : Nat} : e = .evaluation (.valuesLeft f.source count) → Failure engine f b e

theorem failure_of_evaluate {engine : Engine} {f : Formula} {b : Bindings} {e : Error}
    (h : (engine.evaluate f (.table b)).1.result = .error e) : Failure engine f b e := by
  replace h : (evaluate engine.settings.1 f (.table b)).result = .error e := h
  cases hsettings : engine.settings.1 with
  | error e' =>
    rw [hsettings] at h
    cases h
    exact .settings hsettings
  | ok settings =>
    rw [hsettings, evaluate_table, Outcome.andThen] at h
    cases hrun : (run settings.tolerance (tableLookup b) [] f.program).result with
    | error e' =>
      rw [hrun] at h
      cases h
      obtain ⟨before, token, behind, stack, hprogram, hbefore, hfail⟩ := exists_of_run_error hrun
      exact .token hsettings ⟨before, behind, hprogram, hbefore⟩ hfail
    | ok stack =>
      rw [hrun] at h
      -- The run goes through, and one value on the stack is a result.
      obtain _ | ⟨q, _ | ⟨q', stack⟩⟩ := stack
      · cases h
        exact .left rfl
      · cases h
      · cases h
        exact .left rfl

theorem result_evaluate_of_run_error {engine : Engine} {settings : Settings} {f : Formula}
    {b : Bindings} {e : Error} (hsettings : engine.settings.1 = .ok settings)
    (hrun : (run settings.tolerance (tableLookup b) [] f.program).result = .error e) :
    (engine.evaluate f (.table b)).1.result = .error e := by
  show (evaluate engine.settings.1 f (.table b)).result = .error e
  rw [hsettings, evaluate_table, Outcome.andThen, hrun]

/-! ### The tokens of a compiled text

Whether a token can be applied at all does not depend on the stack, only on the token.  That has
been foreseen already from the height of the stack (`foreseen_step`), so the heights are looked
at here and not the rules. -/

/-- The tokens that a program holds are in their places in the text. -/
theorem inPlace_of_compile {text : String} {f : Formula} (h : compile text = .ok f) {token : Token}
    (htoken : token ∈ f.program) :
    token.isOperative = true ∧ ∃ before after, token.InPlace before after := by
  obtain ⟨tokens, hscan, hprogram, _⟩ := scan_of_compile h
  obtain ⟨hmem, hoperative⟩ := Token.mem_of_toPostfix hprogram htoken
  obtain ⟨before, behind, rfl⟩ := List.append_of_mem hmem
  exact ⟨hoperative, _, _, Token.inPlace_of_scan hscan rfl⟩

def IsMissingOperand (e : Error) : Prop :=
  ∃ operation required available, e = .missingOperand operation required available

theorem raises_heightApplied_missing (operation : String) (required height : Nat) :
    Raises IsMissingOperand (heightApplied operation required height) := by
  unfold heightApplied
  split
  · exact raises_ok _
  · exact raises_error ⟨_, _, _, rfl⟩

/-- A token in its place lacks nothing but operands, at any height: its operator is known, and a
call has the function and the number of arguments that the function takes. -/
theorem raises_heightAfter_of_inPlace {before after : Option Token} {token : Token}
    (hplace : token.InPlace before after) (hoperative : token.isOperative = true) (height : Nat) :
    Raises IsMissingOperand (token.heightAfter height) := by
  cases token with
  | number value unitText => exact raises_ok _
  | name path unitText => exact raises_ok _
  | operator op =>
    obtain ⟨⟨n, hn⟩, _⟩ := hplace
    cases op with
    | unary op => exact raises_heightApplied_missing _ _ _
    | binary op => exact raises_heightApplied_missing _ _ _
    | unknown symbol => cases hn
  | call callee arity =>
    obtain ⟨⟨f, rfl, rfl⟩, _⟩ := hplace
    rw [Token.heightAfter, if_pos rfl]
    exact raises_heightApplied_missing _ _ _
  | leftParen | rightParen | comma => cases hoperative
  | foreign => exact hplace.elim

/-- A token in its place finds no operands, or it fails with an error of its own. -/
theorem raises_step_of_inPlace {before after : Option Token} {token : Token}
    (hplace : token.InPlace before after) (hoperative : token.isOperative = true)
    (tolerance : Float) (b : Bindings) (stack : List Quantity) :
    Raises (fun e => token.OwnFault e ∨ IsMissingOperand e)
      (step tolerance (tableLookup b) stack token) := by
  intro e he
  have hraises := raises_heightAfter_of_inPlace hplace hoperative stack.length
  -- Either the token fails on its own account, or the heights tell of its failure.
  rcases @foreseen_step tolerance b stack token with ⟨e', _, hown, hstep, _⟩ | hrelated
  · rw [hstep] at he
    cases he
    exact .inl hown
  · rw [he] at hrelated
    cases hheight : token.heightAfter stack.length with
    | ok n =>
      rw [hheight] at hrelated
      cases hrelated
    | error e' =>
      rw [hheight] at hrelated
      cases hrelated
      exact .inr (hraises e hheight)

/-- The program of a compiled text can be applied.  However an evaluation of it fails, it is for
the settings, for values, or for operands that are missing or left over. -/
theorem not_isProgramFault_of_failure {text : String} {f : Formula} (h : compile text = .ok f)
    {engine : Engine} {b : Bindings} {e : Error} (hfailure : Failure engine f b e) :
    ¬e.IsProgramFault := by
  intro hfault
  cases hfailure with
  | settings hsettings =>
    obtain ⟨_, _, _, rfl, _⟩ := engine.raises_settings e hsettings
    exact hfault
  | token _ hreaches hstep =>
    obtain ⟨hoperative, _, _, hplace⟩ := inPlace_of_compile h hreaches.mem
    rcases raises_step_of_inPlace hplace hoperative _ _ _ e hstep with hown | ⟨_, _, _, rfl⟩
    · exact hown.not_isStructural hfault.isStructural
    · exact hfault
  | left heq =>
    subst heq
    exact hfault

/-- **Compiled texts are well-formed.**  A text compiles, or it is refused for a fault of the text
and for nothing else.  Every token that a text is cut into is in its place.  An evaluation of a
compiled text in a table of bindings never meets an operator or a function that it does not know, a
call with a wrong number of arguments, or a token that has no place in a program. -/
theorem wellFormed_compile (text : String) :
    (∀ e, compile text = .error e → ∃ fault position, e = .parse fault text position) ∧
    (∀ tokens, Token.scan text = .ok tokens →
      ∀ before token behind, tokens = before ++ token :: behind →
        token.InPlace before.getLast? behind.head?) ∧
    ∀ f, compile text = .ok f → ∀ (engine : Engine) (b : Bindings) (e : Error),
      (engine.evaluate f (.table b)).1.result = .error e → ¬e.IsProgramFault := by
  refine ⟨raises_compile text, ?_, ?_⟩
  · intro tokens hscan before token behind hsplit
    exact Token.inPlace_of_scan hscan hsplit
  · intro f hcompile engine b e he
    exact not_isProgramFault_of_failure hcompile (failure_of_evaluate he)

/-- `2[[m]]-min (x, -y)`: the two minus signs are told apart by what stands before them, the call
stands in front of a parenthesis across a blank, and the brackets in the unit match. -/
theorem wellFormed_quantity_minus_call :
    ∃ f tokens, Token.scan "2[[m]]-min (x, -y)" = .ok tokens ∧
      compile "2[[m]]-min (x, -y)" = .ok f ∧
      tokens = [.number 2 "[m]", .operator (.binary .sub), .call (.builtin .min) 2, .leftParen,
        .name "x" "", .comma, .operator (.unary .minus), .name "y" "", .rightParen] ∧
      (Token.number 2 "[m]").InPlace none (some (.operator (.binary .sub))) ∧
      (Token.operator (.binary .sub)).InPlace (some (.number 2 "[m]"))
        (some (.call (.builtin .min) 2)) ∧
      (Token.call (.builtin .min) 2).InPlace (some (.operator (.binary .sub)))
        (some .leftParen) ∧
      (Token.operator (.unary .minus)).InPlace (some .comma) (some (.name "y" "")) ∧
      ∃ e, (Engine.evaluate {} f (.table ⟨[]⟩)).1.result = .error e ∧ ¬e.IsProgramFault := by
  have hunit : MeasureUnit.parse "[m]" =
      .error (.parse (.unexpectedUnitCharacter '[') "[m]" (some 0)) := by cbv
  -- The number comes with its unit, brackets and all, in one step of the scanner.
  have htake : Token.take true '2' "[[m]]-min (x, -y)".toList =
      .ok (.number 2 "[m]", "-min (x, -y)".toList) := by
    have hnumber : Token.takeNumber false ('2' :: "[[m]]-min (x, -y)".toList) =
        (['2'], "[[m]]-min (x, -y)".toList) := by cbv
    exact Token.take_number (by decide) hnumber rfl (by decide +kernel) (by cbv) true
  have hbehind : Token.scanFrom "2[[m]]-min (x, -y)" false "-min (x, -y)".toList =
      .ok [.operator (.binary .sub), .call (.builtin .min) 2, .leftParen, .name "x" "", .comma,
        .operator (.unary .minus), .name "y" "", .rightParen] := by cbv
  have hscan : Token.scan "2[[m]]-min (x, -y)" =
      .ok [.number 2 "[m]", .operator (.binary .sub), .call (.builtin .min) 2, .leftParen,
        .name "x" "", .comma, .operator (.unary .minus), .name "y" "", .rightParen] := by
    have htext : "2[[m]]-min (x, -y)".toList = '2' :: "[[m]]-min (x, -y)".toList := by
      decide +kernel
    rw [Token.scan, htext, Token.scanFrom_of_take (by decide) htake]
    show (Token.scanFrom _ false _).map _ = _
    rw [hbehind]
    rfl
  have hcompile := compile_of_scan hscan rfl
  obtain ⟨_, hplace, hfault⟩ := wellFormed_compile "2[[m]]-min (x, -y)"
  have hliteral : literal 2 "[m]" =
      .error (.parse (.unexpectedUnitCharacter '[') "[m]" (some 0)) := by rw [literal, hunit]; rfl
  have hevaluate : (Engine.evaluate {} ⟨"2[[m]]-min (x, -y)",
      [.number 2 "[m]", .name "x" "", .name "y" "", .operator (.unary .minus),
        .call (.builtin .min) 2, .operator (.binary .sub)], ["x", "y"]⟩
      (.table ⟨[]⟩)).1.result =
      .error (.parse (.unexpectedUnitCharacter '[') "[m]" (some 0)) := by
    show (evaluate (.ok {}) _ _).result = _
    rw [evaluate_table, run, step, hliteral]
    rfl
  exact ⟨_, _, hscan, hcompile, rfl, hplace _ hscan [] _ _ rfl, hplace _ hscan [_] _ _ rfl,
    hplace _ hscan [_, _] _ _ rfl, hplace _ hscan [_, _, _, _, _, _] _ _ rfl, _, hevaluate,
    hfault _ hcompile {} ⟨[]⟩ _ hevaluate⟩

end Formula

end Dimensional
