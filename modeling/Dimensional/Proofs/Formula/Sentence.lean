import Dimensional.Formula.Evaluate
import Dimensional.Proofs.Fallible
import Dimensional.Proofs.Formula.Tree

/-!
# Sentences of the infix grammar

`Sentence` is the grammar of infix expressions without precedence: operators between and in front of
operands, one expression in parentheses, and calls with their arguments in parentheses of their own.
Along a sentence, places where an operand has to follow alternate with places where one has just
ended (`fits`).  Formulas are not held to this grammar: some that evaluate are no sentences of it
(`evaluate_outside_grammar`).
-/

namespace Dimensional.Formula

namespace Token

/-- The sentences of the infix grammar. -/
inductive Sentence : List Token → Prop where
  | number {value : Float} {unitText : String} : Sentence [.number value unitText]
  | name {path unitText : String} : Sentence [.name path unitText]
  | unary {op : UnaryOp} {as : List Token} : Sentence as → Sentence (.operator (.unary op) :: as)
  | binary {op : BinaryOp} {as bs : List Token} :
      Sentence as → Sentence bs → Sentence (as ++ .operator (.binary op) :: bs)
  | paren {as : List Token} : Sentence as → Sentence (.leftParen :: (as ++ [.rightParen]))
  | call {f : Builtin} {args : Fin f.arity → List Token} :
      (∀ i, Sentence (args i)) →
      Sentence (Tree.callToken f :: .leftParen ::
        ([Token.comma].intercalate (List.ofFn args) ++ [.rightParen]))

/-- Do the tokens fit together, each with its neighbours, from a place where an operand has to
follow (`true`) or has just ended (`false`)? -/
def fits : Bool → List Token → Bool
  | operandExpected, [] => !operandExpected
  | true, .number _ _ :: rest => fits false rest
  | true, .name _ _ :: rest => fits false rest
  | true, .operator (.unary _) :: rest => fits true rest
  | true, .call _ _ :: rest => fits true rest
  | true, .leftParen :: rest => fits true rest
  | false, .operator (.binary _) :: rest => fits true rest
  | false, .comma :: rest => fits true rest
  | false, .rightParen :: rest => fits false rest
  | _, _ => false

/-- Expressions with commas between them fit like a single one. -/
theorem fits_intercalate {args : List (List Token)} (hne : args ≠ [])
    (h : ∀ as ∈ args, ∀ rest, fits true (as ++ rest) = fits false rest) (rest : List Token) :
    fits true ([Token.comma].intercalate args ++ rest) = fits false rest := by
  induction args with
  | nil => exact absurd rfl hne
  | cons as more ih =>
    have has := h as List.mem_cons_self
    cases more with
    | nil =>
      rw [List.intercalate_singleton]
      exact has rest
    | cons bs more =>
      have hrest := ih (List.cons_ne_nil _ _) fun cs hcs => h cs (List.mem_cons_of_mem _ hcs)
      rw [List.intercalate_cons_cons, List.append_assoc, List.append_assoc, has,
        List.singleton_append, fits, hrest]

/-- A sentence leads from a place where an operand has to follow to one where it has ended.  That
is how parts of a sentence fit into the whole, and why two operands side by side are no
sentence. -/
theorem Sentence.fits_append {tokens : List Token} (h : Sentence tokens) (rest : List Token) :
    fits true (tokens ++ rest) = fits false rest := by
  -- The rest is arbitrary, because parts of a sentence are followed by its other parts.
  induction h generalizing rest with
  | number => rfl
  | name => rfl
  | unary _ ih => exact ih rest
  | binary _ _ iha ihb =>
    rw [List.append_assoc, iha, List.cons_append, fits, ihb]
  | paren _ ih =>
    rw [List.cons_append, List.append_assoc, fits, ih]
    rfl
  | @call f args _ ih =>
    have hargs : ∀ as ∈ List.ofFn args, ∀ rest, fits true (as ++ rest) = fits false rest := by
      intro as has
      obtain ⟨i, rfl⟩ := List.mem_ofFn.1 has
      exact ih i
    rw [List.cons_append, List.cons_append, List.append_assoc, Tree.callToken, fits, fits,
      fits_intercalate (Tree.ofFn_ne_nil args) hargs]
    rfl

theorem Sentence.fits {tokens : List Token} (h : Sentence tokens) : fits true tokens = true := by
  have happend := h.fits_append []
  rwa [List.append_nil] at happend

end Token

/-! ### What evaluates all the same

The postfix order is found from parentheses and commas alone, and a program runs whenever its
operators find operands.  Where they stood in the text is not looked at. -/

/-- The text is no sentence, but it compiles and evaluates. -/
def EvaluatesOutsideGrammar (settings : Except Error Settings) (context : Context)
    (text : String) : Prop :=
  ∃ f q tokens, compile text = .ok f ∧ (evaluate settings f context).result = .ok q ∧
    Token.scan text = .ok tokens ∧ ¬Token.Sentence tokens

theorem compile_of_scan {text : String} {tokens program : List Token}
    (hscan : Token.scan text = .ok tokens) (hprogram : Token.toPostfix tokens text = .ok program) :
    compile text = .ok ⟨text, program, Token.names tokens⟩ := by
  unfold compile
  rw [hscan]
  show (Token.toPostfix tokens text >>= _) = _
  rw [hprogram]
  rfl

/-- A text that compiles is cut into tokens, which have a postfix order. -/
theorem scan_of_compile {text : String} {f : Formula} (h : compile text = .ok f) :
    ∃ tokens, Token.scan text = .ok tokens ∧ Token.toPostfix tokens text = .ok f.program ∧
      f.names = Token.names tokens := by
  obtain ⟨tokens, htokens, h⟩ := Fallible.bind_eq_ok_iff.1 h
  obtain ⟨program, hprogram, h⟩ := Fallible.bind_eq_ok_iff.1 h
  cases h
  exact ⟨tokens, htokens, hprogram, rfl⟩

theorem evaluatesOutsideGrammar_of_fits {settings : Except Error Settings} {context : Context}
    {text : String} {tokens program : List Token} {q : Quantity}
    (hscan : Token.scan text = .ok tokens) (hprogram : Token.toPostfix tokens text = .ok program)
    (hevaluate :
      (evaluate settings ⟨text, program, Token.names tokens⟩ context).result = .ok q)
    (hfits : Token.fits true tokens = false) :
    EvaluatesOutsideGrammar settings context text := by
  refine ⟨_, q, tokens, compile_of_scan hscan hprogram, hevaluate, hscan, ?_⟩
  intro hsentence
  rw [hsentence.fits] at hfits
  cases hfits

/-- Formulas that evaluate and are no sentences: an operator behind its operands, a sign behind its
operand, empty parentheses, an empty argument, and an argument in front of the call. -/
theorem evaluate_outside_grammar :
    ∃ settings context,
      EvaluatesOutsideGrammar settings context "x y*" ∧
      EvaluatesOutsideGrammar settings context "x(-)" ∧
      EvaluatesOutsideGrammar settings context "()x" ∧
      EvaluatesOutsideGrammar settings context "abs(x,)" ∧
      EvaluatesOutsideGrammar settings context "x abs()" := by
  refine ⟨.ok {}, .table ⟨[("x", .scalar 2.5), ("y", .scalar 2)]⟩, ?_, ?_, ?_, ?_, ?_⟩
  · have hscan : Token.scan "x y*" =
        .ok [.name "x" "", .name "y" "", .operator (.binary .mul)] := by cbv
    exact evaluatesOutsideGrammar_of_fits hscan rfl rfl rfl
  · have hscan : Token.scan "x(-)" =
        .ok [.name "x" "", .leftParen, .operator (.unary .minus), .rightParen] := by cbv
    exact evaluatesOutsideGrammar_of_fits hscan rfl rfl rfl
  · have hscan : Token.scan "()x" = .ok [.leftParen, .rightParen, .name "x" ""] := by cbv
    exact evaluatesOutsideGrammar_of_fits hscan rfl rfl rfl
  · have hscan : Token.scan "abs(x,)" =
        .ok [Tree.callToken .abs, .leftParen, .name "x" "", .comma, .rightParen] := by cbv
    exact evaluatesOutsideGrammar_of_fits hscan rfl rfl rfl
  · have hscan : Token.scan "x abs()" =
        .ok [.name "x" "", Tree.callToken .abs, .leftParen, .rightParen] := by cbv
    exact evaluatesOutsideGrammar_of_fits hscan rfl rfl rfl

end Dimensional.Formula
