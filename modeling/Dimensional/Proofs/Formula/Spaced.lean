import Dimensional.Proofs.Formula.Break
import Dimensional.Proofs.Formula.Tree

/-!
# Formulas as they are spelled

Lexemes of a formula are spelled with blanks between them (`Spaced`): numbers by digits and points
with at most one exponent, names by letters and what else may stand in them, both with a unit in
balanced brackets right behind them if they have one, and everything else by its symbol.

Blanks break off every token (`breaks_of_isBlank`), so that each lexeme is taken as a whole,
whatever stands behind the blanks (`take_of_spells`).  Main statement: `scan_of_spaced` — a text is
cut into one token for each of its lexemes; what a minus sign and the name of a function stand for
is decided by the lexemes beside them.
-/

namespace Dimensional.Formula

/-- A part of a formula as it is written, apart from its neighbours.  The minus sign is written like
the operator with two operands. -/
inductive Lexeme where
  | number (value : Float) (unit : Option String)
  | name (path : String) (unit : Option String)
  | operator (op : BinaryOp)
  | not
  | leftParen
  | rightParen
  | comma

/-! ### Spelling

The grammar of lexemes, with no reference to the scanner.  It leaves open what a minus sign and
the name of a function stand for, because their spelling does not tell. -/

/-- What may stand behind the digits of a number: nothing, or an exponent mark with digits, and
maybe a sign between them. -/
inductive IsExponent : List Char → Prop where
  | none : IsExponent []
  | mark {mark : Char} {sign digits : List Char} :
      mark = 'e' ∨ mark = 'E' → sign ∈ [[], ['+'], ['-']] →
      (∀ d ∈ digits, Token.isNumberStart d = true) → IsExponent (mark :: (sign ++ digits))

/-- Digits and points, and an exponent behind them. -/
inductive IsNumeral : List Char → Prop where
  | intro {c : Char} {digits exponent : List Char} :
      (∀ d ∈ c :: digits, Token.isNumberStart d = true) → IsExponent exponent →
      IsNumeral (c :: (digits ++ exponent))

/-- Every bracket is closed, and none is closed that is not open. -/
inductive Bracketed : List Char → Prop where
  | nil : Bracketed []
  | plain {c : Char} {cs : List Char} : c ∉ ['[', ']'] → Bracketed cs → Bracketed (c :: cs)
  | nested {inside cs : List Char} :
      Bracketed inside → Bracketed cs → Bracketed ('[' :: (inside ++ ']' :: cs))

/-- A unit is spelled in brackets; blanks at the ends of its text do not count.  No unit is spelled
by nothing. -/
inductive SpellsUnit : Option String → List Char → Prop where
  | none : SpellsUnit none []
  | some {inside : List Char} :
      Bracketed inside →
      SpellsUnit (some (String.ofList (Character.strip inside))) ('[' :: (inside ++ [']']))

inductive Spells : Lexeme → List Char → Prop where
  | number {value : Float} {unit : Option String} {literal suffix : List Char} :
      IsNumeral literal → Decimal.parseText? literal = some value → value.isFinite = true →
      SpellsUnit unit suffix → Spells (.number value unit) (literal ++ suffix)
  | name {c : Char} {unit : Option String} {cs suffix : List Char} :
      Token.IsName c cs → SpellsUnit unit suffix →
      Spells (.name (String.ofList (c :: cs)) unit) (c :: (cs ++ suffix))
  | operator {op : BinaryOp} : Spells (.operator op) op.symbol.toList
  | not : Spells .not ['!']
  | leftParen : Spells .leftParen ['(']
  | rightParen : Spells .rightParen [')']
  | comma : Spells .comma [',']

def Blanks (cs : List Char) : Prop := ∀ d ∈ cs, Character.isBlank d = true

/-- The lexemes are spelled one after another with blanks between them.  There may also be blanks in
front of the first one and behind the last; what follows a lexeme starts with a blank unless the
text ends there. -/
inductive Spaced : List Lexeme → List Char → Prop where
  | nil {gap : List Char} : Blanks gap → Spaced [] gap
  | cons {lexeme : Lexeme} {lexemes : List Lexeme} {gap spelling cs : List Char} :
      Blanks gap → Spells lexeme spelling → (∀ d ∈ cs.head?, Character.isBlank d = true) →
      Spaced lexemes cs → Spaced (lexeme :: lexemes) (gap ++ (spelling ++ cs))

/-! ### What lexemes stand for

Two things about the neighbours decide: whether an operand has to follow the lexeme before, and
whether the lexeme behind is a parenthesis. -/

namespace Lexeme

def expectsOperand : Lexeme → Bool
  | .operator _ | .not | .leftParen | .comma => true
  | _ => false

def isLeftParen : Lexeme → Bool
  | .leftParen => true
  | _ => false

/-- The token that a lexeme stands for, where an operand has to follow or not, and a parenthesis is
opened next or not. -/
def token (operandExpected opens : Bool) : Lexeme → Token
  | .number value unit => .number value (unit.getD "")
  | .name path none =>
    match Builtin.ofName? path, opens with
    | some f, true => Tree.callToken f
    | _, _ => .name path ""
  | .name path (some unitText) => .name path unitText
  | .operator op => .operator (Token.signed operandExpected op)
  | .not => .operator (.unary .not)
  | .leftParen => .leftParen
  | .rightParen => .rightParen
  | .comma => .comma

def tokens (operandExpected : Bool) : List Lexeme → List Token
  | [] => []
  | lexeme :: rest =>
    lexeme.token operandExpected (rest.head?.any isLeftParen) ::
      tokens lexeme.expectsOperand rest

@[simp] theorem expectsOperand_token (operandExpected opens : Bool) (lexeme : Lexeme) :
    (lexeme.token operandExpected opens).expectsOperand = lexeme.expectsOperand := by
  obtain _ | ⟨path, _ | unitText⟩ | _ | _ | _ | _ | _ := lexeme
  case name.none =>
    unfold token
    simp only
    split <;> rfl
  all_goals rfl

end Lexeme

namespace Token

/-! ### Parts of lexemes

A numeral and a text in brackets are taken by their scanners as a whole.  For brackets the
induction is on how they are balanced, at any depth, since an inner text is read with more of
them open. -/

/-- Digits and points are taken whatever follows. -/
theorem takeNumber_digits {digits : List Char} (h : ∀ d ∈ digits, isNumberStart d = true)
    (marked : Bool) (cs : List Char) :
    takeNumber marked (digits ++ cs) =
      (digits ++ (takeNumber marked cs).1, (takeNumber marked cs).2) := by
  induction digits with
  | nil => rfl
  | cons d digits ih =>
    have hrest := ih fun c hc => h c (List.mem_cons_of_mem d hc)
    rw [List.cons_append, takeNumber.eq_def]
    simp [h d List.mem_cons_self, hrest]

theorem takeNumber_exponent {exponent : List Char} (h : IsExponent exponent) :
    takeNumber false exponent = (exponent, []) := by
  cases h with
  | none => rfl
  | @mark mark sign digits hmark hsign hdigits =>
    have hnumber : isNumberStart mark = false := by
      rcases hmark with rfl | rfl <;> decide +kernel
    have htake := takeNumber_digits hdigits true []
    rw [List.append_nil, takeNumber, List.append_nil] at htake
    have hmark : (!false && (decide (mark = 'e') || decide (mark = 'E'))) = true := by
      rcases hmark with rfl | rfl <;> rfl
    rw [takeNumber.eq_def]
    simp only [hnumber, hmark, Bool.false_eq_true, if_false, if_true]
    simp only [List.mem_cons, List.not_mem_nil, or_false] at hsign
    rcases hsign with rfl | rfl | rfl
    · -- Without a sign, the digits come first, if there are any.
      cases digits with
      | nil => rfl
      | cons d digits =>
        have hd : isNumberStart d = true := hdigits d List.mem_cons_self
        have hplain : (decide (d = '+') || decide (d = '-')) = false := by
          rw [Bool.or_eq_false_iff, decide_eq_false_iff_not, decide_eq_false_iff_not]
          refine ⟨?_, ?_⟩ <;> rintro rfl <;> exact absurd hd (by decide +kernel)
        simp [hplain, htake]
    · simp [htake]
    · simp [htake]

theorem takeNumber_numeral {literal : List Char} (h : IsNumeral literal) :
    takeNumber false literal = (literal, []) := by
  obtain ⟨hdigits, hexponent⟩ := h
  rw [← List.cons_append, takeNumber_digits hdigits, takeNumber_exponent hexponent]

/-- What is balanced stands before the bracket that closes the one around it. -/
theorem takeBracketed?_of_bracketed {inside : List Char} (h : Bracketed inside) (depth : Nat)
    (cs : List Char) :
    takeBracketed? depth (inside ++ cs) =
      (takeBracketed? depth cs).map fun (before, rest) => (inside ++ before, rest) := by
  induction h generalizing depth cs with
  | nil => simp
  | @plain c inside hc _ ih =>
    simp only [List.mem_cons, List.not_mem_nil, or_false, not_or] at hc
    rw [List.cons_append, takeBracketed?.eq_4 _ _ _ (by simp [hc]) (by simp [hc]), if_neg hc.1, ih,
      Option.map_map]
    rfl
  | @nested inside more _ _ ihinside ihmore =>
    rw [List.cons_append, takeBracketed?.eq_4 _ _ _ (by simp) (by simp), if_pos rfl,
      List.append_assoc, ihinside, List.cons_append, takeBracketed?, ihmore, Option.map_map,
      Option.map_map, Option.map_map]
    simp [Function.comp_def]

theorem takeUnit_of_spellsUnit {unit : Option String} {suffix after : List Char}
    (h : SpellsUnit unit suffix) (hstops : Stops after) :
    takeUnit (suffix ++ after) = .ok (unit.getD "", after) := by
  cases h with
  | none =>
    have hnone : takeUnit [] = .ok ("", []) := rfl
    exact takeUnit_append hstops hnone
  | @some inside hinside =>
    have hclose := takeBracketed?_of_bracketed hinside 0 (']' :: after)
    simp [takeUnit, hclose, takeBracketed?]

/-! ### Lexemes in front of a break -/

/-- A lexeme starts with a character that is not blank, and only an open parenthesis with this
sign; in front of a break it is taken as a whole. -/
def TakenWhole (lexeme : Lexeme) (spelling after : List Char) : Prop :=
  ∃ c cs, spelling = c :: cs ∧ Character.isBlank c = false ∧
    decide (c = '(') = lexeme.isLeftParen ∧ ∀ operandExpected,
      take operandExpected c (cs ++ after) =
        .ok (lexeme.token operandExpected (opensNext after), after)

section

variable {after : List Char}

theorem not_isBlank_of_isNumberStart {c : Char} (h : isNumberStart c = true) :
    Character.isBlank c = false := by
  cases hblank : Character.isBlank c with
  | false => rfl
  | true =>
    rw [(breaks_of_isBlank hblank).number] at h
    cases h

theorem not_isBlank_of_isNameStart {c : Char} (h : isNameStart c = true) :
    Character.isBlank c = false := by
  have hpart : isNamePart c = true := by
    simp only [isNameStart, Bool.or_eq_true] at h
    rcases h with (h | h) | h <;> simp [isNamePart, Character.isAlphanumeric, h]
  cases hblank : Character.isBlank c with
  | false => rfl
  | true =>
    rw [(breaks_of_isBlank hblank).name] at hpart
    cases hpart

theorem takenWhole_number {value : Float} {unit : Option String} {literal suffix : List Char}
    (hliteral : IsNumeral literal) (hvalue : Decimal.parseText? literal = some value)
    (hfinite : value.isFinite = true) (hunit : SpellsUnit unit suffix) (hstops : Stops after) :
    TakenWhole (.number value unit) (literal ++ suffix) after := by
  have hends : EndsNumber (suffix ++ after) := by
    cases hunit with
    | none => exact hstops.endsNumber
    | some =>
      intro d hd
      cases hd
      decide +kernel
  have htake := takeNumber_append hends false literal
  rw [takeNumber_numeral hliteral, List.nil_append] at htake
  obtain ⟨hdigits, hexponent⟩ := hliteral
  rename_i c digits exponent
  have hc : isNumberStart c = true := hdigits c List.mem_cons_self
  refine ⟨c, digits ++ exponent ++ suffix, rfl, not_isBlank_of_isNumberStart hc, ?_, ?_⟩
  · have hne : c ≠ '(' := by
      rintro rfl
      exact absurd hc (by decide +kernel)
    exact decide_eq_false hne
  · intro operandExpected
    rw [List.append_assoc]
    exact take_number hc htake hvalue hfinite (takeUnit_of_spellsUnit hunit hstops) operandExpected

theorem takenWhole_name {c : Char} {unit : Option String} {cs suffix : List Char}
    (hname : IsName c cs) (hunit : SpellsUnit unit suffix) (hstops : Stops after) :
    TakenWhole (.name (String.ofList (c :: cs)) unit) (c :: (cs ++ suffix)) after := by
  refine ⟨c, cs ++ suffix, rfl, not_isBlank_of_isNameStart hname.start, ?_, ?_⟩
  · have hne : c ≠ '(' := by
      rintro rfl
      exact absurd hname.start (by decide +kernel)
    exact decide_eq_false hne
  · intro operandExpected
    have htakeUnit := takeUnit_of_spellsUnit hunit hstops
    rw [List.append_assoc]
    -- With a unit no parenthesis can come next, so the name is not called.
    cases hunit with
    | @some inside hinside =>
      have hpart : ∀ d ∈ ('[' :: (inside ++ [']']) ++ after).head?, isNamePart d = false := by
        intro d hd
        cases hd
        decide +kernel
      exact take_name hname (.inr rfl) hpart htakeUnit operandExpected
    | none =>
      have hpart : ∀ d ∈ after.head?, isNamePart d = false := fun d hd => (hstops d hd).name
      unfold Lexeme.token
      simp only
      split
      · next hf hopens => exact take_call hname hf hpart hopens operandExpected
      · next hcall =>
        refine take_name hname ?_ hpart htakeUnit operandExpected
        cases hf : Builtin.ofName? (String.ofList (c :: cs)) with
        | none => exact .inl rfl
        | some f =>
          cases hopens : opensNext after with
          | false => exact .inr rfl
          | true => exact (hcall f hf hopens).elim

/-- In front of a break each lexeme is taken as a whole. -/
theorem take_of_spells {lexeme : Lexeme} {spelling : List Char} (h : Spells lexeme spelling)
    (hstops : Stops after) : TakenWhole lexeme spelling after := by
  cases h with
  | number hliteral hvalue hfinite hunit =>
    exact takenWhole_number hliteral hvalue hfinite hunit hstops
  | name hname hunit => exact takenWhole_name hname hunit hstops
  | @operator op =>
    obtain ⟨c, cs, hsymbol, hblank, htake⟩ := take_symbol op hstops
    -- An opening parenthesis would be taken as one.
    have hne : c ≠ '(' := by
      rintro rfl
      have hparen := htake true
      rw [take_leftParen] at hparen
      cases hparen
    exact ⟨c, cs, hsymbol, hblank, decide_eq_false hne, htake⟩
  | not => exact ⟨'!', [], rfl, by decide, rfl, fun e => take_not e hstops⟩
  | leftParen => exact ⟨'(', [], rfl, by decide, rfl, fun e => take_leftParen e after⟩
  | rightParen => exact ⟨')', [], rfl, by decide, rfl, fun e => take_rightParen e after⟩
  | comma => exact ⟨',', [], rfl, by decide, rfl, fun e => take_comma e after⟩

end

/-! ### Whole texts

The induction is on the list of lexemes.  What follows a lexeme begins with a blank, and blanks
are breaks; the one thing that is seen through blanks is whether a parenthesis comes next. -/

theorem scanFrom_blanks (text : String) (operandExpected : Bool) {gap : List Char}
    (h : Blanks gap) (cs : List Char) :
    scanFrom text operandExpected (gap ++ cs) = scanFrom text operandExpected cs := by
  induction gap with
  | nil => rfl
  | cons d gap ih =>
    rw [List.cons_append, scanFrom_blank (h d List.mem_cons_self)]
    exact ih fun c hc => h c (List.mem_cons_of_mem d hc)

theorem opensNext_blanks {gap : List Char} (h : Blanks gap) (cs : List Char) :
    opensNext (gap ++ cs) = opensNext cs := by
  rw [opensNext, List.dropWhile_append_of_pos h]
  rfl

/-- A parenthesis is opened next just where the next lexeme is one. -/
theorem opensNext_of_spaced {lexemes : List Lexeme} {cs : List Char} (h : Spaced lexemes cs) :
    opensNext cs = lexemes.head?.any Lexeme.isLeftParen := by
  cases h with
  | nil hgap =>
    have hblanks := opensNext_blanks hgap []
    rw [List.append_nil] at hblanks
    exact hblanks
  | @cons lexeme lexemes gap spelling cs hgap hspells hhead hrest =>
    have hstops : Stops cs := fun d hd => breaks_of_isBlank (hhead d hd)
    obtain ⟨c, tail, rfl, hblank, hparen, _⟩ := take_of_spells hspells hstops
    rw [opensNext_blanks hgap, List.head?_cons, Option.any_some, ← hparen, opensNext,
      List.cons_append, List.dropWhile_cons_of_neg (by simp [hblank]), List.head?_cons]
    simp

theorem scanFrom_of_spaced {lexemes : List Lexeme} {cs : List Char} (h : Spaced lexemes cs)
    (text : String) (operandExpected : Bool) :
    scanFrom text operandExpected cs = .ok (Lexeme.tokens operandExpected lexemes) := by
  induction h generalizing operandExpected with
  | nil hgap =>
    have hblanks := scanFrom_blanks text operandExpected hgap []
    rw [List.append_nil] at hblanks
    rw [hblanks, scanFrom]
    rfl
  | @cons lexeme lexemes gap spelling cs hgap hspells hhead hrest ih =>
    have hstops : Stops cs := fun d hd => breaks_of_isBlank (hhead d hd)
    obtain ⟨c, tail, rfl, hblank, _, htake⟩ := take_of_spells hspells hstops
    rw [scanFrom_blanks text operandExpected hgap, List.cons_append,
      scanFrom_of_take hblank (htake operandExpected), Lexeme.expectsOperand_token, ih,
      opensNext_of_spaced hrest]
    rfl

end Token

/-- **Cutting undoes spelling**: a text that spells lexemes with blanks between them is cut into one
token for each of them, in their order.  The name of a function without a unit is a call if and only
if the next lexeme is an open parenthesis, and a minus sign has one operand if and only if it stands
first or behind an operator, an open parenthesis or a comma. -/
theorem scan_of_spaced {lexemes : List Lexeme} {text : String} (h : Spaced lexemes text.toList) :
    Token.scan text = .ok (Lexeme.tokens true lexemes) :=
  Token.scanFrom_of_spaced h text true

/-- A sign in front of a number with a unit, and a minus with two operands in front of a call. -/
theorem scan_minus_quantity_minus_call :
    Spaced [.operator .sub, .number 20.0 (some "[m]"), .operator .sub, .name "min" none, .leftParen]
        " - 2e+1[[m] ] - min (".toList ∧
      Token.scan " - 2e+1[[m] ] - min (" =
        .ok [.operator (.unary .minus), .number 20.0 "[m]", .operator (.binary .sub),
          Tree.callToken .min, .leftParen] := by
  have hblank : Character.isBlank ' ' = true := by decide
  have hgap : Blanks [' '] := by simpa [Blanks] using hblank
  have hnext : ∀ cs, ∀ d ∈ (' ' :: cs).head?, Character.isBlank d = true := by
    simpa using hblank
  have hunit : SpellsUnit (some "[m]") ['[', '[', 'm', ']', ' ', ']'] :=
    @SpellsUnit.some ['[', 'm', ']', ' ']
      (@Bracketed.nested ['m'] [' '] (.plain (by decide) .nil) (.plain (by decide) .nil))
  have hnumeral : IsNumeral ['2', 'e', '+', '1'] :=
    @IsNumeral.intro '2' [] _ (List.all_eq_true.1 (by decide))
      (@IsExponent.mark 'e' ['+'] ['1'] (.inl rfl) (by decide) (List.all_eq_true.1 (by decide)))
  have hnumber : Spells (.number 20.0 (some "[m]")) "2e+1[[m] ]".toList :=
    .number hnumeral (by decide +kernel) (by decide) hunit
  have hname : Spells (.name "min" none) "min".toList :=
    @Spells.name 'm' none ['i', 'n'] [] (by decide +kernel) .none
  have hparen : Spaced [.leftParen] " (".toList :=
    .cons hgap .leftParen (by simp) (.nil (List.forall_mem_nil _))
  have hcall := Spaced.cons hgap hname (hnext _) hparen
  have hdifference := Spaced.cons hgap (@Spells.operator .sub) (hnext _) hcall
  have hquantity := Spaced.cons hgap hnumber (hnext _) hdifference
  have hspaced := Spaced.cons hgap (@Spells.operator .sub) (hnext _) hquantity
  exact ⟨hspaced, @scan_of_spaced _ " - 2e+1[[m] ] - min (" hspaced⟩

end Dimensional.Formula
