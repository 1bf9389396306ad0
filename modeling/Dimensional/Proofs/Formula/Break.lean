import Dimensional.Proofs.Character.Class
import Dimensional.Proofs.Fallible
import Dimensional.Proofs.Formula.Scanned

/-!
# Where tokens end

Some characters break off every token: neither a number nor a name nor an operator goes on with
them, and no unit follows (`Breaks`).  Blanks, parentheses and commas are such characters.  In front
of one, a token is taken as at the end of the text.

Main statement: `scanFrom_append` — in front of a break, and where no parenthesis is opened next, a
text is cut into the same tokens as when it stands alone.
-/

namespace Dimensional.Formula.Token

/-- No token goes on with this character.  The marks are the signs behind an exponent mark, the
bracket of a unit, and the second characters of operators; the closing bracket is among them so
that what stands in brackets goes on as well. -/
structure Breaks (d : Char) : Prop where
  number : isNumberStart d = false
  name : isNamePart d = false
  mark : d ∉ ['+', '-', '[', '=', '&', '|']

instance (d : Char) : Decidable (Breaks d) :=
  decidable_of_iff (isNumberStart d = false ∧ isNamePart d = false ∧
      d ∉ ['+', '-', '[', '=', '&', '|'])
    ⟨fun h => ⟨h.1, h.2.1, h.2.2⟩, fun h => ⟨h.number, h.name, h.mark⟩⟩

/-- The text ends here, or goes on with a break. -/
def Stops (cs : List Char) : Prop := ∀ d ∈ cs.head?, Breaks d

theorem Breaks.stops {d : Char} (h : Breaks d) (cs : List Char) : Stops (d :: cs) := by
  intro c hc
  cases hc
  exact h

theorem breaks_of_isBlank {d : Char} (h : Character.isBlank d = true) : Breaks d := by
  have hmark : ∀ c : Char, Character.isBlank c = false → d ≠ c := by
    rintro c hc rfl
    rw [h] at hc
    cases hc
  refine ⟨?_, ?_, ?_⟩
  · simp [isNumberStart, Character.not_isDigit_of_isBlank h, hmark '.' (by decide)]
  · simp [isNamePart, Character.not_isAlphanumeric_of_isBlank h, hmark '_' (by decide),
      hmark '.' (by decide), hmark '$' (by decide)]
  · intro hd
    have hblank : ['+', '-', '[', '=', '&', '|'].all (!Character.isBlank ·) = true := by decide
    exact hmark d (by simpa using List.all_eq_true.1 hblank d hd) rfl

theorem scanFrom_of_take {text : String} {operandExpected : Bool} {c : Char}
    {rest tail : List Char} {token : Token} (hc : Character.isBlank c = false)
    (h : take operandExpected c rest = .ok (token, tail)) :
    scanFrom text operandExpected (c :: rest) =
      (scanFrom text token.expectsOperand tail).map (token :: ·) := by
  rw [scanFrom, if_neg (by simp [hc])]
  split
  · next htake =>
    rw [h] at htake
    cases htake
  · next htake =>
    rw [h] at htake
    cases htake
    rfl

/-! ### Parts of tokens in front of a break

Each scanner looks at most a few characters past what it takes: for a sign behind an exponent
mark, for a bracket, for an equals sign.  A break is none of these, so what a scanner takes at
the end of a text it takes in front of a break as well. -/

variable {after : List Char}

def EndsNumber (cs : List Char) : Prop :=
  ∀ d ∈ cs.head?, isNumberStart d = false ∧ isNamePart d = false ∧ d ≠ '+' ∧ d ≠ '-'

theorem Stops.endsNumber (h : Stops after) : EndsNumber after := by
  intro d hd
  have hmark := (h d hd).mark
  simp only [List.mem_cons, not_or] at hmark
  exact ⟨(h d hd).number, (h d hd).name, hmark.1, hmark.2.1⟩

theorem takeNumber_endsNumber (h : EndsNumber after) (marked : Bool) :
    takeNumber marked after = ([], after) := by
  cases after with
  | nil => rfl
  | cons d after =>
    obtain ⟨hnumber, hname, _⟩ := h d rfl
    have hmark : ¬(d = 'e' ∨ d = 'E') := by
      rintro (rfl | rfl) <;> exact absurd hname (by decide)
    rw [takeNumber.eq_def]
    simp [hnumber, hmark]

theorem takeNumber_append (h : EndsNumber after) (marked : Bool) (cs : List Char) :
    takeNumber marked (cs ++ after) =
      ((takeNumber marked cs).1, (takeNumber marked cs).2 ++ after) := by
  fun_induction takeNumber marked cs with
  | case1 marked => exact takeNumber_endsNumber h marked
  | case2 marked c rest hc literal left htake ih =>
    rw [List.cons_append, takeNumber.eq_def]
    simp only [hc, if_true, ih, htake]
  | case3 marked c hc hmark =>
    -- The exponent mark is the last character, and what follows is no sign.
    rw [List.singleton_append, takeNumber.eq_def]
    simp only [hc, hmark, Bool.false_eq_true, if_false, if_true]
    cases after with
    | nil => rfl
    | cons d after =>
      obtain ⟨_, _, hplus, hminus⟩ := h d rfl
      have hsign : (decide (d = '+') || decide (d = '-')) = false := by simp [hplus, hminus]
      simp [hsign, takeNumber_endsNumber h]
  | case4 marked c hc hmark sign rest hsign literal left htake ih =>
    rw [List.cons_append, List.cons_append, takeNumber.eq_def]
    simp only [hc, hmark, hsign, Bool.false_eq_true, if_false, if_true, ih, htake]
  | case5 marked c hc hmark sign rest hsign literal left htake ih =>
    rw [List.cons_append] at ih
    rw [List.cons_append, List.cons_append, takeNumber.eq_def]
    simp only [hc, hmark, hsign, Bool.false_eq_true, if_false, if_true, ih, htake]
  | case6 marked c rest hc hmark =>
    rw [List.cons_append, takeNumber.eq_def]
    simp only [hc, hmark, Bool.false_eq_true, if_false]

/-- What is in brackets does not hang on what follows them. -/
theorem takeBracketed?_append {depth : Nat} {cs inside rest : List Char}
    (h : takeBracketed? depth cs = some (inside, rest)) (after : List Char) :
    takeBracketed? depth (cs ++ after) = some (inside, rest ++ after) := by
  fun_induction takeBracketed? depth cs generalizing inside rest with
  | case1 => cases h
  | case2 cs =>
    cases h
    rfl
  | case3 depth cs ih =>
    obtain ⟨⟨part, left⟩, hpart, heq⟩ := Option.map_eq_some_iff.1 h
    cases heq
    rw [List.cons_append, takeBracketed?, ih hpart]
    rfl
  | case4 depth c cs hclosed hclose ih =>
    obtain ⟨⟨part, left⟩, hpart, heq⟩ := Option.map_eq_some_iff.1 h
    cases heq
    rw [List.cons_append, takeBracketed?.eq_4 _ _ _ hclosed hclose, ih hpart]
    rfl

/-- What does not start with one of the marks does not start with it in front of a break, either. -/
theorem append_ne_cons (hstops : Stops after) {d : Char}
    (hd : d ∈ ['+', '-', '[', '=', '&', '|']) {cs : List Char} (h : ∀ rest, cs ≠ d :: rest)
    (rest : List Char) : cs ++ after ≠ d :: rest := by
  cases cs with
  | nil =>
    rintro rfl
    exact (hstops d rfl).mark hd
  | cons c cs =>
    intro heq
    cases heq
    exact h cs rfl

theorem takeUnit_append (hstops : Stops after) {cs rest : List Char} {unitText : String}
    (h : takeUnit cs = .ok (unitText, rest)) :
    takeUnit (cs ++ after) = .ok (unitText, rest ++ after) := by
  unfold takeUnit at h
  split at h
  · split at h
    · next hinside =>
      cases h
      rw [List.cons_append, takeUnit, takeBracketed?_append hinside]
    · cases h
  · next hcs =>
    cases h
    unfold takeUnit
    split
    · next heq => exact absurd heq (append_ne_cons hstops (by decide) hcs _)
    · rfl

theorem opensNext_append (hopens : opensNext after = false) (cs : List Char) :
    opensNext (cs ++ after) = opensNext cs := by
  induction cs with
  | nil => exact hopens
  | cons c cs ih =>
    cases hc : Character.isBlank c with
    | true => simpa [opensNext, hc] using ih
    | false => simp [opensNext, hc]

/-! ### Tokens in front of a break

The parts are put together along the cases of `take`.  Names need one hypothesis more, that no
parenthesis is opened next, since that would turn the name of a function into a call. -/

theorem takeQuantity_append (hstops : Stops after) {c : Char} {rest tail : List Char}
    {token : Token} (h : takeQuantity c rest = .ok (token, tail)) :
    takeQuantity c (rest ++ after) = .ok (token, tail ++ after) := by
  unfold takeQuantity at h ⊢
  rw [← List.cons_append, takeNumber_append hstops.endsNumber]
  simp only at h ⊢
  split at h
  · cases h
  · next x hx =>
    split at h
    · next hfinite =>
      obtain ⟨⟨unitText, left⟩, hunit, heq⟩ := Fallible.map_eq_ok_iff.1 h
      cases heq
      simp only [hfinite, if_true, takeUnit_append hstops hunit]
      rfl
    · cases h

theorem takeName_append (hstops : Stops after) (hopens : opensNext after = false) {c : Char}
    {rest tail : List Char} {token : Token} (h : takeName c rest = .ok (token, tail)) :
    takeName c (rest ++ after) = .ok (token, tail ++ after) := by
  have hpart : ∀ d ∈ after.head?, isNamePart d = false := fun d hd => (hstops d hd).name
  obtain ⟨htake, hdrop⟩ := takeWhile_dropWhile_append_stop rest hpart
  unfold takeName at h ⊢
  rw [htake, hdrop]
  simp only [opensNext_append hopens] at h ⊢
  -- A call before is a call now, since no parenthesis has come into view.
  split at h
  · next hf hopens =>
    cases h
    rfl
  · next hcall =>
    obtain ⟨⟨unitText, left⟩, hunit, heq⟩ := Fallible.map_eq_ok_iff.1 h
    cases heq
    rw [takeUnit_append hstops hunit]
    rfl

theorem takeSign_append (hstops : Stops after) {operandExpected : Bool} {c : Char}
    {rest tail : List Char} {token : Token}
    (h : takeSign operandExpected c rest = .ok (token, tail)) :
    takeSign operandExpected c (rest ++ after) = .ok (token, tail ++ after) := by
  unfold takeSign at h
  split at h
  -- Where an equals sign would make another operator, none follows in front of a break, either.
  case h_10 | h_16 | h_17 =>
    cases h
    have hequals := append_ne_cons hstops (d := '=') (by decide) ‹_›
    unfold takeSign
    split <;> simp_all
  case h_18 => cases h
  all_goals
    cases h
    rfl

/-- In front of a break a token is taken as at the end of the text. -/
theorem take_append (hstops : Stops after) (hopens : opensNext after = false)
    {operandExpected : Bool} {c : Char} {rest tail : List Char} {token : Token}
    (h : take operandExpected c rest = .ok (token, tail)) :
    take operandExpected c (rest ++ after) = .ok (token, tail ++ after) := by
  unfold take at h ⊢
  split at h
  · next hc =>
    rw [if_pos hc]
    exact takeQuantity_append hstops h
  · next hc =>
    rw [if_neg hc]
    split at h
    · next hname =>
      rw [if_pos hname]
      exact takeName_append hstops hopens h
    · next hname =>
      rw [if_neg hname]
      exact takeSign_append hstops h

/-! ### Names -/

/-- This character, with those behind it, is a name. -/
structure IsName (c : Char) (cs : List Char) : Prop where
  start : isNameStart c = true
  part : ∀ d ∈ cs, isNamePart d = true

instance (c : Char) (cs : List Char) : Decidable (IsName c cs) :=
  decidable_of_iff (isNameStart c = true ∧ cs.all isNamePart = true)
    ⟨fun h => ⟨h.1, List.all_eq_true.1 h.2⟩, fun h => ⟨h.start, List.all_eq_true.2 h.part⟩⟩

theorem not_isNumberStart_of_isNameStart {c : Char} (h : isNameStart c = true) :
    isNumberStart c = false := by
  cases hc : Character.isLetter c with
  | true =>
    have hpoint : c ≠ '.' := by
      rintro rfl
      exact absurd hc (by decide)
    simp [isNumberStart, Character.not_isDigit_of_isLetter hc, hpoint]
  | false =>
    have hsign : c = '_' ∨ c = '$' := by simpa [isNameStart, hc] using h
    rcases hsign with rfl | rfl <;> decide

/-- A number that is finite stands for a quantity. -/
theorem take_number {c : Char} {literal rest tail : List Char} {value : Float} {unitText : String}
    (hc : isNumberStart c = true) (hnumber : takeNumber false (c :: rest) = (literal, after))
    (hvalue : Decimal.parseText? literal = some value) (hfinite : value.isFinite = true)
    (hunit : takeUnit after = .ok (unitText, tail)) (operandExpected : Bool) :
    take operandExpected c rest = .ok (.number value unitText, tail) := by
  simp only [take, if_pos hc, takeQuantity, hnumber, hvalue, hfinite, if_true, hunit]
  rfl

/-- What is taken behind a name: all up to the first character that does not go on with it. -/
theorem take_isName {c : Char} {cs : List Char} (h : IsName c cs)
    (hafter : ∀ d ∈ after.head?, isNamePart d = false) (operandExpected : Bool) :
    take operandExpected c (cs ++ after) = takeName c (cs ++ after) ∧
      (cs ++ after).takeWhile isNamePart = cs ∧ (cs ++ after).dropWhile isNamePart = after := by
  refine ⟨?_, takeWhile_dropWhile_append h.part hafter⟩
  rw [take, if_neg (by simp [not_isNumberStart_of_isNameStart h.start]), if_pos h.start]

/-- The name of a function is a call where a parenthesis is opened next. -/
theorem take_call {c : Char} {cs : List Char} {f : Builtin} (h : IsName c cs)
    (hf : Builtin.ofName? (String.ofList (c :: cs)) = some f)
    (hafter : ∀ d ∈ after.head?, isNamePart d = false) (hopens : opensNext after = true)
    (operandExpected : Bool) :
    take operandExpected c (cs ++ after) = .ok (.call (.builtin f) f.arity, after) := by
  obtain ⟨hname, htake, hdrop⟩ := take_isName h hafter operandExpected
  simp only [hname, takeName, htake, hdrop, hf, hopens]

/-- Any other name stands for a quantity. -/
theorem take_name {c : Char} {cs tail : List Char} {unitText : String} (h : IsName c cs)
    (hcall : Builtin.ofName? (String.ofList (c :: cs)) = none ∨ opensNext after = false)
    (hafter : ∀ d ∈ after.head?, isNamePart d = false)
    (hunit : takeUnit after = .ok (unitText, tail)) (operandExpected : Bool) :
    take operandExpected c (cs ++ after) =
      .ok (.name (String.ofList (c :: cs)) unitText, tail) := by
  obtain ⟨hname, htake, hdrop⟩ := take_isName h hafter operandExpected
  simp only [hname, takeName, htake, hdrop, hunit]
  split
  · next hf hopens =>
    rw [hf, hopens] at hcall
    rcases hcall with hcall | hcall <;> cases hcall
  · rfl

/-! ### Operators -/

/-- What the symbol of an operator with two operands stands for: where an operand has to follow, a
minus sign has only one. -/
def signed (operandExpected : Bool) (op : BinaryOp) : Operator :=
  if operandExpected && op = .sub then .unary .minus else .binary op

/-- In front of a break the symbol of an operator is taken as a whole. -/
theorem take_symbol (op : BinaryOp) (hstops : Stops after) :
    ∃ c cs, op.symbol.toList = c :: cs ∧ Character.isBlank c = false ∧
      ∀ operandExpected, take operandExpected c (cs ++ after) =
        .ok (.operator (signed operandExpected op), after) := by
  have halone : ∃ c cs, op.symbol.toList = c :: cs ∧ Character.isBlank c = false ∧
      (isNumberStart c || isNameStart c) = false ∧ ∀ operandExpected,
        takeSign operandExpected c cs = .ok (.operator (signed operandExpected op), []) := by
    cases op <;>
      exact ⟨_, _, rfl, by decide +kernel, by decide +kernel, fun e => by cases e <;> rfl⟩
  obtain ⟨c, cs, hsymbol, hblank, hstart, htake⟩ := halone
  refine ⟨c, cs, hsymbol, hblank, fun operandExpected => ?_⟩
  rw [take_eq_takeSign hstart]
  exact takeSign_append hstops (htake operandExpected)

theorem take_not (operandExpected : Bool) (hstops : Stops after) :
    take operandExpected '!' after = .ok (.operator (.unary .not), after) := by
  have halone : takeSign operandExpected '!' [] = .ok (.operator (.unary .not), []) := rfl
  rw [take_eq_takeSign (by decide +kernel)]
  exact takeSign_append hstops halone

/-! ### Texts in front of a break -/

/-- Does an operand have to follow the tokens, where one has to follow what stands in front of
them or not? -/
def expectsAfter (operandExpected : Bool) (tokens : List Token) : Bool :=
  tokens.foldl (fun _ token => token.expectsOperand) operandExpected

/-- **Texts in front of a break** are cut into the tokens that they are cut into alone, and what
follows is cut as it is behind these tokens. -/
theorem scanFrom_append (hstops : Stops after) (hopens : opensNext after = false)
    {text : String} (operandExpected : Bool) (cs : List Char) {tokens : List Token}
    (h : scanFrom text operandExpected cs = .ok tokens) (whole : String) :
    scanFrom whole operandExpected (cs ++ after) =
      (scanFrom whole (expectsAfter operandExpected tokens) after).map (tokens ++ ·) := by
  match cs with
  | [] =>
    rw [scanFrom] at h
    cases h
    rw [List.nil_append]
    show _ = (scanFrom whole operandExpected after).map id
    cases scanFrom whole operandExpected after <;> rfl
  | c :: rest =>
    cases hc : Character.isBlank c with
    | true =>
      rw [scanFrom_blank hc] at h
      rw [List.cons_append, scanFrom_blank hc]
      exact scanFrom_append hstops hopens operandExpected rest h whole
    | false =>
      obtain ⟨token, tail, more, htake, hmore, rfl⟩ := scanFrom_cons_eq_ok hc h
      have hrest := scanFrom_append hstops hopens token.expectsOperand tail hmore whole
      rw [List.cons_append, scanFrom_of_take hc (take_append hstops hopens htake), hrest,
        Fallible.map_map]
      rfl
termination_by cs.length
decreasing_by
  · exact length_lt_of_take htake
  · exact Nat.lt_succ_self _

end Dimensional.Formula.Token
