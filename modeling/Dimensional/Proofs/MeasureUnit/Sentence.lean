import Dimensional.Proofs.MeasureUnit.Spelled

/-!
# Sentences of the unit grammar

`Lexeme.Sentence` is the grammar of unit expressions without precedence: names, numbers and
expressions in parentheses, joined by operations that stand between their operands.  Along a
sentence, places where an operand has to follow alternate with places where one has just ended
(`Lexeme.fits`).

* `sentence_iff_fits` — parentheses that match and neighbours that fit are all that a sentence
  needs, and every sentence has them.
* `parse_outside_grammar` — units are not held to this grammar: some texts that are parsed into
  units are no sentences of it.
-/

namespace Dimensional.MeasureUnit

namespace Lexeme

/-- The sentences of the unit grammar. -/
inductive Sentence : List Lexeme → Prop where
  | name {s : String} : Sentence [.name s]
  | number {x : Float} : Sentence [.number x]
  | apply {op : Operation} {as bs : List Lexeme} :
      Sentence as → Sentence bs → Sentence (as ++ op.lexeme :: bs)
  | paren {as : List Lexeme} : Sentence as → Sentence (.opens :: (as ++ [.closes]))

/-- The parentheses among the lexemes match. -/
inductive Balanced : List Lexeme → Prop where
  | nil : Balanced []
  | operand {lexeme : Lexeme} {rest : List Lexeme} :
      lexeme.isOperand = true → Balanced rest → Balanced (lexeme :: rest)
  | operation {op : Operation} {rest : List Lexeme} :
      Balanced rest → Balanced (op.lexeme :: rest)
  | paren {inside rest : List Lexeme} :
      Balanced inside → Balanced rest → Balanced (.opens :: (inside ++ .closes :: rest))

/-- Do the lexemes fit together, each with its neighbours, from a place where an operand has to
follow (`true`) or has just ended (`false`)? -/
def fits : Bool → List Lexeme → Bool
  | operandExpected, [] => !operandExpected
  | true, .name _ :: rest => fits false rest
  | true, .number _ :: rest => fits false rest
  | true, .opens :: rest => fits true rest
  | false, .times :: rest => fits true rest
  | false, .over :: rest => fits true rest
  | false, .power :: rest => fits true rest
  | false, .closes :: rest => fits false rest
  | _, _ => false

theorem fits_operation (op : Operation) (rest : List Lexeme) :
    fits false (op.lexeme :: rest) = fits true rest := by
  cases op <;> rfl

/-- A sentence leads from a place where an operand has to follow to one where it has ended. -/
theorem Sentence.fits_append {lexemes : List Lexeme} (h : Sentence lexemes) (rest : List Lexeme) :
    fits true (lexemes ++ rest) = fits false rest := by
  -- For any rest, because parts of a sentence are followed by the other parts.
  induction h generalizing rest with
  | name => rfl
  | number => rfl
  | apply _ _ iha ihb => rw [List.append_assoc, iha, List.cons_append, fits_operation, ihb]
  | paren _ ih =>
    rw [List.cons_append, List.append_assoc, fits, ih]
    rfl

theorem Sentence.fits {lexemes : List Lexeme} (h : Sentence lexemes) :
    fits true lexemes = true := by
  have happend := h.fits_append []
  rwa [List.append_nil] at happend

/-- A part ends here: with the text, or with the parenthesis around it. -/
def Ends (tail : List Lexeme) : Prop := tail = [] ∨ ∃ behind, tail = .closes :: behind

/-- Where an operand is expected no part may end. -/
theorem not_fits_of_ends {tail : List Lexeme} (h : Ends tail) : fits true tail = false := by
  obtain rfl | ⟨behind, rfl⟩ := h <;> rfl

/-- Lexemes that fit are a sentence, or what may stand behind one.  Which of the two depends on
whether an operand is expected in front of them, so both are carried through the induction, for
whatever part they end. -/
theorem Balanced.sentence {lexemes : List Lexeme} (h : Balanced lexemes) :
    ∀ tail, Ends tail →
      (fits true (lexemes ++ tail) = true → Sentence lexemes) ∧
      (fits false (lexemes ++ tail) = true → ∀ as, Sentence as → Sentence (as ++ lexemes)) := by
  induction h with
  | nil =>
    intro tail htail
    refine ⟨fun hfits => ?_, fun _ as has => by rwa [List.append_nil]⟩
    rw [List.nil_append, not_fits_of_ends htail] at hfits
    cases hfits
  | @operand lexeme rest hoperand _ ih =>
    intro tail htail
    cases lexeme with
    | name s => exact ⟨fun hfits => (ih tail htail).2 hfits _ .name, nofun⟩
    | number x => exact ⟨fun hfits => (ih tail htail).2 hfits _ .number, nofun⟩
    | _ => cases hoperand
  | @operation op rest _ ih =>
    intro tail htail
    refine ⟨fun hfits => ?_, fun hfits as has => ?_⟩
    · cases op <;> cases hfits
    · rw [List.cons_append, fits_operation] at hfits
      exact .apply has ((ih tail htail).1 hfits)
  | @paren inside rest _ _ ihInside ihRest =>
    intro tail htail
    refine ⟨fun hfits => ?_, nofun⟩
    rw [List.cons_append, List.append_assoc, fits] at hfits
    -- The parenthesis behind it ends what stands inside, so that is a sentence of its own.
    have hinside := (ihInside _ (.inr ⟨rest ++ tail, rfl⟩)).1 hfits
    rw [hinside.fits_append] at hfits
    have hrest := (ihRest tail htail).2 hfits _ (.paren hinside)
    simpa using hrest

/-- **What makes a sentence**: parentheses that match, and neighbours that fit. -/
theorem sentence_iff_fits {lexemes : List Lexeme} (h : Balanced lexemes) :
    Sentence lexemes ↔ fits true lexemes = true := by
  refine ⟨Sentence.fits, fun hfits => (h.sentence [] (.inl rfl)).1 ?_⟩
  rwa [List.append_nil]

end Lexeme

/-! ### Blank texts -/

namespace Spelling

def IsBlankText (cs : List Char) : Prop := ∀ c ∈ cs, Character.isBlank c = true

theorem isBlank_plainProduct (c : Char) :
    Character.isBlank (plainProduct c) = Character.isBlank c := by
  unfold plainProduct
  split
  · next hc => rcases hc with rfl | rfl <;> decide
  · rfl

theorem joinWords_eq_nil_iff {last : Char} {gap : Bool} {cs : List Char} :
    joinWords last gap cs = [] ↔ IsBlankText cs := by
  induction cs generalizing last gap with
  | nil => simp [joinWords, IsBlankText]
  | cons c rest ih =>
    unfold IsBlankText at ih ⊢
    rw [joinWords, List.forall_mem_cons]
    split
    · next hc => simpa [hc] using @ih last true
    · next hc => split <;> simp [hc]

theorem localWords_eq_nil_iff {cs : List Char} : localWords cs = [] ↔ cs = [] := by
  fun_cases localWords cs with
  | case1 => simp
  | case2 => simp
  | case3 c rest _ word =>
    have hword : word ≠ [] := by
      simp only [word]
      split <;> exact List.cons_ne_nil _ _
    simp [hword]

/-- Only blank texts have an empty spelling. -/
theorem normalize_eq_nil_iff {cs : List Char} : normalize cs = [] ↔ IsBlankText cs := by
  rw [normalize, localWords_eq_nil_iff, joinWords_eq_nil_iff, IsBlankText, List.forall_mem_map]
  simp only [isBlank_plainProduct, IsBlankText]

end Spelling

/-! ### What is parsed all the same

The machine that applies operations sees no parentheses and does not know what stood beside
what.  So it takes texts that no grammar would have, as long as the operands suffice. -/

/-- The text is neither blank nor a sentence, but it is parsed into a unit. -/
def ParsesOutsideGrammar (given : String) : Prop :=
  ¬Spelling.IsBlankText given.toList ∧ (∃ unit, parse given = .ok unit) ∧
    ∃ tokens, Token.scan (Spelling.normalize given.toList) = .ok tokens ∧
      ¬Lexeme.Sentence (tokens.map Token.lexeme)

theorem parsesOutsideGrammar_of_fits {given : String} {normal : List Char}
    {tokens program : List Token} {unit : MeasureUnit}
    (hnormal : Spelling.normalize given.toList = normal) (hne : normal ≠ [])
    (hscan : Token.scan normal = .ok tokens)
    (hordered : Token.toPostfix (String.ofList normal) tokens = .ok program)
    (hrun : (program.foldlM (Operand.step (String.ofList normal)) [] >>=
      ofStack given (String.ofList normal)) = .ok unit)
    (hfits : Lexeme.fits true (tokens.map Token.lexeme) = false) : ParsesOutsideGrammar given := by
  refine ⟨fun hblank => ?_, ⟨unit, ?_⟩, tokens, hnormal ▸ hscan, fun hsentence => ?_⟩
  · rw [Spelling.normalize_eq_nil_iff.2 hblank] at hnormal
    exact hne hnormal.symm
  · rw [parse_of_toPostfix hnormal hne hscan hordered, hrun]
  · rw [hsentence.fits] at hfits
    cases hfits

/-- Texts of units that are no sentences: empty parentheses, an operation behind its operands, and
two numbers side by side, of which the first is an exponent. -/
theorem parse_outside_grammar :
    ParsesOutsideGrammar "()m" ∧ ParsesOutsideGrammar "m(s)*" ∧ ParsesOutsideGrammar "m1.2*" := by
  open Token in
  refine ⟨?_, ?_, ?_⟩
  · have hnormal : Spelling.normalize "()m".toList = ['(', ')', 'm'] := by cbv
    exact parsesOutsideGrammar_of_fits hnormal (List.cons_ne_nil _ _)
      (scanFrom_cons rfl (scanFrom_cons rfl (scanFrom_cons rfl (scanFrom_nil _ _ _)))) rfl rfl rfl
  · have hnormal : Spelling.normalize "m(s)*".toList = ['m', '(', 's', ')', '*'] := by cbv
    exact parsesOutsideGrammar_of_fits hnormal (List.cons_ne_nil _ _)
      (scanFrom_cons rfl (scanFrom_cons rfl (scanFrom_cons rfl (scanFrom_cons rfl (scanFrom_cons rfl
        (scanFrom_nil _ _ _)))))) rfl rfl rfl
  · have hnormal : Spelling.normalize "m1.2*".toList = ['m', '1', '.', '2', '*'] := by cbv
    exact parsesOutsideGrammar_of_fits hnormal (List.cons_ne_nil _ _)
      (scanFrom_cons rfl (scanFrom_cons rfl (scanFrom_cons rfl (scanFrom_nil _ _ _)))) rfl rfl rfl

end Dimensional.MeasureUnit
