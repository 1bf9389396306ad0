import Dimensional.Proofs.MeasureUnit.Written

/-!
# Unit expressions as they are spelled

Lexemes of a unit expression are spelled with nothing between them (`Token.Spells`): operations and
parentheses by their marks, names by letters, numbers by digits with at most one point.  The power
sign between a name and a whole number may be left out, and only right behind `^` or `^(` may a
number carry a sign.

The text is cut into the same lexemes again (`Token.cutInto_of_spells`), since no two operands of
an expression meet (`Tree.Written.apart`).  Main statement: `parse_of_spelled` — a text without
blanks that spells a tree is parsed into the unit that the tree comes to.
-/

namespace Dimensional.MeasureUnit

namespace Token

/-! ### Spelling -/

/-- Digits, maybe with a point before, among or behind them, spell a number. -/
inductive SpellsNumber (negative : Bool) : Float → List Char → Prop where
  | whole {digits : List Char} :
      digits ≠ [] → (∀ c ∈ digits, Character.isDecimalDigit c = true) →
      SpellsNumber negative (numeral negative digits []).toFloat digits
  | point {whole fraction : List Char} :
      whole ++ fraction ≠ [] → (∀ c ∈ whole ++ fraction, Character.isDecimalDigit c = true) →
      SpellsNumber negative (numeral negative whole fraction).toFloat (whole ++ '.' :: fraction)

/-- Letters and dollar signs make up a name. -/
def IsName (cs : List Char) : Prop := cs ≠ [] ∧ ∀ c ∈ cs, isNameChar c = true

/-- The characters spell the lexemes, with nothing between them, at a place where a sign is allowed
or not. -/
inductive Spells : SignPlace → List Lexeme → List Char → Prop where
  | nil {place : SignPlace} : Spells place [] []
  | mark {place : SignPlace} {c : Char} {lexeme : Lexeme} {lexemes : List Lexeme}
      {cs : List Char} :
      mark? c = some lexeme → Spells (place.next lexeme) lexemes cs →
      Spells place (lexeme :: lexemes) (c :: cs)
  | number {place : SignPlace} {x : Float} {digits cs : List Char} {lexemes : List Lexeme} :
      SpellsNumber false x digits → Spells .elsewhere lexemes cs →
      Spells place (.number x :: lexemes) (digits ++ cs)
  | signed {place : SignPlace} {sign : Char} {x : Float} {digits cs : List Char}
      {lexemes : List Lexeme} :
      place ≠ .elsewhere → sign = '+' ∨ sign = '-' → SpellsNumber (sign = '-') x digits →
      Spells .elsewhere lexemes cs →
      Spells place (.number x :: lexemes) (sign :: (digits ++ cs))
  | name {place : SignPlace} {s cs : List Char} {lexemes : List Lexeme} :
      IsName s → Spells .elsewhere lexemes cs →
      Spells place (.name (String.ofList s) :: lexemes) (s ++ cs)
  | suffix {place : SignPlace} {s digits cs : List Char} {lexemes : List Lexeme} :
      IsName s → digits ≠ [] → (∀ c ∈ digits, Character.isDecimalDigit c = true) →
      Spells .elsewhere lexemes cs →
      Spells place
        (.name (String.ofList s) :: .power :: .number (numeral false digits []).toFloat :: lexemes)
        (s ++ (digits ++ cs))

end Token

/-! ### Operands keep apart

Between any two operands of an expression stands an operation or a parenthesis.  That is all the
scanner needs of the grammar: a name or a number that met another one could go on into it. -/

/-- No two operands stand side by side. -/
def Lexeme.Apart : List Lexeme → Prop
  | a :: b :: rest => (a.isOperand = true → b.isOperand = false) ∧ Apart (b :: rest)
  | _ => True

namespace Lexeme

theorem Apart.tail {lexeme : Lexeme} {rest : List Lexeme} (h : Apart (lexeme :: rest)) :
    Apart rest := by
  cases rest with
  | nil => trivial
  | cons => exact h.2

/-- Behind an operand stands no other. -/
theorem Apart.head {lexeme : Lexeme} {rest : List Lexeme} (h : Apart (lexeme :: rest))
    (hoperand : lexeme.isOperand = true) : ∀ next ∈ rest.head?, next.isOperand = false := by
  intro next hnext
  cases rest with
  | nil => cases hnext
  | cons =>
    cases hnext
    exact h.1 hoperand

/-- What is no operand may stand between any others. -/
theorem Apart.append {lexeme : Lexeme} {as bs : List Lexeme} (ha : Apart as) (hb : Apart bs)
    (h : lexeme.isOperand = false) : Apart (as ++ lexeme :: bs) := by
  induction as with
  | nil =>
    cases bs with
    | nil => trivial
    | cons =>
      refine ⟨?_, hb⟩
      intro hoperand
      rw [h] at hoperand
      cases hoperand
  | cons a as ih =>
    cases as with
    | nil => exact ⟨fun _ => h, ih trivial⟩
    | cons => exact ⟨ha.1, ih ha.2⟩

end Lexeme

theorem Tree.Written.apart {level : Nat} {t : Tree} {lexemes : List Lexeme}
    (h : t.Written level lexemes) : Lexeme.Apart lexemes := by
  induction h with
  | name => trivial
  | number => trivial
  | @apply _ op _ _ _ _ _ _ _ iha ihb => exact iha.append ihb (by cases op <;> rfl)
  | paren _ ih =>
    have hclosed := @Lexeme.Apart.append .closes _ [] ih trivial rfl
    exact @Lexeme.Apart.append .opens [] _ trivial hclosed rfl

namespace Token

/-! ### Single tokens

What the scanner takes at the start of a text in which a lexeme is spelled, one lemma for each
way to spell it.  Behind a name or a number there is a mark or nothing (`Stops`). -/

/-- Marks belong to no number and to no name. -/
theorem not_part_of_mark {c : Char} {lexeme : Lexeme} (h : mark? c = some lexeme) :
    Character.isDecimalDigit c = false ∧ isNameChar c = false ∧ c ≠ '.' ∧ c ≠ '+' ∧ c ≠ '-' := by
  unfold mark? at h
  split at h
  · decide
  · decide
  · decide
  · decide
  · decide
  · cases h

def Stops (cs : List Char) : Prop := ∀ c ∈ cs.head?, ∃ lexeme, mark? c = some lexeme

theorem Stops.not_digit {cs : List Char} (h : Stops cs) :
    ∀ c ∈ cs.head?, Character.isDecimalDigit c = false := by
  intro c hc
  obtain ⟨lexeme, hmark⟩ := h c hc
  exact (not_part_of_mark hmark).1

theorem Stops.not_nameChar {cs : List Char} (h : Stops cs) :
    ∀ c ∈ cs.head?, isNameChar c = false := by
  intro c hc
  obtain ⟨lexeme, hmark⟩ := h c hc
  exact (not_part_of_mark hmark).2.1

theorem Stops.ne_point {cs rest : List Char} (h : Stops cs) : cs ≠ '.' :: rest := by
  rintro rfl
  obtain ⟨lexeme, hmark⟩ := h '.' rfl
  exact (not_part_of_mark hmark).2.2.1 rfl

/-- Where no operand is spelled next, there is a mark or nothing. -/
theorem Spells.stops {place : SignPlace} {lexemes : List Lexeme} {cs : List Char}
    (h : Spells place lexemes cs) (hnext : ∀ next ∈ lexemes.head?, next.isOperand = false) :
    Stops cs := by
  intro c hc
  cases h with
  | nil => cases hc
  | mark hmark _ =>
    cases hc
    exact ⟨_, hmark⟩
  | number | signed | name | suffix => cases hnext _ rfl

theorem takeNumber?_of_point {cs rest : List Char}
    (h : cs.dropWhile Character.isDecimalDigit = '.' :: rest) (negative : Bool) :
    takeNumber? negative cs =
      if ((cs.takeWhile Character.isDecimalDigit).isEmpty &&
          (rest.takeWhile Character.isDecimalDigit).isEmpty) = true then none
      else
        some ((.number (numeral negative (cs.takeWhile Character.isDecimalDigit)
            (rest.takeWhile Character.isDecimalDigit)).toFloat,
          (cs.takeWhile Character.isDecimalDigit).length + 1 +
            (rest.takeWhile Character.isDecimalDigit).length),
          rest.dropWhile Character.isDecimalDigit) := by
  unfold takeNumber?
  rw [h]
  rfl

theorem takeNumber?_of_no_point {cs : List Char}
    (h : ∀ rest, cs.dropWhile Character.isDecimalDigit ≠ '.' :: rest) (negative : Bool) :
    takeNumber? negative cs =
      if (cs.takeWhile Character.isDecimalDigit).isEmpty = true then none
      else
        some ((.number (numeral negative (cs.takeWhile Character.isDecimalDigit) []).toFloat,
          (cs.takeWhile Character.isDecimalDigit).length),
          cs.dropWhile Character.isDecimalDigit) := by
  unfold takeNumber?
  split
  · next heq => exact absurd heq (h _)
  · rfl

/-- A number ends where a mark stands.  Where none is taken alone, none is taken in front of a
mark, either. -/
theorem takeNumber?_append {more : List Char} (h : Stops more) (negative : Bool)
    (cs : List Char) :
    takeNumber? negative (cs ++ more) =
      (takeNumber? negative cs).map fun taken => (taken.1, taken.2 ++ more) := by
  obtain ⟨hwhole, hrest⟩ := takeWhile_dropWhile_append_stop cs h.not_digit
  by_cases hpoint : ∃ rest, cs.dropWhile Character.isDecimalDigit = '.' :: rest
  · obtain ⟨rest, hdrop⟩ := hpoint
    obtain ⟨hfraction, htail⟩ := takeWhile_dropWhile_append_stop rest h.not_digit
    rw [hdrop, List.cons_append] at hrest
    rw [takeNumber?_of_point hrest, takeNumber?_of_point hdrop, hwhole, hfraction, htail]
    split <;> rfl
  · -- Behind the digits stands what stood there before, or the mark.
    have hnone : ∀ rest, (cs ++ more).dropWhile Character.isDecimalDigit ≠ '.' :: rest := by
      intro rest heq
      rw [hrest] at heq
      obtain ⟨_, hmore⟩ | ⟨front, hfront, _⟩ := List.append_eq_cons_iff.1 heq
      · exact h.ne_point hmore
      · exact hpoint ⟨front, hfront⟩
    have halone : ∀ rest, cs.dropWhile Character.isDecimalDigit ≠ '.' :: rest := fun rest hdrop =>
      hpoint ⟨rest, hdrop⟩
    rw [takeNumber?_of_no_point hnone, takeNumber?_of_no_point halone, hwhole, hrest]
    split <;> rfl

/-- A name ends where a mark stands, with its exponent. -/
theorem takeName_append_stops {more : List Char} (h : Stops more) (cs : List Char) :
    takeName (cs ++ more) = ((takeName cs).1, (takeName cs).2 ++ more) := by
  obtain ⟨htake, hdrop⟩ := takeWhile_dropWhile_append_stop cs h.not_nameChar
  obtain ⟨htakeDigits, hdropDigits⟩ :=
    takeWhile_dropWhile_append_stop (cs.dropWhile isNameChar) h.not_digit
  simp only [takeName, htake, hdrop, htakeDigits, hdropDigits]

/-- Digits alone are taken to their end. -/
theorem span_digits {digits : List Char}
    (hdigits : ∀ c ∈ digits, Character.isDecimalDigit c = true) :
    digits.takeWhile Character.isDecimalDigit = digits ∧
      digits.dropWhile Character.isDecimalDigit = [] := by
  have hend : ∀ c ∈ ([] : List Char).head?, Character.isDecimalDigit c = false := by
    rintro _ ⟨⟩
  have hspan := takeWhile_dropWhile_append hdigits hend
  rwa [List.append_nil] at hspan

/-- A number is taken as it is spelled. -/
theorem takeNumber?_of_spells {negative : Bool} {x : Float} {digits cs : List Char}
    (h : SpellsNumber negative x digits) (hstops : Stops cs) :
    takeNumber? negative (digits ++ cs) = some ((.number x, digits.length), cs) := by
  have halone : takeNumber? negative digits = some ((.number x, digits.length), []) := by
    cases h with
    | whole hne hdigits =>
      obtain ⟨htake, hdrop⟩ := span_digits hdigits
      have hpoint : ∀ rest, digits.dropWhile Character.isDecimalDigit ≠ '.' :: rest := by
        intro rest heq
        rw [hdrop] at heq
        cases heq
      rw [takeNumber?_of_no_point hpoint, htake, hdrop, if_neg (by simpa using hne)]
    | @point whole fraction hne hdigits =>
      -- The point ends the digits in front of it.
      have hwhole : ∀ c ∈ whole, Character.isDecimalDigit c = true := fun c hc =>
        hdigits c (List.mem_append_left _ hc)
      have hpoint : ∀ c ∈ ('.' :: fraction).head?, Character.isDecimalDigit c = false := by
        rintro _ ⟨⟩
        decide
      obtain ⟨htake, hdrop⟩ := takeWhile_dropWhile_append hwhole hpoint
      obtain ⟨htakeFraction, hdropFraction⟩ := span_digits fun c hc =>
        hdigits c (List.mem_append_right _ hc)
      have hempty : ¬(whole.isEmpty && fraction.isEmpty) = true := by
        simpa using hne
      have hlength : (whole ++ '.' :: fraction).length = whole.length + 1 + fraction.length := by
        rw [List.length_append, List.length_cons]
        omega
      rw [takeNumber?_of_point hdrop, htake, htakeFraction, hdropFraction, if_neg hempty, hlength]
  rw [takeNumber?_append hstops, halone]
  rfl

/-- Numbers start with a digit or a point. -/
theorem SpellsNumber.head {negative : Bool} {x : Float} {digits : List Char}
    (h : SpellsNumber negative x digits) :
    ∃ c rest, digits = c :: rest ∧ (Character.isDecimalDigit c = true ∨ c = '.') := by
  cases h with
  | whole hne hdigits =>
    obtain ⟨c, rest, rfl⟩ := List.exists_cons_of_ne_nil hne
    exact ⟨c, rest, rfl, .inl (hdigits c List.mem_cons_self)⟩
  | @point whole fraction _ hdigits =>
    cases whole with
    | nil => exact ⟨'.', fraction, rfl, .inr rfl⟩
    | cons c whole => exact ⟨c, _, rfl, .inl (hdigits c List.mem_cons_self)⟩

theorem take_mark {c : Char} {lexeme : Lexeme} (h : mark? c = some lexeme) (place : SignPlace)
    (rest : List Char) : take place c rest = .ok ([(lexeme, 1)], rest) := by
  rw [take, h]

theorem take_number {x : Float} {c : Char} {digits cs : List Char}
    (h : SpellsNumber false x (c :: digits)) (hstops : Stops cs) (place : SignPlace) :
    take place c (digits ++ cs) = .ok ([(.number x, digits.length + 1)], cs) := by
  -- A digit or a point is no mark, so numbers are tried next.
  have hmark : mark? c = none := by
    obtain ⟨_, _, heq, hc⟩ := h.head
    cases heq
    apply Option.eq_none_iff_forall_ne_some.2
    intro lexeme hmark
    obtain ⟨hdigit, _, hpoint, _⟩ := not_part_of_mark hmark
    rcases hc with hc | hc
    · rw [hdigit] at hc
      cases hc
    · exact hpoint hc
  have hnumber := takeNumber?_of_spells h hstops
  rw [List.cons_append] at hnumber
  rw [take, hmark, hnumber]
  rfl

theorem take_signed {x : Float} {sign : Char} {digits cs : List Char} {place : SignPlace}
    (hplace : place ≠ .elsewhere) (hsign : sign = '+' ∨ sign = '-')
    (h : SpellsNumber (sign = '-') x digits) (hstops : Stops cs) :
    take place sign (digits ++ cs) = .ok ([(.number x, digits.length + 1)], cs) := by
  have hmark : mark? sign = none := by
    rcases hsign with rfl | rfl <;> rfl
  have hunsigned : takeNumber? false (sign :: (digits ++ cs)) = none := by
    rcases hsign with rfl | rfl <;> rfl
  have hnumber := takeNumber?_of_spells h hstops
  rw [take, hmark, hunsigned]
  simp only [hsign, if_true, hnumber, hplace, if_false]

theorem not_digit_of_isNameChar {c : Char} (h : isNameChar c = true) :
    Character.isDecimalDigit c = false := by
  by_cases hc : c = '$'
  · subst hc
    decide
  · have hparts : Character.isAlphanumeric c = true ∧ Character.isDecimalDigit c = false := by
      simpa [isNameChar, hc] using h
    exact hparts.2

/-- What names consist of starts no other lexeme. -/
theorem take_of_isNameChar {c : Char} (h : isNameChar c = true) (place : SignPlace)
    (rest : List Char) : take place c rest = .ok (takeName (c :: rest)) := by
  have hmark : mark? c = none := by
    apply Option.eq_none_iff_forall_ne_some.2
    intro lexeme hmark
    rw [(not_part_of_mark hmark).2.1] at h
    cases h
  have hsign : ¬(c = '+' ∨ c = '-') := by
    rintro (rfl | rfl) <;> exact absurd h (by decide)
  have hpoint : c ≠ '.' := by
    rintro rfl
    exact absurd h (by decide)
  have hnumber : takeNumber? false (c :: rest) = none := by
    simp [takeNumber?, not_digit_of_isNameChar h, hpoint]
  rw [take, hmark, hnumber]
  simp only [hsign, if_false, h, if_true]

/-- A name is taken with the digits behind it. -/
theorem takeName_append {s digits cs : List Char} (h : IsName s)
    (hdigits : ∀ c ∈ digits, Character.isDecimalDigit c = true) (hstops : Stops cs) :
    takeName (s ++ (digits ++ cs)) =
      ((.name (String.ofList s), s.length) ::
        (if digits.isEmpty then []
          else [(.power, 0), (.number (numeral false digits []).toFloat, digits.length)]), cs) := by
  -- No digit belongs to the name.
  have hname : ∀ c ∈ digits.head?, isNameChar c = false := by
    intro c hc
    have hdigit := hdigits c (List.mem_of_mem_head? hc)
    cases hc : isNameChar c with
    | false => rfl
    | true =>
      rw [not_digit_of_isNameChar hc] at hdigit
      cases hdigit
  obtain ⟨htake, hdrop⟩ := takeWhile_dropWhile_append h.2 hname
  obtain ⟨htakeDigits, hdropDigits⟩ := span_digits hdigits
  rw [← List.append_assoc, takeName_append_stops hstops]
  simp only [takeName, htake, hdrop, htakeDigits, hdropDigits, List.nil_append]

/-! ### The whole text -/

theorem lexemes_of_placed (position : Nat) (parts : List Part) :
    (placed position parts).map Token.lexeme = parts.map Prod.fst := by
  induction parts generalizing position with
  | nil => rfl
  | cons part parts ih => rw [placed, List.map_cons, ih, List.map_cons]

/-- The text is cut into these lexemes, wherever it starts. -/
def CutInto (text : String) (place : SignPlace) (cs : List Char) (lexemes : List Lexeme) : Prop :=
  ∀ position, ∃ tokens, scanFrom text place position cs = .ok tokens ∧
    tokens.map Token.lexeme = lexemes

theorem scanFrom_nil (text : String) (place : SignPlace) (position : Nat) :
    scanFrom text place position [] = .ok [] := by
  rw [scanFrom]

/-- The tokens of the first parts, and those of the rest. -/
theorem scanFrom_cons {text : String} {place : SignPlace} {position : Nat} {c : Char}
    {rest tail : List Char} {parts : List Part} {tokens : List Token}
    (htake : take place c rest = .ok (parts, tail))
    (h : scanFrom text (parts.foldl (fun place part => place.next part.1) place)
      (position + width parts) tail = .ok tokens) :
    scanFrom text place position (c :: rest) = .ok (placed position parts ++ tokens) := by
  rw [scanFrom]
  split
  · next htake' =>
    rw [htake] at htake'
    cases htake'
  · next htake' =>
    rw [htake] at htake'
    cases htake'
    simp only [h]
    rfl

theorem cutInto_of_take {text : String} {place : SignPlace} {c : Char} {rest tail : List Char}
    {parts : List Part} {lexemes : List Lexeme} (htake : take place c rest = .ok (parts, tail))
    (h : CutInto text (parts.foldl (fun place part => place.next part.1) place) tail lexemes) :
    CutInto text place (c :: rest) (parts.map Prod.fst ++ lexemes) := by
  intro position
  obtain ⟨tokens, hscan, rfl⟩ := h (position + width parts)
  refine ⟨placed position parts ++ tokens, scanFrom_cons htake hscan, ?_⟩
  rw [List.map_append, lexemes_of_placed]

theorem cutInto_of_takeName {text : String} {place : SignPlace} {s cs tail : List Char}
    {parts : List Part} {lexemes : List Lexeme} (h : IsName s)
    (htake : takeName (s ++ cs) = (parts, tail))
    (hrest : CutInto text (parts.foldl (fun place part => place.next part.1) place) tail lexemes) :
    CutInto text place (s ++ cs) (parts.map Prod.fst ++ lexemes) := by
  obtain ⟨c, s, rfl⟩ := List.exists_cons_of_ne_nil h.1
  apply cutInto_of_take ?_ hrest
  rw [take_of_isNameChar (h.2 c List.mem_cons_self)]
  exact congrArg _ htake

/-- What spells lexemes with operands apart is cut into them.  Several texts may spell the same
lexemes; each is cut into these and no others. -/
theorem cutInto_of_spells {place : SignPlace} {lexemes : List Lexeme} {cs : List Char}
    (h : Spells place lexemes cs) (hapart : Lexeme.Apart lexemes) (text : String) :
    CutInto text place cs lexemes := by
  -- Numbers and names are followed by no operand, hence by a mark, which ends them.
  induction h with
  | nil => exact fun position => ⟨[], scanFrom_nil text _ position, rfl⟩
  | mark hmark _ ih => exact cutInto_of_take (take_mark hmark _ _) (ih hapart.tail)
  | number hnumber hrest ih =>
    obtain ⟨c, digits, rfl, _⟩ := hnumber.head
    have hstops := hrest.stops (hapart.head rfl)
    exact cutInto_of_take (take_number hnumber hstops _) (ih hapart.tail)
  | signed hplace hsign hnumber hrest ih =>
    have hstops := hrest.stops (hapart.head rfl)
    exact cutInto_of_take (take_signed hplace hsign hnumber hstops) (ih hapart.tail)
  | name hname hrest ih =>
    have hstops := hrest.stops (hapart.head rfl)
    have htake := @takeName_append _ [] _ hname (by simp) hstops
    exact cutInto_of_takeName hname htake (ih hapart.tail)
  | suffix hname hne hdigits hrest ih =>
    have hapart := hapart.tail.tail
    have hstops := hrest.stops (hapart.head rfl)
    have htake := takeName_append hname hdigits hstops
    rw [if_neg (by simpa using hne)] at htake
    exact cutInto_of_takeName hname htake (ih hapart.tail)

end Token

/-! ### The whole way -/

namespace Spelling

/-- A text without blanks is only respelled word by word. -/
theorem joinWords_of_no_blank {cs : List Char} (h : ∀ c ∈ cs, Character.isBlank c = false)
    (last : Char) : joinWords last false cs = cs := by
  induction cs generalizing last with
  | nil => rfl
  | cons c rest ih =>
    have hc := h c List.mem_cons_self
    have hrest := ih (fun d hd => h d (List.mem_cons_of_mem _ hd)) c
    simp [joinWords, hc, hrest]

theorem normalize_of_no_blank {cs : List Char} (h : ∀ c ∈ cs, Character.isBlank c = false) :
    normalize cs = localWords (cs.map plainProduct) := by
  have hplain : ∀ c ∈ cs.map plainProduct, Character.isBlank c = false := by
    intro d hd
    obtain ⟨c, hc, rfl⟩ := List.mem_map.1 hd
    unfold plainProduct
    split
    · decide
    · exact h c hc
  rw [normalize, joinWords_of_no_blank hplain]

end Spelling

theorem Tree.Written.ne_nil {level : Nat} {t : Tree} {lexemes : List Lexeme}
    (h : t.Written level lexemes) : lexemes ≠ [] := by
  cases h <;> simp

/-- What the stack machine leaves behind is made a unit as the tree is. -/
theorem byKind_ofStack (given normal : String) (t : Tree) :
    (byKind t.eval >>= fun x => byKind (ofStack given normal [x])) = byKind (t.unit given) := by
  rw [Tree.unit, byKind_bind]
  cases byKind t.eval with
  | error kind => rfl
  | ok x =>
    show byKind (ofStack given normal [x]) = byKind (x.toUnit >>= _)
    rw [ofStack, byKind_bind, byKind_bind]
    congr 1
    funext unit
    split <;> rfl

theorem parse_of_toPostfix {given : String} {normal : List Char} {tokens program : List Token}
    (hnormal : Spelling.normalize given.toList = normal) (hne : normal ≠ [])
    (hscan : Token.scan normal = .ok tokens)
    (hordered : Token.toPostfix (String.ofList normal) tokens = .ok program) :
    parse given =
      program.foldlM (Operand.step (String.ofList normal)) [] >>=
        ofStack given (String.ofList normal) := by
  subst hnormal
  unfold parse
  simp only [List.isEmpty_iff, hne, if_false, hscan]
  show (Token.toPostfix _ tokens >>= _) = _
  rw [hordered]
  rfl

/-- **Units are read as they are written**: a text without blanks that spells a unit expression is
parsed into the unit that the expression comes to, or fails with an error of the same kind.  The
text may have other signs for products and localized words, as long as its normal spelling spells
the expression. -/
theorem parse_of_spelled {t : Tree} {lexemes : List Lexeme} {given : String}
    (hwritten : t.Written 0 lexemes)
    (hblank : ∀ c ∈ given.toList, Character.isBlank c = false)
    (hspells : Token.Spells .elsewhere lexemes
      (Spelling.localWords (given.toList.map Spelling.plainProduct))) :
    byKind (parse given) = byKind (t.unit given) := by
  have hnormal := Spelling.normalize_of_no_blank hblank
  generalize Spelling.localWords (given.toList.map Spelling.plainProduct) = normal at *
  obtain ⟨tokens, hscan, rfl⟩ :=
    Token.cutInto_of_spells hspells hwritten.apart (String.ofList normal) 0
  -- The spelling of an expression is not empty, so it is not taken for a blank text.
  have hne : normal ≠ [] := by
    rintro rfl
    rw [Token.scanFrom] at hscan
    cases hscan
    exact hwritten.ne_nil rfl
  obtain ⟨program, hordered, hpostorder⟩ :=
    Token.toPostfix_lexemes hwritten (String.ofList normal)
  rw [parse_of_toPostfix hnormal hne hscan hordered, byKind_bind,
    foldlM_step_postorder hpostorder, ← byKind_ofStack given (String.ofList normal)]
  cases byKind t.eval <;> rfl

/-- `kg·m2/s^-2`: another sign for the product, a power without its sign, and a signed exponent. -/
theorem parse_kg_m2_per_s :
    byKind (parse "kg·m2/s^-2") =
      byKind (Tree.unit "kg·m2/s^-2"
        (.apply .quotient
          (.apply .product (.name "kg")
            (.apply .power (.name "m") (.number (Token.numeral false ['2'] []).toFloat)))
          (.apply .power (.name "s") (.number (Token.numeral true ['2'] []).toFloat)))) := by
  have hmeters : Tree.Written Operation.product.rightLevel _
      ([.name "m"] ++ .power :: [.number (Token.numeral false ['2'] []).toFloat]) :=
    @Tree.Written.apply _ .power _ _ _ _ (by decide) .name .number
  have hseconds : Tree.Written Operation.quotient.rightLevel _
      ([.name "s"] ++ .power :: [.number (Token.numeral true ['2'] []).toFloat]) :=
    @Tree.Written.apply _ .power _ _ _ _ (by decide) .name .number
  have hproduct : Tree.Written Operation.quotient.leftLevel _ ([.name "kg"] ++ .times :: _) :=
    @Tree.Written.apply _ .product _ _ _ _ (by decide) .name hmeters
  have hname : ∀ {cs : List Char}, cs ≠ [] → cs.all Token.isNameChar = true → Token.IsName cs :=
    fun hne hall => ⟨hne, List.all_eq_true.1 hall⟩
  have htwo : ∀ c ∈ ['2'], Character.isDecimalDigit c = true := List.all_eq_true.1 (by decide)
  have hspells : Token.Spells .elsewhere
      [.name (String.ofList ['k', 'g']), .times, .name (String.ofList ['m']), .power,
        .number (Token.numeral false ['2'] []).toFloat, .over, .name (String.ofList ['s']), .power,
        .number (Token.numeral true ['2'] []).toFloat]
      (['k', 'g'] ++ '*' :: (['m'] ++ (['2'] ++ '/' :: (['s'] ++ '^' :: '-' :: (['2'] ++ []))))) :=
    .name (hname (by decide) (by decide)) (.mark rfl
      (.suffix (hname (by decide) (by decide)) (by decide) htwo (.mark rfl
        (.name (hname (by decide) (by decide)) (.mark rfl
          (.signed (by decide) (.inr rfl) (.whole (by decide) htwo) .nil))))))
  have hblank : ∀ c ∈ "kg·m2/s^-2".toList, Character.isBlank c = false := by
    have hall : "kg·m2/s^-2".toList.all (!Character.isBlank ·) = true := by decide
    simpa using hall
  exact parse_of_spelled (@Tree.Written.apply 0 .quotient _ _ _ _ (by decide) hproduct hseconds)
    hblank hspells

end Dimensional.MeasureUnit
