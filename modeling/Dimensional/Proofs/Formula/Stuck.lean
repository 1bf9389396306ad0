import Dimensional.Proofs.Formula.Break

/-!
# Where texts cannot be cut any further

A text that is not cut into tokens is stuck at some place: with a character that begins no token, a
number that cannot be read or is not finite, or a bracket that is never closed (`Stuck`).  The
tokens in front of that place may have been taken with a look at what stands there, but they do not
hang on it: what a token leaves behind may be cut off (`take_cut`).

Main statement: `stuck_of_scan` — the error of a text names the place where the text is stuck, and
what stands in front of that place is cut into tokens.
-/

namespace Dimensional.Formula.Token

/-- The text cannot be cut, because of what it begins with. -/
inductive Stuck : ParseFault → List Char → Prop where
  /-- No token begins with this character. -/
  | character {c : Char} {rest : List Char} :
      Character.isBlank c = false → isNumberStart c = false → isNameStart c = false →
      c ∉ ['(', ')', ',', '!'] → (∀ op : BinaryOp, ¬op.symbol.toList <+: c :: rest) →
      Stuck (.unexpectedCharacter c) (c :: rest)
  /-- A number begins here that cannot be read. -/
  | unreadable {c : Char} {literal rest : List Char} :
      isNumberStart c = true → (takeNumber false (c :: rest)).1 = literal →
      Decimal.parseText? literal = none → Stuck (.invalidNumber (String.ofList literal)) (c :: rest)
  /-- A number begins here that is not finite. -/
  | infinite {c : Char} {literal rest : List Char} {x : Float} :
      isNumberStart c = true → (takeNumber false (c :: rest)).1 = literal →
      Decimal.parseText? literal = some x → x.isFinite = false →
      Stuck (.infiniteNumber (String.ofList literal)) (c :: rest)
  /-- A bracket is opened here that is never closed. -/
  | bracket {rest : List Char} : takeBracketed? 0 rest = none → Stuck .unclosedBracket ('[' :: rest)

theorem Stuck.ne_nil {fault : ParseFault} {left : List Char} (h : Stuck fault left) :
    left ≠ [] := by
  cases h <;> exact List.cons_ne_nil _ _

/-- Where a text is stuck no parenthesis is opened. -/
theorem Stuck.opensNext {fault : ParseFault} {left : List Char} (h : Stuck fault left) :
    opensNext left = false := by
  have hnumber : ∀ {c : Char} {rest : List Char}, isNumberStart c = true →
      Token.opensNext (c :: rest) = false := by
    intro c rest hc
    have hparen : c ≠ '(' := by
      rintro rfl
      exact absurd hc (by decide)
    have hblank : Character.isBlank c = false := by
      cases hblank : Character.isBlank c with
      | true => exact absurd hc (by simp [(breaks_of_isBlank hblank).number])
      | false => rfl
    simp [Token.opensNext, hblank, hparen]
  cases h with
  | character hblank _ _ hsign _ =>
    simp only [List.mem_cons, not_or] at hsign
    simp [Token.opensNext, hblank, hsign.1]
  | unreadable hc => exact hnumber hc
  | infinite hc => exact hnumber hc
  | bracket =>
    have hblank : Character.isBlank '[' = false := by decide
    simp [Token.opensNext, hblank]

/-! ### Tokens at the end of a text that is cut off behind them

A scanner that took a token from a long text takes the same token from the text up to anywhere
behind the token.  The lemmas on parts say so with any way of parting what is left into `front`
and `left`, because a token may be followed by blanks before the text gets stuck. -/

/-- What a list does not start with, no part of it from the start on starts with. -/
theorem head?_of_append {α : Type} {P : α → Prop} {xs ys : List α}
    (h : ∀ x ∈ (xs ++ ys).head?, P x) : ∀ x ∈ xs.head?, P x := by
  cases xs with
  | nil => exact nofun
  | cons x xs => exact h

theorem takeNumber_fst_append_snd (marked : Bool) (cs : List Char) :
    (takeNumber marked cs).1 ++ (takeNumber marked cs).2 = cs := by
  fun_induction takeNumber marked cs <;> simp_all

/-- A number does not hang on what follows the part of the text that comes next. -/
theorem takeNumber_of_append {marked : Bool} {cs literal front left : List Char}
    (h : takeNumber marked cs = (literal, front ++ left)) :
    takeNumber marked (literal ++ front) = (literal, front) := by
  -- The cases are those of the scanner: the end, a digit, an exponent mark at the end or with a
  -- sign or without one, and a character that ends the number.
  fun_induction takeNumber marked cs generalizing literal with
  | case1 marked =>
    obtain ⟨rfl, hnil⟩ := Prod.mk.inj h
    obtain ⟨rfl, rfl⟩ := List.append_eq_nil_iff.1 hnil.symm
    rfl
  | case2 marked c rest hc part tail htake ih =>
    obtain ⟨rfl, rfl⟩ := Prod.mk.inj h
    rw [List.cons_append, takeNumber.eq_def]
    simp only [hc, if_true, ih htake]
  | case3 marked c hc hmark =>
    obtain ⟨rfl, hnil⟩ := Prod.mk.inj h
    obtain ⟨rfl, rfl⟩ := List.append_eq_nil_iff.1 hnil.symm
    rw [List.append_nil, takeNumber.eq_def]
    simp only [hc, hmark, Bool.false_eq_true, if_false, if_true]
  | case4 marked c hc hmark sign rest hsign part tail htake ih =>
    obtain ⟨rfl, rfl⟩ := Prod.mk.inj h
    rw [List.cons_append, List.cons_append, takeNumber.eq_def]
    simp only [hc, hmark, hsign, Bool.false_eq_true, if_false, if_true, ih htake]
  | case5 marked c hc hmark sign rest hsign part tail htake ih =>
    obtain ⟨rfl, rfl⟩ := Prod.mk.inj h
    have hall := takeNumber_fst_append_snd true (sign :: rest)
    rw [htake, ← List.append_assoc] at hall
    replace ih := ih htake
    rw [List.cons_append, takeNumber.eq_def]
    simp only [hc, hmark, Bool.false_eq_true, if_false, if_true]
    -- What is left of the text behind the mark starts as it did, unless nothing is left of it.
    cases hpart : part ++ front with
    | nil =>
      obtain ⟨rfl, rfl⟩ := List.append_eq_nil_iff.1 hpart
      rfl
    | cons d ds =>
      rw [hpart] at ih hall
      cases hall
      simp only [hsign, Bool.false_eq_true, if_false, ih]
  | case6 marked c rest hc hmark =>
    obtain ⟨rfl, hrest⟩ := Prod.mk.inj h
    cases front with
    | nil => rfl
    | cons d front =>
      cases hrest
      rw [List.nil_append, takeNumber.eq_def]
      simp only [hc, hmark, Bool.false_eq_true, if_false]

theorem takeBracketed?_cut {depth : Nat} {cs inside rest : List Char}
    (h : takeBracketed? depth cs = some (inside, rest)) :
    cs = inside ++ ']' :: rest ∧
      ∀ after, takeBracketed? depth (inside ++ ']' :: after) = some (inside, after) := by
  fun_induction takeBracketed? depth cs generalizing inside rest with
  | case1 => cases h
  | case2 cs =>
    cases h
    exact ⟨rfl, fun _ => rfl⟩
  | case3 depth cs ih =>
    obtain ⟨⟨part, left⟩, hpart, heq⟩ := Option.map_eq_some_iff.1 h
    cases heq
    obtain ⟨rfl, hafter⟩ := ih hpart
    refine ⟨rfl, fun after => ?_⟩
    rw [List.cons_append, takeBracketed?, hafter]
    rfl
  | case4 depth c cs hclosed hclose ih =>
    obtain ⟨⟨part, left⟩, hpart, heq⟩ := Option.map_eq_some_iff.1 h
    cases heq
    obtain ⟨rfl, hafter⟩ := ih hpart
    refine ⟨rfl, fun after => ?_⟩
    rw [List.cons_append, takeBracketed?.eq_4 _ _ _ hclosed hclose, hafter]
    rfl

theorem takeUnit_cut {cs tail : List Char} {unitText : String}
    (h : takeUnit cs = .ok (unitText, tail)) :
    ∃ spelling, cs = spelling ++ tail ∧ ∀ front left, tail = front ++ left →
      takeUnit (spelling ++ front) = .ok (unitText, front) := by
  unfold takeUnit at h
  split at h
  · split at h
    · next inside _ hinside =>
      cases h
      obtain ⟨rfl, hafter⟩ := takeBracketed?_cut hinside
      refine ⟨'[' :: (inside ++ [']']), by simp, fun front left _ => ?_⟩
      rw [List.cons_append, List.append_assoc, List.singleton_append, takeUnit, hafter]
    · cases h
  · next hcs =>
    cases h
    refine ⟨[], rfl, fun front left htail => ?_⟩
    subst htail
    cases front with
    | nil => rfl
    | cons d front =>
      unfold takeUnit
      split
      · next heq => cases heq; exact absurd rfl (hcs _)
      · rfl

/-- A number takes its first character and then goes on as behind it. -/
theorem takeNumber_cons {c : Char} (hc : isNumberStart c = true) (marked : Bool)
    (rest : List Char) :
    takeNumber marked (c :: rest) =
      (c :: (takeNumber marked rest).1, (takeNumber marked rest).2) := by
  rw [takeNumber.eq_def]
  simp only [hc, if_true]

/-- What a number with its unit is taken from. -/
theorem takeQuantity_eq_ok {c : Char} {rest tail : List Char} {token : Token}
    (h : takeQuantity c rest = .ok (token, tail)) :
    ∃ x unitText, token = .number x unitText ∧
      Decimal.parseText? (takeNumber false (c :: rest)).1 = some x ∧ x.isFinite = true ∧
      takeUnit (takeNumber false (c :: rest)).2 = .ok (unitText, tail) := by
  unfold takeQuantity at h
  simp only at h
  split at h
  · cases h
  · next x hx =>
    split at h
    · next hfinite =>
      obtain ⟨⟨unitText, left⟩, hunit, heq⟩ := Fallible.map_eq_ok_iff.1 h
      cases heq
      exact ⟨x, unitText, rfl, hx, hfinite, hunit⟩
    · cases h

theorem takeQuantity_cut {c : Char} {rest tail : List Char} {token : Token}
    (hc : isNumberStart c = true) (h : takeQuantity c rest = .ok (token, tail)) :
    ∃ spelling, rest = spelling ++ tail ∧ ∀ front left, tail = front ++ left →
      ∀ operandExpected, take operandExpected c (spelling ++ front) = .ok (token, front) := by
  obtain ⟨x, unitText, rfl, hx, hfinite, hunit⟩ := takeQuantity_eq_ok h
  obtain ⟨spelling, hspelling, hcut⟩ := takeUnit_cut hunit
  have hrest := takeNumber_fst_append_snd false rest
  rw [takeNumber_cons hc] at hspelling hx
  simp only at hspelling
  refine ⟨(takeNumber false rest).1 ++ spelling, ?_, fun front left htail operandExpected => ?_⟩
  · rw [List.append_assoc, ← hspelling, hrest]
  · have hall : takeNumber false rest = ((takeNumber false rest).1, spelling ++ front ++ left) := by
      rw [List.append_assoc, ← htail, ← hspelling]
    have hnumber := takeNumber_of_append hall
    refine take_number hc ?_ hx hfinite (hcut front left htail) operandExpected
    rw [List.append_assoc, takeNumber_cons hc, hnumber]

/-- What is taken for a name that is not called. -/
theorem takeName_of_not_called {c : Char} {rest : List Char}
    (h : Builtin.ofName? (String.ofList (c :: rest.takeWhile isNamePart)) = none ∨
      opensNext (rest.dropWhile isNamePart) = false) :
    takeName c rest = (takeUnit (rest.dropWhile isNamePart)).map fun (unitText, rest') =>
      (.name (String.ofList (c :: rest.takeWhile isNamePart)) unitText, rest') := by
  unfold takeName
  simp only
  split
  · next hf hopens =>
    rw [hf, hopens] at h
    rcases h with h | h <;> cases h
  · rfl

/-- A name is called, and so no unit is taken, or it is not. -/
theorem takeName_cases (c : Char) (rest : List Char) :
    (∃ f, Builtin.ofName? (String.ofList (c :: rest.takeWhile isNamePart)) = some f ∧
        opensNext (rest.dropWhile isNamePart) = true ∧
        takeName c rest = .ok (.call (.builtin f) f.arity, rest.dropWhile isNamePart)) ∨
      (Builtin.ofName? (String.ofList (c :: rest.takeWhile isNamePart)) = none ∨
        opensNext (rest.dropWhile isNamePart) = false) := by
  cases hf : Builtin.ofName? (String.ofList (c :: rest.takeWhile isNamePart)) with
  | none => exact .inr (.inl rfl)
  | some f =>
    cases hopens : opensNext (rest.dropWhile isNamePart) with
    | false => exact .inr (.inr rfl)
    | true =>
      refine .inl ⟨f, rfl, rfl, ?_⟩
      simp only [takeName, hf, hopens]

theorem isName_takeWhile {c : Char} (hc : isNameStart c = true) (rest : List Char) :
    IsName c (rest.takeWhile isNamePart) :=
  ⟨hc, List.all_eq_true.1 List.all_takeWhile⟩

theorem takeName_cut {c : Char} {rest tail : List Char} {token : Token}
    (hc : isNameStart c = true) (h : takeName c rest = .ok (token, tail)) :
    ∃ spelling, rest = spelling ++ tail ∧ ∀ front left, tail = front ++ left →
      opensNext left = false → ∀ operandExpected,
        take operandExpected c (spelling ++ front) = .ok (token, front) := by
  have hname := isName_takeWhile hc rest
  have hrest : rest.takeWhile isNamePart ++ rest.dropWhile isNamePart = rest :=
    List.takeWhile_append_dropWhile
  have hstop : ∀ d ∈ (rest.dropWhile isNamePart).head?, isNamePart d = false := by
    intro d hd
    have hnot := List.head?_dropWhile_not isNamePart rest
    rw [hd] at hnot
    simpa using hnot
  rcases takeName_cases c rest with ⟨f, hf, hopens, hcall⟩ | hplain
  · rw [hcall] at h
    cases h
    refine ⟨rest.takeWhile isNamePart, hrest.symm, fun front left htail hleft operandExpected => ?_⟩
    rw [htail] at hstop hopens
    rw [opensNext_append hleft] at hopens
    exact take_call hname hf (head?_of_append hstop) hopens operandExpected
  · rw [takeName_of_not_called hplain] at h
    obtain ⟨⟨unitText, _⟩, hunit, heq⟩ := Fallible.map_eq_ok_iff.1 h
    obtain ⟨rfl, rfl⟩ := Prod.mk.inj heq
    obtain ⟨spelling, hspelling, hcut⟩ := takeUnit_cut hunit
    refine ⟨rest.takeWhile isNamePart ++ spelling, ?_, fun front left htail hleft e => ?_⟩
    · rw [List.append_assoc, ← hspelling, hrest]
    · rw [hspelling, htail, ← List.append_assoc] at hstop hplain
      rw [opensNext_append hleft] at hplain
      rw [List.append_assoc]
      exact take_name hname hplain (head?_of_append hstop) (hcut front left htail) e

theorem takeSign_cut {operandExpected : Bool} {c : Char} {rest tail : List Char} {token : Token}
    (h : takeSign operandExpected c rest = .ok (token, tail)) :
    ∃ spelling, rest = spelling ++ tail ∧ ∀ front left, tail = front ++ left →
      takeSign operandExpected c (spelling ++ front) = .ok (token, front) := by
  unfold takeSign at h
  split at h
  case h_18 => cases h
  case h_1 | h_2 | h_3 | h_4 | h_5 | h_6 =>
    cases h
    exact ⟨[_], rfl, fun _ _ _ => rfl⟩
  -- Where an equals sign would make another operator, none follows the sign in the cut text.
  case h_10 | h_16 | h_17 =>
    cases h
    refine ⟨[], rfl, fun front left htail => ?_⟩
    subst htail
    unfold takeSign
    cases front <;> split <;> simp_all
  all_goals
    cases h
    exact ⟨[], rfl, fun _ _ _ => rfl⟩

/-- **What a token leaves may be cut off**, if no parenthesis is opened in what is cut off. -/
theorem take_cut {operandExpected : Bool} {c : Char} {rest tail : List Char} {token : Token}
    (h : take operandExpected c rest = .ok (token, tail)) :
    ∃ spelling, rest = spelling ++ tail ∧ ∀ front left, tail = front ++ left →
      opensNext left = false →
        take operandExpected c (spelling ++ front) = .ok (token, front) := by
  unfold take at h
  split at h
  · next hc =>
    obtain ⟨spelling, hspelling, hcut⟩ := takeQuantity_cut hc h
    exact ⟨spelling, hspelling, fun front left htail _ => hcut front left htail _⟩
  · next hc =>
    split at h
    · next hname =>
      obtain ⟨spelling, hspelling, hcut⟩ := takeName_cut hname h
      exact ⟨spelling, hspelling, fun front left htail hleft => hcut front left htail hleft _⟩
    · next hname =>
      obtain ⟨spelling, hspelling, hcut⟩ := takeSign_cut h
      refine ⟨spelling, hspelling, fun front left htail _ => ?_⟩
      rw [take_eq_takeSign (by simp [hc, hname])]
      exact hcut front left htail

/-! ### Where a text is stuck

The induction goes along the scan from the front.  Tokens in front of the place where it ends
have been taken from longer texts, and `take_cut` says that they are taken from the part in
front of that place as well; no parenthesis is opened where a text is stuck, which is all that
`take_cut` asks. -/

theorem stuck_of_takeUnit {cs left : List Char} {fault : ParseFault}
    (h : takeUnit cs = .error (fault, left)) : left = cs ∧ Stuck fault left := by
  unfold takeUnit at h
  split at h
  · split at h
    · cases h
    · next hbracket =>
      cases h
      exact ⟨rfl, .bracket hbracket⟩
  · cases h

/-- What a text is stuck with is all of it, or what stands behind a number or a name. -/
def StuckBehind (operandExpected : Bool) (c : Char) (rest : List Char) (fault : ParseFault)
    (left : List Char) : Prop :=
  Stuck fault left ∧ (left = c :: rest ∨ ∃ spelling token, rest = spelling ++ left ∧
    take operandExpected c spelling = .ok (token, []))

theorem takeUnit_nil : takeUnit [] = .ok ("", []) := rfl

theorem stuck_of_takeQuantity {c : Char} {rest left : List Char} {fault : ParseFault}
    (hc : isNumberStart c = true) (h : takeQuantity c rest = .error (fault, left))
    (operandExpected : Bool) : StuckBehind operandExpected c rest fault left := by
  unfold takeQuantity at h
  simp only at h
  split at h
  · next hx =>
    cases h
    exact ⟨.unreadable hc rfl hx, .inl rfl⟩
  · next x hx =>
    split at h
    · next hfinite =>
      -- The number is one, so the bracket behind it is at fault.
      rw [takeNumber_cons hc] at hx h
      obtain ⟨rfl, hstuck⟩ := stuck_of_takeUnit (Fallible.map_eq_error_iff.1 h)
      have hdigits : takeNumber false (takeNumber false rest).1 =
          ((takeNumber false rest).1, []) := by
        simpa using @takeNumber_of_append false rest _ [] _ rfl
      have hnumber : takeNumber false (c :: (takeNumber false rest).1) =
          (c :: (takeNumber false rest).1, []) := by rw [takeNumber_cons hc, hdigits]
      have halone := take_number hc hnumber hx hfinite takeUnit_nil operandExpected
      exact ⟨hstuck, .inr ⟨_, _, (takeNumber_fst_append_snd false rest).symm, halone⟩⟩
    · next hfinite =>
      cases h
      exact ⟨.infinite hc rfl hx (Bool.eq_false_iff.2 hfinite), .inl rfl⟩

theorem stuck_of_takeName {c : Char} {rest left : List Char} {fault : ParseFault}
    (hc : isNameStart c = true) (h : takeName c rest = .error (fault, left))
    (operandExpected : Bool) : StuckBehind operandExpected c rest fault left := by
  rcases takeName_cases c rest with ⟨f, _, _, hcall⟩ | hplain
  · rw [hcall] at h
    cases h
  · rw [takeName_of_not_called hplain] at h
    obtain ⟨rfl, hstuck⟩ := stuck_of_takeUnit (Fallible.map_eq_error_iff.1 h)
    have halone := @take_name [] _ _ _ _ (isName_takeWhile hc rest) (.inr rfl) nofun takeUnit_nil
      operandExpected
    rw [List.append_nil] at halone
    exact ⟨hstuck, .inr ⟨_, _, List.takeWhile_append_dropWhile.symm, halone⟩⟩

/-- What is no sign begins no token, if neither a number nor a name begins there. -/
theorem stuck_of_takeSign {operandExpected : Bool} {c : Char} {rest left : List Char}
    {fault : ParseFault} (hblank : Character.isBlank c = false) (hnumber : isNumberStart c = false)
    (hname : isNameStart c = false)
    (h : takeSign operandExpected c rest = .error (fault, left)) :
    StuckBehind operandExpected c rest fault left := by
  unfold takeSign at h
  split at h
  case h_18 =>
    cases h
    refine ⟨.character hblank hnumber hname (by simp_all) ?_, .inl rfl⟩
    rintro op ⟨after, hafter⟩
    replace hafter := hafter.symm
    cases op <;> simp_all [BinaryOp.symbol]
  all_goals cases h

/-- A text that begins with no token is stuck there, or behind a number or a name. -/
theorem stuck_of_take {operandExpected : Bool} {c : Char} {rest left : List Char}
    {fault : ParseFault} (hblank : Character.isBlank c = false)
    (h : take operandExpected c rest = .error (fault, left)) :
    StuckBehind operandExpected c rest fault left := by
  unfold take at h
  split at h
  · next hc => exact stuck_of_takeQuantity hc h _
  · next hc =>
    split at h
    · next hname => exact stuck_of_takeName hname h _
    · next hname =>
      exact stuck_of_takeSign hblank (Bool.eq_false_iff.2 hc) (Bool.eq_false_iff.2 hname) h

theorem scanFrom_of_misfit {text : String} {operandExpected : Bool} {c : Char}
    {rest left : List Char} {fault : ParseFault} (hc : Character.isBlank c = false)
    (h : take operandExpected c rest = .error (fault, left)) :
    scanFrom text operandExpected (c :: rest) =
      .error (.parse fault text (some ((text.length - left.length : Nat) : Int))) := by
  rw [scanFrom, if_neg (by simp [hc])]
  split
  · next htake =>
    rw [h] at htake
    cases htake
    rfl
  · next htake =>
    rw [h] at htake
    cases htake

/-- A text that is not cut into tokens is stuck somewhere, and what stands in front of that place is
cut into tokens. -/
theorem stuck_of_scanFrom {text : String} (operandExpected : Bool) (cs : List Char) {e : Error}
    (h : scanFrom text operandExpected cs = .error e) :
    ∃ fault front left, cs = front ++ left ∧ Stuck fault left ∧
      e = .parse fault text (some ((text.length - left.length : Nat) : Int)) ∧
      ∀ whole, ∃ tokens, scanFrom whole operandExpected front = .ok tokens := by
  match cs with
  | [] =>
    rw [scanFrom] at h
    cases h
  | c :: rest =>
    cases hblank : Character.isBlank c with
    | true =>
      rw [scanFrom_blank hblank] at h
      obtain ⟨fault, front, left, rfl, hstuck, he, hfront⟩ :=
        stuck_of_scanFrom operandExpected rest h
      refine ⟨fault, c :: front, left, rfl, hstuck, he, fun whole => ?_⟩
      rw [scanFrom_blank hblank]
      exact hfront whole
    | false =>
      cases htake : take operandExpected c rest with
      | error misfit =>
        obtain ⟨fault, left⟩ := misfit
        obtain ⟨hstuck, hleft⟩ := stuck_of_take hblank htake
        rw [scanFrom_of_misfit hblank htake] at h
        cases h
        -- A unit that is never closed stands behind a number or a name, which is then the last
        -- token in front of the place.
        obtain rfl | ⟨spelling, token, rfl, hspelling⟩ := hleft
        · exact ⟨fault, [], c :: rest, rfl, hstuck, rfl, fun _ => ⟨[], by rw [scanFrom]⟩⟩
        · refine ⟨fault, c :: spelling, left, rfl, hstuck, rfl, fun whole => ⟨[token], ?_⟩⟩
          rw [scanFrom_of_take hblank hspelling, scanFrom]
          rfl
      | ok taken =>
        obtain ⟨token, tail⟩ := taken
        rw [scanFrom_of_take hblank htake] at h
        have hlt := length_lt_of_take htake
        obtain ⟨spelling, hspelling, hcut⟩ := take_cut htake
        obtain ⟨fault, front, left, rfl, hstuck, he, hfront⟩ :=
          stuck_of_scanFrom token.expectsOperand tail (Fallible.map_eq_error_iff.1 h)
        refine ⟨fault, c :: (spelling ++ front), left, ?_, hstuck, he, fun whole => ?_⟩
        · rw [hspelling, List.cons_append, List.append_assoc]
        · obtain ⟨tokens, htokens⟩ := hfront whole
          refine ⟨token :: tokens, ?_⟩
          rw [scanFrom_of_take hblank (hcut front left rfl hstuck.opensNext), htokens]
          rfl
termination_by cs.length
decreasing_by
  · exact hlt
  · exact Nat.lt_succ_self _

/-- **Errors point at what a text is stuck with.**  A text that is not cut into tokens is refused as
a whole for a fault at one of its characters: there it is stuck, and what stands in front of that
character is cut into tokens. -/
theorem stuck_of_scan {text : String} {e : Error} (h : scan text = .error e) :
    ∃ fault position, e = .parse fault text (some ((position : Nat) : Int)) ∧
      position < text.length ∧ Stuck fault (text.toList.drop position) ∧
      ∃ tokens, scan (String.ofList (text.toList.take position)) = .ok tokens := by
  obtain ⟨fault, front, left, hsplit, hstuck, rfl, hfront⟩ := stuck_of_scanFrom true text.toList h
  have hlength : text.length = front.length + left.length := by
    rw [← String.length_toList, hsplit, List.length_append]
  have hposition : text.length - left.length = front.length := by omega
  have hleft := List.length_pos_iff.2 hstuck.ne_nil
  refine ⟨fault, front.length, by rw [hposition], by omega, ?_, ?_⟩
  · rwa [hsplit, List.drop_left]
  · rw [hsplit, List.take_left, scan, String.toList_ofList]
    exact hfront _

/-- `max (a, min[m`: the bracket is never closed.  In front of it stands the name of a function that
is not called, there as well as at the end of a text. -/
theorem stuck_open_bracket :
    scan "max (a, min[m" = .error (.parse .unclosedBracket "max (a, min[m" (some 11)) ∧
      11 < "max (a, min[m".length ∧ Stuck .unclosedBracket "[m".toList ∧
      ∃ tokens, scan "max (a, min" = .ok tokens := by
  have hscan : scan "max (a, min[m" =
      .error (.parse .unclosedBracket "max (a, min[m" (some 11)) := by cbv
  obtain ⟨fault, position, heq, hlt, hstuck, htokens⟩ := stuck_of_scan hscan
  cases heq
  exact ⟨hscan, hlt, hstuck, htokens⟩

end Dimensional.Formula.Token
