import Dimensional.Proofs.Dimension.Whole
import Dimensional.Proofs.MeasureUnit.Blanks
import Dimensional.Proofs.MeasureUnit.Factors

/-!
# Printed dimensions are read back

The text of a dimension with whole exponents spells a quotient of products of base units
(`prints_quotient`), in characters that no respelling changes (`Spelling.normalize_of_isGraphic`).

Main statement: `parse_unitText` — it is parsed into the unit with the scale one and that dimension.
-/

namespace Dimensional.MeasureUnit

open Decimal Exponents

/-! ### Digits -/

theorem toNat_of_isDigit {c : Char} (h : c.isDigit = true) : 48 ≤ c.toNat ∧ c.toNat ≤ 57 := by
  simpa [Char.isDigit, UInt32.le_iff_toNat_le] using h

theorem decimalDigit?_of_isDigit {c : Char} (h : c.isDigit = true) :
    Character.decimalDigit? c = some (c.toNat - 48) := by
  obtain ⟨hlower, hupper⟩ := toNat_of_isDigit h
  show (if c.toNat < 0x30 then none else
    if c.toNat < 0x30 + 10 then some (c.toNat - 0x30) else _) = _
  rw [if_neg (by omega), if_pos (by omega)]

theorem foldl_placeValues {cs : List Char} (h : ∀ c ∈ cs, c.isDigit = true) (value : Nat) :
    (cs.filterMap Character.decimalDigit?).foldl (10 * · + ·) value =
      Nat.ofDigitChars 10 cs value := by
  induction cs generalizing value with
  | nil => rfl
  | cons c cs ih =>
    obtain ⟨hc, hcs⟩ := List.forall_mem_cons.1 h
    rw [List.filterMap_cons, decimalDigit?_of_isDigit hc, Nat.ofDigitChars_cons]
    exact ih hcs _

theorem isDigit_of_mem_toDigits {n : Nat} {c : Char} (h : c ∈ Nat.toDigits 10 n) :
    c.isDigit = true :=
  Nat.isDigit_of_mem_toDigits (by decide) (by decide) h

theorem ofPlaceValues_toDigits (n : Nat) :
    ofPlaceValues ((Nat.toDigits 10 n).filterMap Character.decimalDigit?) = n := by
  rw [ofPlaceValues, foldl_placeValues fun _ => isDigit_of_mem_toDigits]
  exact Nat.ofDigitChars_ten_toDigits

/-- The digits of a natural number are read as the float of that number. -/
theorem toFloat_numeral {n : Nat} (hpos : 0 < n) (hn : n ≤ 9007199254740992) :
    (Token.numeral false (Nat.toDigits 10 n) []).toFloat = Float.ofNat n := by
  have hcount : digitCount n ≤ 16 := (Nat.length_toDigits_le_iff (by decide) (by decide)).2 <| by
    show n < 10000000000000000
    omega
  show nearestFloat (ofPlaceValues ((Nat.toDigits 10 n ++ []).filterMap _)) 0 = _
  rw [List.append_nil, ofPlaceValues_toDigits, nearestFloat, if_neg (Nat.ne_of_gt hpos)]
  simp only
  rw [if_neg (by omega), if_neg (by omega)]
  rfl

/-! ### Characters that stay

Everything that is printed is among the visible characters of the first 128.  No blank is one of
them, nor any variant of the sign for a product, nor a localized word. -/

/-- Is this a visible character of the first 128? -/
def IsGraphic (c : Char) : Prop := 0x21 ≤ c.toNat ∧ c.toNat ≤ 0x7e

instance (c : Char) : Decidable (IsGraphic c) := inferInstanceAs (Decidable (_ ∧ _))

namespace Spelling

theorem not_isBlank_of_isGraphic {c : Char} (h : IsGraphic c) : Character.isBlank c = false := by
  obtain ⟨hlower, hupper⟩ := h
  have hspace : Character.spaces.contains c.toNat = false := by
    simp [Character.spaces, Intervals.contains]
    omega
  have hseparator : ¬c.toNat ≤ 0x1f := by omega
  simp [Character.isBlank, Character.isSpace, hspace, hseparator]

theorem plainProduct_of_isGraphic {c : Char} (h : IsGraphic c) : plainProduct c = c := by
  apply if_neg
  rintro (rfl | rfl)
  · exact absurd h (by decide)
  · exact absurd h (by decide)

theorem symbolFor_of_isGraphic {c : Char} (h : IsGraphic c) : symbolFor c = [c] := by
  unfold symbolFor
  split
  · exact absurd h (by decide)
  · exact absurd h (by decide)
  · exact absurd h (by decide)
  · exact absurd h (by decide)
  · exact absurd h (by decide)
  · rfl

/-- Visible characters of the first 128 are never respelled. -/
theorem normalize_of_isGraphic {cs : List Char} (h : ∀ c ∈ cs, IsGraphic c) :
    normalize cs = cs := by
  have hplain : cs.map plainProduct = cs.map id :=
    List.map_congr_left fun c hc => plainProduct_of_isGraphic (h c hc)
  rw [normalize_of_no_blank fun c hc => not_isBlank_of_isGraphic (h c hc), hplain, List.map_id]
  clear hplain
  induction cs with
  | nil => rfl
  | cons c cs ih =>
    obtain ⟨hc, hcs⟩ := List.forall_mem_cons.1 h
    have hhour : c = '小' → cs.head? ≠ some '时' := by
      rintro rfl
      exact absurd hc (by decide)
    rw [localWords_cons hhour, symbolFor_of_isGraphic hc, ih hcs]
    rfl

end Spelling

theorem isGraphic_of_isDigit {c : Char} (h : c.isDigit = true) : IsGraphic c := by
  obtain ⟨hlower, hupper⟩ := toNat_of_isDigit h
  constructor
  · omega
  · omega

/-! ### Printed texts

Spelling is said of characters in front of what follows, since a name or a number has to end
where the next lexeme starts.  So the texts are built up from their ends. -/

/-- The characters spell the lexemes, and no character would be respelled. -/
def Prints (lexemes : List Lexeme) (cs : List Char) : Prop :=
  (∀ place, Token.Spells place lexemes cs) ∧ ∀ c ∈ cs, IsGraphic c

namespace Prints

variable {lexemes : List Lexeme} {cs : List Char}

theorem nil : Prints [] [] := ⟨fun _ => .nil, List.forall_mem_nil _⟩

theorem mark (h : Prints lexemes cs) {c : Char} {lexeme : Lexeme}
    (hmark : Token.mark? c = some lexeme) (hc : IsGraphic c) :
    Prints (lexeme :: lexemes) (c :: cs) :=
  ⟨fun _ => .mark hmark (h.1 _), List.forall_mem_cons.2 ⟨hc, h.2⟩⟩

theorem name (h : Prints lexemes cs) {s : String} (hs : s ∈ baseUnits) :
    Prints (.name s :: lexemes) (s.toList ++ cs) := by
  have hall : baseUnits.all (fun s => !s.toList.isEmpty &&
      s.toList.all fun c => Token.isNameChar c && decide (IsGraphic c)) = true := by
    decide
  have hsymbol := List.all_eq_true.1 hall s hs
  obtain ⟨hne, hchars⟩ : s.toList ≠ [] ∧
      ∀ c ∈ s.toList, Token.isNameChar c = true ∧ IsGraphic c := by
    simpa using hsymbol
  constructor
  · intro place
    have hname : Token.IsName s.toList := ⟨hne, fun c hc => (hchars c hc).1⟩
    have hspells := @Token.Spells.name place s.toList cs lexemes hname (h.1 _)
    rw [String.ofList_toList] at hspells
    exact hspells
  · exact List.forall_mem_append.2 ⟨fun c hc => (hchars c hc).2, h.2⟩

theorem number (h : Prints lexemes cs) {n : Nat} (hpos : 0 < n) (hn : n ≤ 9007199254740992) :
    Prints (.number (Float.ofNat n) :: lexemes) ((natural n).toList ++ cs) := by
  rw [natural, String.toList_ofList]
  constructor
  · intro place
    have hdigits : ∀ c ∈ Nat.toDigits 10 n, Character.isDecimalDigit c = true := by
      intro c hc
      rw [Character.isDecimalDigit, decimalDigit?_of_isDigit (isDigit_of_mem_toDigits hc)]
      rfl
    have hnumber := @Token.SpellsNumber.whole false _ Nat.toDigits_ne_nil hdigits
    rw [toFloat_numeral hpos hn] at hnumber
    exact .number hnumber (h.1 _)
  · have hdigits : ∀ c ∈ Nat.toDigits 10 n, IsGraphic c := fun c hc =>
      isGraphic_of_isDigit (isDigit_of_mem_toDigits hc)
    exact List.forall_mem_append.2 ⟨hdigits, h.2⟩

end Prints

/-- A factor that can be written: a base unit with an exponent that is not zero and whose digits are
read exactly. -/
structure Writable (exponent : String → Nat) (s : String) : Prop where
  mem : s ∈ baseUnits
  pos : 0 < exponent s
  le : exponent s ≤ 9007199254740992

def productText (factors : List String) : String :=
  if factors.isEmpty then "1" else "*".intercalate factors

theorem quotientText_cons_cons (above : List String) (first second : String)
    (factors : List String) :
    quotientText above (first :: second :: factors) =
      productText above ++ "/(" ++ productText (first :: second :: factors) ++ ")" := rfl

section

variable {exponent : String → Nat} {lexemes : List Lexeme} {cs : List Char}

/-- A factor in front of what follows.  An exponent of one is neither among the lexemes nor in
the text. -/
theorem prints_factor {s : String} (hs : Writable exponent s) (h : Prints lexemes cs) :
    Prints (factorLexemes exponent s ++ lexemes) ((powerOf s (exponent s)).toList ++ cs) := by
  unfold factorLexemes powerOf
  split
  · exact h.name hs.mem
  · rw [String.toList_append, String.toList_append, List.append_assoc, List.append_assoc]
    exact ((h.number hs.pos hs.le).mark rfl (by decide)).name hs.mem

theorem prints_times {symbols : List String} (hsymbols : ∀ s ∈ symbols, Writable exponent s)
    (h : Prints lexemes cs) :
    Prints (timesLexemes exponent symbols ++ lexemes)
      ((symbols.flatMap fun s => '*' :: (powerOf s (exponent s)).toList) ++ cs) := by
  induction symbols with
  | nil => exact h
  | cons s symbols ih =>
    obtain ⟨hs, hsymbols⟩ := List.forall_mem_cons.1 hsymbols
    have hfactor := prints_factor hs (ih hsymbols)
    rw [timesLexemes, List.flatMap_cons, List.flatMap_cons, List.append_assoc, List.append_assoc]
    exact hfactor.mark rfl (by decide)

/-- The first one of several parts and the others with the sign in front. -/
theorem toList_intercalate_cons (part : String) (parts : List String) :
    ("*".intercalate (part :: parts)).toList =
      part.toList ++ parts.flatMap fun part => '*' :: part.toList := by
  induction parts generalizing part with
  | nil => simp
  | cons next parts ih =>
    have ih := ih next
    rw [String.toList_intercalate] at ih ⊢
    rw [List.map_cons, List.map_cons, List.intercalate_cons_cons, ← List.map_cons, ih]
    simp

theorem prints_product {symbols : List String} (hsymbols : ∀ s ∈ symbols, Writable exponent s)
    (h : Prints lexemes cs) :
    Prints (productLexemes exponent symbols ++ lexemes)
      ((productText (symbols.map fun s => powerOf s (exponent s))).toList ++ cs) := by
  cases symbols with
  | nil => exact h.number Nat.one_pos (by decide)
  | cons s symbols =>
    obtain ⟨hs, hsymbols⟩ := List.forall_mem_cons.1 hsymbols
    have hproduct := prints_factor hs (prints_times hsymbols h)
    rw [productText, if_neg (by simp), List.map_cons, toList_intercalate_cons, List.flatMap_map,
      productLexemes, List.append_assoc, List.append_assoc]
    exact hproduct

/-- The text of a quotient prints its lexemes. -/
theorem prints_quotient {above below : List String}
    (habove : ∀ s ∈ above, Writable exponent s) (hbelow : ∀ s ∈ below, Writable exponent s) :
    Prints (quotientLexemes exponent above below)
      (quotientText (above.map fun s => powerOf s (exponent s))
        (below.map fun s => powerOf s (exponent s))).toList := by
  match below with
  | [] =>
    have hproduct := prints_product habove .nil
    rw [List.append_nil, List.append_nil] at hproduct
    exact hproduct
  | [s] =>
    have hfactor := prints_factor (hbelow s List.mem_cons_self) .nil
    rw [List.append_nil, List.append_nil] at hfactor
    have hquotient := prints_product habove (hfactor.mark (c := '/') rfl (by decide))
    show Prints _ (productText _ ++ "/" ++ powerOf s (exponent s)).toList
    rw [String.toList_append, String.toList_append, List.append_assoc]
    exact hquotient
  | s :: t :: symbols =>
    have hclosing : Prints [.closes] [')'] := Prints.nil.mark rfl (by decide)
    have hproduct := prints_product hbelow hclosing
    have hquotient := prints_product habove
      ((hproduct.mark (c := '(') rfl (by decide)).mark (c := '/') rfl (by decide))
    rw [List.map_cons, List.map_cons, quotientText_cons_cons, String.toList_append,
      String.toList_append, String.toList_append, List.append_assoc, List.append_assoc]
    exact hquotient

end

/-! ### What is printed is read back -/

/-- A text of visible characters that spells a tree has that tree. -/
theorem hasTree_of_prints {t : Tree} {lexemes : List Lexeme} {given : String}
    (hwritten : t.Written 0 lexemes) (h : Prints lexemes given.toList) : HasTree given t := by
  obtain ⟨hspells, hgraphic⟩ := h
  unfold HasTree
  rw [Spelling.normalize_of_isGraphic hgraphic, String.ofList_toList]
  obtain ⟨tokens, hscan, rfl⟩ :=
    Token.cutInto_of_spells (hspells .elsewhere) hwritten.apart
      (String.ofList given.toList) 0
  obtain ⟨program, hordered, hpostorder⟩ := Token.toPostfix_lexemes hwritten given
  exact ⟨tokens, program, hscan, hordered, hpostorder⟩

section

variable {exponent : String → Int}

/-- Above the line stand the positive parts of the exponents, and below it the negative ones. -/
theorem exponentIn_above_sub_below {symbols : List String} {s : String} (hs : s ∈ symbols) :
    (exponentIn (fun s => (exponent s).natAbs) (above exponent symbols) s : Int) -
      exponentIn (fun s => (exponent s).natAbs) (below exponent symbols) s = exponent s := by
  simp only [exponentIn, mem_above_iff, mem_below_iff, hs, true_and]
  split
  · split <;> omega
  · split <;> omega

variable (hle : ∀ s ∈ baseUnits, (exponent s).natAbs ≤ 9007199254740992)

include hle

theorem writable_of_mem {s : String}
    (hs : s ∈ above exponent baseUnits ++ below exponent baseUnits) :
    Writable (fun s => (exponent s).natAbs) s := by
  rcases List.mem_append.1 hs with hs | hs
  · obtain ⟨hmem, hpos⟩ := mem_above_iff.1 hs
    exact ⟨hmem, Int.natAbs_pos.2 (Int.ne_of_gt hpos), hle s hmem⟩
  · obtain ⟨hmem, hneg⟩ := mem_below_iff.1 hs
    exact ⟨hmem, Int.natAbs_pos.2 (Int.ne_of_lt hneg), hle s hmem⟩

/-- The quotient of the factors of integers is parsed into the unit with these exponents. -/
theorem parse_quotientText {text : String}
    (htext : text = quotientText
      ((above exponent baseUnits).map fun s => powerOf s (exponent s).natAbs)
      ((below exponent baseUnits).map fun s => powerOf s (exponent s).natAbs)) :
    parse text = .ok ⟨1.0, ofSymbols fun s => Float.ofInt (exponent s), text⟩ := by
  have hwritable := @writable_of_mem _ hle
  obtain ⟨habove, hbelow⟩ := List.forall_mem_append.1 @hwritable
  have hprints := prints_quotient habove hbelow
  rw [← htext] at hprints
  have hgives := gives_quotient hle (nodup_above_below (by decide)) fun s hs => (hwritable hs).mem
  obtain ⟨operand, _, heval, hunit⟩ := hgives.congr fun s hs =>
    congrArg Float.ofInt (exponentIn_above_sub_below hs)
  have husable : isUsableScale 1.0 = true := by decide +kernel
  rw [ComesTo.parse ⟨_, hasTree_of_prints (written_quotient _ _) hprints, heval⟩ hunit]
  exact if_pos husable

end

/-- Whole numbers that stand at different symbols are a function of the symbol. -/
theorem exists_exponent {axes : List (String × Float)} (hnodup : (axes.map Prod.fst).Nodup)
    (h : ∀ axis ∈ axes, ∃ k, IsInt axis.2 k) :
    ∃ exponent : String → Int, ∀ axis ∈ axes, IsInt axis.2 (exponent axis.1) := by
  induction axes with
  | nil => exact ⟨fun _ => 0, List.forall_mem_nil _⟩
  | cons axis axes ih =>
    obtain ⟨⟨k, hk⟩, hrest⟩ := List.forall_mem_cons.1 h
    obtain ⟨hfresh, hnodup⟩ := List.nodup_cons.1 hnodup
    obtain ⟨exponent, hexponent⟩ := ih hnodup hrest
    refine ⟨fun s => if s = axis.1 then k else exponent s, List.forall_mem_cons.2 ⟨?_, ?_⟩⟩
    · show IsInt axis.2 (if axis.1 = axis.1 then k else _)
      rw [if_pos rfl]
      exact hk
    · intro other hother
      -- The symbols behind the first one differ from it, so they keep their integers.
      have hne : other.1 ≠ axis.1 := by
        intro heq
        exact hfresh (heq ▸ List.mem_map_of_mem hother)
      show IsInt other.2 (if other.1 = axis.1 then k else _)
      rw [if_neg hne]
      exact hexponent other hother

/-- Lists of floats are equal place by place.  Zeros of either sign are, which is why the
exponents come back equal and not the same. -/
theorem map_beq_map {α : Type} {f g : α → Float} {as : List α}
    (h : ∀ a ∈ as, (f a == g a) = true) : (as.map f == as.map g) = true := by
  induction as with
  | nil => rfl
  | cons a as ih =>
    obtain ⟨ha, has⟩ := List.forall_mem_cons.1 h
    show (f a == g a && as.map f == as.map g) = true
    rw [ha, ih has]
    rfl

/-- **A dimension is read back from its text**: where all exponents are whole numbers of at most
`2 ^ 53`, the dimension has a text, and the text is parsed into the unit with the scale one and with
equal exponents. -/
theorem parse_unitText {d : Dimension}
    (h : ∀ x ∈ d.exponents, Power.isWhole x = true ∧ x.abs ≤ 9007199254740992) :
    ∃ text u, d.unitText = .ok text ∧ parse text = .ok u ∧ u.scale = 1.0 ∧
      (u.dims.exponents == d.exponents) = true := by
  have hsymbols : (baseUnits.zip d.exponents).map Prod.fst = baseUnits :=
    List.map_fst_zip (Nat.le_of_eq d.length_eq.symm)
  have hexponents : (baseUnits.zip d.exponents).map Prod.snd = d.exponents :=
    List.map_snd_zip (Nat.le_of_eq d.length_eq)
  have hnodup : baseUnits.Nodup := by decide
  rw [Dimension.unitText, Exponents.unitText]
  generalize baseUnits.zip d.exponents = axes at hsymbols hexponents
  rw [← hexponents] at h ⊢
  -- The exponents as integers, each at its symbol.
  obtain ⟨exponent, hexponent⟩ := exists_exponent (hsymbols ▸ hnodup) fun axis haxis =>
    exists_isInt (h axis.2 (List.mem_map_of_mem haxis)).1 (h axis.2 (List.mem_map_of_mem haxis)).2
  have hle : ∀ s ∈ baseUnits, (exponent s).natAbs ≤ 9007199254740992 := by
    intro s hs
    rw [← hsymbols] at hs
    obtain ⟨axis, haxis, rfl⟩ := List.mem_map.1 hs
    exact (hexponent axis haxis).natAbs_le
  rw [factors_of_isInt hexponent, hsymbols]
  refine ⟨_, _, rfl, parse_quotientText hle rfl, rfl, ?_⟩
  show (baseUnits.map (fun s => Float.ofInt (exponent s)) == _) = true
  rw [← hsymbols, List.map_map]
  exact map_beq_map fun axis haxis => (hexponent axis haxis).beq

/-- Ones and zeros are left out, and what is below zero stands below the line. -/
theorem parse_unitText_mixed :
    ∃ u, unitText [1, -1, -2, 0, -0.0, 3, 0, 12] = .ok "kg*A^3*USD^12/(m*s^2)" ∧
      parse "kg*A^3*USD^12/(m*s^2)" = .ok u ∧ u.scale = 1.0 ∧
      (u.dims.exponents == [1, -1, -2, 0, -0.0, 3, 0, 12]) = true := by
  have hwhole : ∀ x ∈ ([1, -1, -2, 0, -0.0, 3, 0, 12] : List Float),
      Power.isWhole x = true ∧ x.abs ≤ 9007199254740992 := by
    decide +kernel
  have htext : unitText [1, -1, -2, 0, -0.0, 3, 0, 12] = .ok "kg*A^3*USD^12/(m*s^2)" := by rfl
  obtain ⟨text, u, hprinted, hparse, hscale, hdims⟩ :=
    @parse_unitText ⟨[1, -1, -2, 0, -0.0, 3, 0, 12], rfl⟩ hwhole
  have heq : text = "kg*A^3*USD^12/(m*s^2)" := Except.ok.inj (hprinted.symm.trans htext)
  rw [heq] at hparse
  exact ⟨u, htext, hparse, hscale, hdims⟩

end Dimensional.MeasureUnit
