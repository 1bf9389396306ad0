import Dimensional.Proofs.MeasureUnit.Sentence

/-!
# Blanks in unit texts

Blanks in a text of a unit mean nothing at its ends, next to an operator, and just inside a
parenthesis (`Spelling.MeanNothing`); everywhere else a run of blanks means a product.  `joinWords`
goes by the character before a run and the one behind it, so that it is enough to know where it
stands when it gets there (`exists_joinWords_append`).

Main statement: `blanks_mean_nothing_or_product`.
-/

namespace Dimensional.MeasureUnit

namespace Spelling

instance (cs : List Char) : Decidable (IsBlankText cs) :=
  decidable_of_iff (cs.all Character.isBlank = true) List.all_eq_true

/-! ### Localized words

Respelling goes character by character but for one word of two.  The symbols that it puts in are
made of letters that are never respelled, so doing it twice changes nothing. -/

/-- The symbol in the place of a localized character; other characters stay. -/
def symbolFor : Char → List Char
  | '年' => ['y', 'e', 'a', 'r']
  | '天' => ['d', 'a', 'y']
  | '吨' => ['t', 'o', 'n']
  | 'μ' | 'µ' => ['u']
  | c => [c]

def symbolChars : List Char := ['h', 'y', 'e', 'a', 'r', 'd', 't', 'o', 'n', 'u']

theorem symbolFor_cases (c : Char) :
    (symbolFor c ≠ [] ∧ ∀ d ∈ symbolFor c, d ∈ symbolChars) ∨ symbolFor c = [c] := by
  unfold symbolFor
  split
  · exact .inl (by simp [symbolChars])
  · exact .inl (by simp [symbolChars])
  · exact .inl (by simp [symbolChars])
  · exact .inl (by simp [symbolChars])
  · exact .inl (by simp [symbolChars])
  · exact .inr rfl

/-- But for the one word of two characters, texts are respelled character by character. -/
theorem localWords_cons {c : Char} {rest : List Char} (h : c = '小' → rest.head? ≠ some '时') :
    localWords (c :: rest) = symbolFor c ++ localWords rest := by
  rw [localWords.eq_def]
  split
  · next heq => cases heq
  · next tail heq =>
    obtain ⟨rfl, rfl⟩ := List.cons.inj heq
    exact absurd rfl (h rfl)
  · next heq =>
    obtain ⟨rfl, rfl⟩ := List.cons.inj heq
    rfl

theorem localWords_hour (rest : List Char) :
    localWords ('小' :: '时' :: rest) = 'h' :: localWords rest := rfl

/-- A text is empty, or it starts with the word of two characters, or with another character.
This is the recursion of `localWords`, with what its last case knows said as a hypothesis. -/
theorem localWords_induction {P : List Char → Prop} (nil : P [])
    (hour : ∀ rest, P rest → P ('小' :: '时' :: rest))
    (char : ∀ c rest, (c = '小' → rest.head? ≠ some '时') → P rest → P (c :: rest))
    (cs : List Char) : P cs := by
  fun_induction localWords cs with
  | case1 => exact nil
  | case2 rest ih => exact hour rest ih
  | case3 c rest hhour word ih =>
    refine char c rest (fun hc hhead => ?_) ih
    obtain ⟨_, hrest⟩ := List.head?_eq_some_iff.1 hhead
    exact hhour _ hc hrest

theorem mem_of_localWords {c : Char} {cs : List Char} (h : c ∈ localWords cs) :
    c ∈ symbolChars ∨ c ∈ cs := by
  induction cs using localWords_induction with
  | nil => cases h
  | hour rest ih =>
    rw [localWords_hour] at h
    rcases List.mem_cons.1 h with rfl | h
    · exact .inl (by decide)
    · exact (ih h).imp_right fun hmem => List.mem_cons_of_mem _ (List.mem_cons_of_mem _ hmem)
  | char d rest hne ih =>
    rw [localWords_cons hne] at h
    rcases List.mem_append.1 h with h | h
    · rcases symbolFor_cases d with ⟨_, hsymbol⟩ | hsame
      · exact .inl (hsymbol c h)
      · rw [hsame, List.mem_singleton] at h
        exact .inr (h ▸ List.mem_cons_self)
    · exact (ih h).imp_right (List.mem_cons_of_mem _)

/-- Symbols stay as they are. -/
theorem localWords_append_symbol {symbol : List Char} (h : ∀ c ∈ symbol, c ∈ symbolChars)
    (rest : List Char) : localWords (symbol ++ rest) = symbol ++ localWords rest := by
  have hplain : ∀ c ∈ symbolChars, c ≠ '小' ∧ symbolFor c = [c] := by
    simp [symbolChars, symbolFor]
  induction symbol with
  | nil => rfl
  | cons c symbol ih =>
    obtain ⟨hne, hsame⟩ := hplain c (h c List.mem_cons_self)
    rw [List.cons_append, localWords_cons fun hc => absurd hc hne, hsame,
      ih fun d hd => h d (List.mem_cons_of_mem _ hd)]
    rfl

/-- What is respelled does not make up a word with what stands before it. -/
theorem head?_of_localWords {cs : List Char} (h : (localWords cs).head? = some '时') :
    cs.head? = some '时' := by
  induction cs using localWords_induction with
  | nil => exact h
  | hour rest => exact absurd (Option.some.inj h) (by decide)
  | char c rest hne =>
    rw [localWords_cons hne] at h
    rcases symbolFor_cases c with ⟨hnonempty, hsymbol⟩ | hsame
    · obtain ⟨d, symbol, hd⟩ := List.exists_cons_of_ne_nil hnonempty
      rw [hd] at h hsymbol
      have hmem := hsymbol d List.mem_cons_self
      rw [Option.some.inj h] at hmem
      exact absurd hmem (by decide)
    · rw [hsame] at h
      exact h

/-- A word is respelled once and for all. -/
theorem localWords_localWords (cs : List Char) : localWords (localWords cs) = localWords cs := by
  induction cs using localWords_induction with
  | nil => rfl
  | hour rest ih =>
    have hsymbol := @localWords_append_symbol ['h'] (by simp [symbolChars]) (localWords rest)
    rw [localWords_hour]
    rw [ih] at hsymbol
    exact hsymbol
  | char c rest hne ih =>
    rw [localWords_cons hne]
    rcases symbolFor_cases c with ⟨_, hsymbol⟩ | hsame
    · rw [localWords_append_symbol hsymbol, ih]
    · have hne' : c = '小' → (localWords rest).head? ≠ some '时' := fun hc hhead =>
        hne hc (head?_of_localWords hhead)
      rw [hsame, List.singleton_append, localWords_cons hne', hsame, ih]
      rfl

/-! ### Normal spellings -/

/-- Joining words keeps characters that are no blanks, and puts in signs for products. -/
theorem mem_of_joinWords {last c : Char} {gap : Bool} {cs : List Char}
    (h : c ∈ joinWords last gap cs) : c = '*' ∨ c ∈ cs ∧ Character.isBlank c = false := by
  induction cs generalizing last gap with
  | nil => cases h
  | cons d rest ih =>
    have hrest : ∀ {last gap}, c ∈ joinWords last gap rest →
        c = '*' ∨ c ∈ d :: rest ∧ Character.isBlank c = false := fun h =>
      (ih h).imp_right fun ⟨hmem, hblank⟩ => ⟨List.mem_cons_of_mem _ hmem, hblank⟩
    rw [joinWords] at h
    split at h
    · exact hrest h
    · next hd =>
      have hkept : c ∈ d :: joinWords d false rest →
          c = '*' ∨ c ∈ d :: rest ∧ Character.isBlank c = false := by
        intro h
        rcases List.mem_cons.1 h with rfl | h
        · exact .inr ⟨List.mem_cons_self, Bool.eq_false_iff.2 hd⟩
        · exact hrest h
      split at h
      · rcases List.mem_cons.1 h with rfl | h
        · exact .inl rfl
        · exact hkept h
      · exact hkept h

/-- A character of a normal spelling is no blank, and no variant of the sign for a product. -/
theorem plain_of_mem_normalize {c : Char} {cs : List Char} (h : c ∈ normalize cs) :
    Character.isBlank c = false ∧ plainProduct c = c := by
  have hsymbols : ∀ c ∈ symbolChars, Character.isBlank c = false ∧ plainProduct c = c := by
    have hall : symbolChars.all (fun c => !Character.isBlank c && plainProduct c == c) = true := by
      decide
    simpa using hall
  rcases mem_of_localWords h with hsymbol | hjoined
  · exact hsymbols c hsymbol
  · rcases mem_of_joinWords hjoined with rfl | ⟨hmem, hblank⟩
    · decide
    · obtain ⟨d, _, rfl⟩ := List.mem_map.1 hmem
      refine ⟨hblank, ?_⟩
      unfold plainProduct
      split
      · rfl
      · rfl

/-- A normal spelling is its own normal spelling. -/
theorem normalize_normalize (cs : List Char) : normalize (normalize cs) = normalize cs := by
  rw [normalize_of_no_blank fun c hc => (plain_of_mem_normalize hc).1]
  have hplain : (normalize cs).map plainProduct = (normalize cs).map id :=
    List.map_congr_left fun c hc => (plain_of_mem_normalize hc).2
  rw [hplain, List.map_id, normalize, localWords_localWords]

/-! ### Where blanks mean nothing

What `joinWords` does with a run hangs on the character before it and the one behind it.  The
former it carries along, and the latter it meets next. -/

/-- The signs for operators, with the variants for a product. -/
def operatorSigns : List Char := ['*', '/', '^', '·', '×']

/-- Blanks between these two parts of a text mean nothing: they stand at an end of the text, next
to an operator, or just inside a parenthesis. -/
def MeanNothing (before behind : List Char) : Prop :=
  before = [] ∨ behind = [] ∨
    (∃ c ∈ before.getLast?, c ∈ operatorSigns ∨ c = '(') ∨
    ∃ c ∈ behind.head?, c ∈ operatorSigns ∨ c = ')'

/-- `joinWords` at the end of a first part: what it has written, and where it stands. -/
theorem exists_joinWords_append (last : Char) (gap : Bool) (before : List Char) :
    ∃ written last' gap', ∀ behind,
      joinWords last gap (before ++ behind) = written ++ joinWords last' gap' behind := by
  induction before generalizing last gap with
  | nil => exact ⟨[], last, gap, fun _ => rfl⟩
  | cons c rest ih =>
    by_cases hc : Character.isBlank c = true
    · obtain ⟨written, last', gap', h⟩ := ih last true
      refine ⟨written, last', gap', fun behind => ?_⟩
      rw [List.cons_append, joinWords, if_pos hc, h]
    · obtain ⟨written, last', gap', h⟩ := ih c false
      refine ⟨(if gap && !absorbsAfter last && !absorbsBefore c then ['*', c] else [c]) ++ written,
        last', gap', fun behind => ?_⟩
      rw [List.cons_append, joinWords, if_neg hc, h]
      split <;> rfl

/-- Behind a character that is no blank, `joinWords` stands at that character. -/
theorem exists_joinWords_concat {c : Char} (hc : Character.isBlank c = false) (last : Char)
    (gap : Bool) (before : List Char) :
    ∃ written, ∀ behind,
      joinWords last gap (before ++ c :: behind) = written ++ joinWords c false behind := by
  obtain ⟨written, last', gap', h⟩ := exists_joinWords_append last gap before
  refine ⟨written ++ (if gap' && !absorbsAfter last' && !absorbsBefore c then ['*', c] else [c]),
    fun behind => ?_⟩
  rw [h, joinWords, if_neg (by simp [hc])]
  split <;> simp

theorem joinWords_blanks {blanks : List Char} (h : IsBlankText blanks) (last : Char) (gap : Bool)
    (behind : List Char) :
    joinWords last gap (blanks ++ behind) = joinWords last (gap || !blanks.isEmpty) behind := by
  induction blanks generalizing gap with
  | nil => simp
  | cons c rest ih =>
    rw [List.cons_append, joinWords, if_pos (h c List.mem_cons_self),
      ih fun d hd => h d (List.mem_cons_of_mem _ hd)]
    simp

/-- Behind a character that absorbs blanks it does not matter whether there are some. -/
theorem joinWords_gap_of_absorbsAfter {last : Char} (h : absorbsAfter last = true) (gap : Bool)
    (behind : List Char) : joinWords last gap behind = joinWords last false behind := by
  induction behind generalizing gap with
  | nil => rfl
  | cons c rest ih =>
    rw [joinWords, joinWords, h]
    simp

/-- Nor does it matter in front of such a character. -/
theorem joinWords_gap_of_absorbsBefore {c : Char} (hc : Character.isBlank c = false)
    (h : absorbsBefore c = true) (last : Char) (gap : Bool) (rest : List Char) :
    joinWords last gap (c :: rest) = joinWords last false (c :: rest) := by
  rw [joinWords, joinWords, h, hc]
  simp

theorem absorbsAfter_plainProduct_iff {c : Char} :
    absorbsAfter (plainProduct c) = true ↔ c ∈ operatorSigns ∨ c = '(' := by
  unfold plainProduct
  split
  · next hc => rcases hc with rfl | rfl <;> decide
  · next hc =>
    simp only [absorbsAfter, operatorSigns, Bool.or_eq_true, decide_eq_true_eq, List.mem_cons,
      List.not_mem_nil, or_false]
    grind

theorem absorbsBefore_plainProduct_iff {c : Char} :
    absorbsBefore (plainProduct c) = true ↔ c ∈ operatorSigns ∨ c = ')' := by
  unfold plainProduct
  split
  · next hc => rcases hc with rfl | rfl <;> decide
  · next hc =>
    simp only [absorbsBefore, operatorSigns, Bool.or_eq_true, decide_eq_true_eq, List.mem_cons,
      List.not_mem_nil, or_false]
    grind

/-- Signs are no blanks. -/
theorem isBlank_eq_false_of_absorbs {c : Char}
    (h : absorbsAfter c = true ∨ absorbsBefore c = true) : Character.isBlank c = false := by
  simp only [absorbsAfter, absorbsBefore, Bool.or_eq_true, decide_eq_true_eq] at h
  rcases h with (((rfl | rfl) | rfl) | rfl) | (((rfl | rfl) | rfl) | rfl) <;> decide

theorem isBlankText_map_plainProduct {blanks : List Char} (h : IsBlankText blanks) :
    IsBlankText (blanks.map plainProduct) := by
  intro c hc
  obtain ⟨d, hd, rfl⟩ := List.mem_map.1 hc
  rw [isBlank_plainProduct]
  exact h d hd

/-- **Blanks that mean nothing** can be put into a text.  Only `joinWords` could take notice, and
behind such blanks it goes on as it would without them. -/
theorem normalize_insert {before blanks behind : List Char} (hblanks : IsBlankText blanks)
    (h : MeanNothing before behind) :
    normalize (before ++ (blanks ++ behind)) = normalize (before ++ behind) := by
  have hplain := isBlankText_map_plainProduct hblanks
  unfold normalize
  rw [List.map_append, List.map_append, List.map_append]
  congr 1
  -- At the start of the text, at its end, behind a sign, and in front of one.
  rcases h with rfl | rfl | ⟨c, hlast, hc⟩ | ⟨c, hhead, hc⟩
  · have hopens : absorbsAfter '(' = true := rfl
    rw [List.map_nil, List.nil_append, joinWords_blanks hplain,
      joinWords_gap_of_absorbsAfter hopens]
    rfl
  · obtain ⟨written, last, gap, happend⟩ :=
      exists_joinWords_append '(' false (before.map plainProduct)
    rw [happend, happend, joinWords_blanks hplain]
    rfl
  · obtain ⟨front, rfl⟩ := List.getLast?_eq_some_iff.1 hlast
    have hafter := absorbsAfter_plainProduct_iff.2 hc
    obtain ⟨written, happend⟩ :=
      exists_joinWords_concat (isBlank_eq_false_of_absorbs (.inl hafter)) '(' false
        (front.map plainProduct)
    rw [List.map_append, List.map_cons, List.map_nil, List.append_assoc, List.append_assoc,
      List.singleton_append, List.singleton_append, happend, happend, joinWords_blanks hplain,
      joinWords_gap_of_absorbsAfter hafter]
  · obtain ⟨rest, rfl⟩ := List.head?_eq_some_iff.1 hhead
    have hbefore := absorbsBefore_plainProduct_iff.2 hc
    have hblank := isBlank_eq_false_of_absorbs (.inr hbefore)
    obtain ⟨written, last, gap, happend⟩ :=
      exists_joinWords_append '(' false (before.map plainProduct)
    rw [happend, happend, joinWords_blanks hplain, List.map_cons,
      joinWords_gap_of_absorbsBefore hblank hbefore,
      joinWords_gap_of_absorbsBefore hblank hbefore _ gap]

/-- Between characters that absorb no blanks, blanks are joined as the sign for a product is.
The sign absorbs blanks itself, so there is no second one. -/
theorem joinWords_product {last c : Char} {blanks : List Char} (hblanks : IsBlankText blanks)
    (hne : blanks ≠ []) (hlast : absorbsAfter last = false) (hc : Character.isBlank c = false)
    (hbefore : absorbsBefore c = false) (rest : List Char) :
    joinWords last false ('*' :: c :: rest) = joinWords last false (blanks ++ c :: rest) := by
  have hgap : (false || !blanks.isEmpty) = true := by simp [hne]
  have hstar : Character.isBlank '*' = false := by decide
  rw [joinWords_blanks hblanks, hgap]
  simp [joinWords, hc, hstar, hlast, hbefore]

/-- **Blanks that mean a product** can be replaced by its sign.  The run of blanks has to be a
whole one, with no further blank on either side. -/
theorem normalize_replace {before blanks behind : List Char} (hblanks : IsBlankText blanks)
    (hne : blanks ≠ []) (hbefore : ∀ c ∈ before.getLast?, Character.isBlank c = false)
    (hbehind : ∀ c ∈ behind.head?, Character.isBlank c = false)
    (h : ¬MeanNothing before behind) :
    normalize (before ++ '*' :: behind) = normalize (before ++ (blanks ++ behind)) := by
  have hplain := isBlankText_map_plainProduct hblanks
  simp only [MeanNothing, not_or] at h
  obtain ⟨hstart, hend, hlast, hhead⟩ := h
  obtain ⟨a, ha⟩ := Option.ne_none_iff_exists'.1 (mt List.getLast?_eq_none_iff.1 hstart)
  obtain ⟨front, rfl⟩ := List.getLast?_eq_some_iff.1 ha
  obtain ⟨b, rest, rfl⟩ := List.exists_cons_of_ne_nil hend
  have hblank_a : Character.isBlank (plainProduct a) = false :=
    (isBlank_plainProduct a).trans (hbefore a ha)
  have hblank_b : Character.isBlank (plainProduct b) = false :=
    (isBlank_plainProduct b).trans (hbehind b rfl)
  have hafter : absorbsAfter (plainProduct a) = false := by
    rw [Bool.eq_false_iff, ne_eq, absorbsAfter_plainProduct_iff]
    exact fun hmem => hlast ⟨a, ha, hmem⟩
  have hbefore' : absorbsBefore (plainProduct b) = false := by
    rw [Bool.eq_false_iff, ne_eq, absorbsBefore_plainProduct_iff]
    exact fun hmem => hhead ⟨b, rfl, hmem⟩
  obtain ⟨written, happend⟩ := exists_joinWords_concat hblank_a '(' false (front.map plainProduct)
  have hproduct := joinWords_product hplain (mt List.map_eq_nil_iff.1 hne) hafter hblank_b hbefore'
    (rest.map plainProduct)
  unfold normalize
  simp only [List.append_assoc, List.singleton_append, List.map_append, List.map_cons, happend]
  rw [← hproduct]
  rfl

end Spelling

/-! ### Reading -/

/-- What is read off a result of parsing: the scale and the dimension, or the kind of the error. -/
def readOff (result : Except Error MeasureUnit) : Except ErrorKind (Float × Dimension) :=
  (byKind result).map fun unit => (unit.scale, unit.dims)

def reading (given : String) : Except ErrorKind (Float × Dimension) := readOff (parse given)

/-- The text as it was given is kept for messages only. -/
theorem readOff_ofStack (given given' normal : String) (stack : List Operand) :
    readOff (ofStack given normal stack) = readOff (ofStack given' normal stack) := by
  obtain _ | ⟨operand, _ | ⟨other, rest⟩⟩ := stack
  · rfl
  · rw [ofStack, ofStack]
    cases operand.toUnit with
    | error e => rfl
    | ok unit =>
      show readOff (if isUsableScale unit.scale then _ else _) =
        readOff (if isUsableScale unit.scale then _ else _)
      split
      · rfl
      · rfl
  · rfl

/-- What a text comes to hangs on its normal spelling alone.  The text as given is looked at no
more, but to be kept in the unit and shown in faults. -/
theorem reading_congr {given given' : String}
    (h : Spelling.normalize given.toList = Spelling.normalize given'.toList) :
    reading given = reading given' := by
  unfold reading parse
  rw [h]
  generalize Spelling.normalize given'.toList = normal
  simp only
  split
  · rfl
  · cases Token.scan normal with
    | error e => rfl
    | ok tokens =>
      show readOff (Token.toPostfix _ tokens >>= _) = readOff (Token.toPostfix _ tokens >>= _)
      cases Token.toPostfix (String.ofList normal) tokens with
      | error e => rfl
      | ok program =>
        show readOff (program.foldlM (Operand.step (String.ofList normal)) [] >>= _) =
          readOff (program.foldlM (Operand.step (String.ofList normal)) [] >>= _)
        cases program.foldlM (Operand.step (String.ofList normal)) [] with
        | error e => rfl
        | ok stack => exact readOff_ofStack given given' _ stack

/-- **Blanks in a unit text** mean nothing or a product.  The normal spelling of a text has none and
is its own normal spelling.  Blanks can be put in at the ends of the text, next to operators and
just inside parentheses, and all other runs of blanks can be replaced by `*`: the normal spelling
stays the same, and with it what the text comes to. -/
theorem blanks_mean_nothing_or_product (given : String) :
    (∀ c ∈ Spelling.normalize given.toList, Character.isBlank c = false) ∧
    Spelling.normalize (Spelling.normalize given.toList) = Spelling.normalize given.toList ∧
    (∀ before blanks behind, given.toList = before ++ behind → Spelling.IsBlankText blanks →
      Spelling.MeanNothing before behind →
        Spelling.normalize (before ++ (blanks ++ behind)) = Spelling.normalize given.toList ∧
        reading (String.ofList (before ++ (blanks ++ behind))) = reading given) ∧
    ∀ before blanks behind, given.toList = before ++ (blanks ++ behind) →
      Spelling.IsBlankText blanks → blanks ≠ [] →
      (∀ c ∈ before.getLast?, Character.isBlank c = false) →
      (∀ c ∈ behind.head?, Character.isBlank c = false) →
      ¬Spelling.MeanNothing before behind →
        Spelling.normalize (before ++ '*' :: behind) = Spelling.normalize given.toList ∧
        reading (String.ofList (before ++ '*' :: behind)) = reading given := by
  have hreading : ∀ {cs}, Spelling.normalize cs = Spelling.normalize given.toList →
      Spelling.normalize cs = Spelling.normalize given.toList ∧
        reading (String.ofList cs) = reading given := by
    intro cs h
    exact ⟨h, reading_congr (by rw [String.toList_ofList, h])⟩
  refine ⟨fun c hc => (Spelling.plain_of_mem_normalize hc).1,
    Spelling.normalize_normalize _, ?_, ?_⟩
  · intro before blanks behind hsplit hblanks h
    exact hreading (hsplit ▸ Spelling.normalize_insert hblanks h)
  · intro before blanks behind hsplit hblanks hne hbefore hbehind h
    exact hreading (hsplit ▸ Spelling.normalize_replace hblanks hne hbefore hbehind h)

/-- `kg m/s` comes to what it comes to with two sorts of blanks in front of its quotient, and with a
sign for its product. -/
theorem reading_kg_m_per_s :
    reading "kg m \u3000/s" = reading "kg m/s" ∧ reading "kg*m/s" = reading "kg m/s" := by
  have htext : "kg m/s".toList = ['k', 'g', ' ', 'm', '/', 's'] := by decide +kernel
  obtain ⟨_, _, hinsert, hreplace⟩ := blanks_mean_nothing_or_product "kg m/s"
  have hblank : Spelling.IsBlankText [' '] := by decide
  refine ⟨?_, ?_⟩
  · have hblanks : Spelling.IsBlankText [' ', '\u3000'] := by decide
    have hquotient : Spelling.MeanNothing ['k', 'g', ' ', 'm'] ['/', 's'] :=
      .inr (.inr (.inr ⟨'/', rfl, .inl (by simp [Spelling.operatorSigns])⟩))
    exact (hinsert ['k', 'g', ' ', 'm'] [' ', '\u3000'] ['/', 's'] htext hblanks hquotient).2
  · have hproduct : ¬Spelling.MeanNothing ['k', 'g'] ['m', '/', 's'] := by
      simp [Spelling.MeanNothing, Spelling.operatorSigns]
    have hg : ∀ c ∈ ['k', 'g'].getLast?, Character.isBlank c = false := by
      rintro _ ⟨⟩
      rfl
    have hm : ∀ c ∈ ['m', '/', 's'].head?, Character.isBlank c = false := by
      rintro _ ⟨⟩
      rfl
    exact (hreplace ['k', 'g'] [' '] ['m', '/', 's'] htext hblank (List.cons_ne_nil _ _) hg hm
      hproduct).2

end Dimensional.MeasureUnit
