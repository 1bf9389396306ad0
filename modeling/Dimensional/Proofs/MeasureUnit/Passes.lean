import Dimensional.Proofs.MeasureUnit.Blanks

/-!
# The normal spelling, pass by pass

`normalize` walks along a text once.  It does what six passes do that rewrite the whole text one
after the other: the first takes the blanks off the ends, the second puts `*` for its variants, the
next three see to the blanks next to operators, to those inside parentheses and to what is left of
them, and the last puts symbols for localized words, word by word.

Main statement: `normalize_eq_passes`.
-/

namespace Dimensional.MeasureUnit.Spelling

open Character (isBlank strip)

/-! ### The passes -/

/-- Puts `target` wherever a word stands that is not empty, from left to right. -/
def replaceWord (word target : List Char) : List Char → List Char
  | [] => []
  | c :: cs =>
    if word.isPrefixOf (c :: cs) then
      target ++ replaceWord word target (cs.drop (word.length - 1))
    else c :: replaceWord word target cs
termination_by cs => cs.length
decreasing_by all_goals simp only [List.length_drop, List.length_cons]; omega

def skipBlanks (cs : List Char) : List Char := cs.dropWhile isBlank

theorem length_skipBlanks_le (cs : List Char) : (skipBlanks cs).length ≤ cs.length :=
  (List.dropWhile_sublist isBlank).length_le

def isOperator (c : Char) : Bool := c = '*' || c = '/' || c = '^'

/-- Takes out the blanks before and behind operators. -/
def closeUpOperators : List Char → List Char
  | [] => []
  | c :: cs =>
    if isOperator c then c :: closeUpOperators (skipBlanks cs)
    else if isBlank c ∧ (skipBlanks cs).head?.any isOperator then
      closeUpOperators (skipBlanks cs)
    else c :: closeUpOperators cs
termination_by cs => cs.length
decreasing_by all_goals have := length_skipBlanks_le cs; simp only [List.length_cons]; omega

/-- Takes out the blanks behind `(` and before `)`; `opened` says whether `(` stands before. -/
def closeUpParens (opened : Bool) : List Char → List Char
  | [] => []
  | c :: cs =>
    if isBlank c ∧ (opened = true ∨ ')' ∈ (skipBlanks cs).head?) then
      closeUpParens false (skipBlanks cs)
    else c :: closeUpParens (c = '(') cs
termination_by cs => cs.length
decreasing_by all_goals have := length_skipBlanks_le cs; simp only [List.length_cons]; omega

/-- Puts a sign for a product in the place of every run of blanks. -/
def joinRuns : List Char → List Char
  | [] => []
  | c :: cs => if isBlank c then '*' :: joinRuns (skipBlanks cs) else c :: joinRuns cs
termination_by cs => cs.length
decreasing_by all_goals have := length_skipBlanks_le cs; simp only [List.length_cons]; omega

/-- Localized words and their symbols, in the order in which they are replaced. -/
def localReplacements : List (List Char × List Char) :=
  [(['年'], ['y', 'e', 'a', 'r']), (['小', '时'], ['h']), (['天'], ['d', 'a', 'y']),
    (['吨'], ['t', 'o', 'n']), (['μ'], ['u']), (['µ'], ['u'])]

def replaceWords (cs : List Char) : List Char :=
  localReplacements.foldl (fun cs (word, symbol) => replaceWord word symbol cs) cs

/-- The passes over a text, one after the other. -/
def passes (cs : List Char) : List Char :=
  replaceWords (joinRuns (closeUpParens false (closeUpOperators
    (replaceWord ['×'] ['*'] (replaceWord ['·'] ['*'] (strip cs))))))

/-! ### Words

Replacing one word after another is the same as replacing them all at once, because no symbol
that is put in contains a character of a word, or makes up a word with what stands beside it. -/

theorem replaceWord_nil (word target : List Char) : replaceWord word target [] = [] := by
  rw [replaceWord]

/-- A word of one character is replaced character by character. -/
theorem replaceWord_char (w : Char) (target cs : List Char) :
    replaceWord [w] target cs = cs.flatMap fun c => if c = w then target else [c] := by
  induction cs with
  | nil => exact replaceWord_nil _ _
  | cons c cs ih =>
    rw [replaceWord, List.flatMap_cons]
    by_cases h : c = w
    · simp [h, ih]
    · have hne : ¬w = c := fun heq => h heq.symm
      simp [h, hne, ih]

theorem replaceProducts_eq (cs : List Char) :
    replaceWord ['×'] ['*'] (replaceWord ['·'] ['*'] cs) = cs.map plainProduct := by
  rw [replaceWord_char, replaceWord_char, List.flatMap_assoc, List.map_eq_flatMap]
  congr 1
  funext c
  unfold plainProduct
  by_cases hdot : c = '·'
  · subst hdot
    rfl
  · by_cases hcross : c = '×' <;> simp [hdot, hcross]

/-- What becomes of a character with the words behind that of two characters. -/
def lateSymbol (c : Char) : List Char :=
  replaceWord ['µ'] ['u'] (replaceWord ['μ'] ['u']
    (replaceWord ['吨'] ['t', 'o', 'n'] (replaceWord ['天'] ['d', 'a', 'y'] [c])))

theorem replaceWords_eq_flatMap (cs : List Char) :
    replaceWords cs =
      (replaceWord ['小', '时'] ['h'] (replaceWord ['年'] ['y', 'e', 'a', 'r'] cs)).flatMap
        lateSymbol := by
  unfold replaceWords localReplacements lateSymbol
  simp only [List.foldl_cons, List.foldl_nil, replaceWord_char, List.flatMap_assoc,
    List.flatMap_singleton]

theorem symbolFor_eq_lateSymbol {c : Char} (h : c ≠ '年') : symbolFor c = lateSymbol c := by
  unfold lateSymbol
  simp only [replaceWord_char, List.flatMap_singleton]
  unfold symbolFor
  split
  · exact absurd rfl h
  · rfl
  · rfl
  · rfl
  · rfl
  · simp_all

theorem replaceHour_cons {c : Char} {cs : List Char} (h : c = '小' → cs.head? ≠ some '时') :
    replaceWord ['小', '时'] ['h'] (c :: cs) = c :: replaceWord ['小', '时'] ['h'] cs := by
  rw [replaceWord, if_neg]
  intro hword
  cases cs with
  | nil => simp [List.isPrefixOf] at hword
  | cons d cs =>
    simp only [List.isPrefixOf, Bool.and_true, Bool.and_eq_true, beq_iff_eq] at hword
    obtain ⟨rfl, rfl⟩ := hword
    exact h rfl rfl

theorem replaceHour_append {symbol : List Char} (h : ∀ c ∈ symbol, c ≠ '小') (cs : List Char) :
    replaceWord ['小', '时'] ['h'] (symbol ++ cs) =
      symbol ++ replaceWord ['小', '时'] ['h'] cs := by
  induction symbol with
  | nil => rfl
  | cons c symbol ih =>
    rw [List.cons_append, replaceHour_cons fun hc => absurd hc (h c List.mem_cons_self),
      ih fun d hd => h d (List.mem_cons_of_mem _ hd)]
    rfl

/-- The first word that is replaced does not make up a word of two with what stands before it. -/
theorem head?_of_replaceYear {cs : List Char}
    (h : (replaceWord ['年'] ['y', 'e', 'a', 'r'] cs).head? = some '时') :
    cs.head? = some '时' := by
  rw [replaceWord_char] at h
  cases cs with
  | nil => exact h
  | cons c cs =>
    rw [List.flatMap_cons] at h
    split at h
    · exact absurd (Option.some.inj h) (by decide)
    · exact h

theorem replaceWords_eq (cs : List Char) : replaceWords cs = localWords cs := by
  rw [replaceWords_eq_flatMap]
  induction cs using localWords_induction with
  | nil => simp [replaceWord_nil, localWords]
  | hour rest ih =>
    -- The one word of two characters is left alone by the first replacement, and found by the
    -- second.
    have hyear : replaceWord ['年'] ['y', 'e', 'a', 'r'] ('小' :: '时' :: rest) =
        '小' :: '时' :: replaceWord ['年'] ['y', 'e', 'a', 'r'] rest := by
      rw [replaceWord_char, replaceWord_char]
      rfl
    have hh : lateSymbol 'h' = ['h'] := by simp [lateSymbol, replaceWord_char]
    rw [hyear, replaceWord, if_pos (by simp [List.isPrefixOf]), List.flatMap_append,
      localWords_hour, ← ih, List.flatMap_singleton, hh]
    rfl
  | char c rest hne ih =>
    rw [localWords_cons hne, ← ih]
    by_cases hc : c = '年'
    · subst hc
      have hyear : replaceWord ['年'] ['y', 'e', 'a', 'r'] ('年' :: rest) =
          ['y', 'e', 'a', 'r'] ++ replaceWord ['年'] ['y', 'e', 'a', 'r'] rest := by
        rw [replaceWord_char, replaceWord_char]
        rfl
      have hlate : ['y', 'e', 'a', 'r'].flatMap lateSymbol = symbolFor '年' := by
        simp [lateSymbol, replaceWord_char, symbolFor]
      rw [hyear, replaceHour_append (by simp), List.flatMap_append, hlate]
    · have hother : replaceWord ['年'] ['y', 'e', 'a', 'r'] (c :: rest) =
          c :: replaceWord ['年'] ['y', 'e', 'a', 'r'] rest := by
        rw [replaceWord_char, replaceWord_char, List.flatMap_cons, if_neg hc]
        rfl
      rw [hother, replaceHour_cons fun hc hhead => hne hc (head?_of_replaceYear hhead),
        List.flatMap_cons, symbolFor_eq_lateSymbol hc]

/-! ### Blanks -/

theorem skipBlanks_append {blanks : List Char} {c : Char} (hblanks : IsBlankText blanks)
    (hc : isBlank c = false) (rest : List Char) : skipBlanks (blanks ++ c :: rest) = c :: rest := by
  have hc' : ¬isBlank c = true := Bool.eq_false_iff.1 hc
  rw [skipBlanks, List.dropWhile_append_of_pos hblanks, List.dropWhile_cons_of_neg hc']

/-- A text consists of blanks, or it has a first character that is none.  The induction goes on
behind that character. -/
theorem runs_induction {P : List Char → Prop} (blank : ∀ blanks, IsBlankText blanks → P blanks)
    (run : ∀ blanks c rest, IsBlankText blanks → isBlank c = false → P rest →
      P (blanks ++ c :: rest)) (cs : List Char) : P cs := by
  induction hlength : cs.length using Nat.strongRecOn generalizing cs with
  | _ n ih =>
    have hblanks : IsBlankText (cs.takeWhile isBlank) := List.all_eq_true.1 List.all_takeWhile
    have hsplit : cs.takeWhile isBlank ++ cs.dropWhile isBlank = cs :=
      List.takeWhile_append_dropWhile
    have hhead := List.head?_dropWhile_not isBlank cs
    cases hrest : cs.dropWhile isBlank with
    | nil =>
      rw [hrest, List.append_nil] at hsplit
      exact blank cs (hsplit ▸ hblanks)
    | cons c rest =>
      rw [hrest] at hsplit hhead
      rw [← hsplit] at hlength ⊢
      refine run _ c rest hblanks hhead (ih rest.length ?_ rest rfl)
      rw [← hlength, List.length_append, List.length_cons]
      omega

section

variable {blanks : List Char} {c : Char}

theorem not_isOperator_of_isBlank (h : isBlank c = true) : isOperator c = false := by
  rw [Bool.eq_false_iff]
  intro hc
  simp only [isOperator, Bool.or_eq_true, decide_eq_true_eq] at hc
  rcases hc with (rfl | rfl) | rfl <;> cases h

theorem closeUpOperators_operator (hblanks : IsBlankText blanks) (hc : isOperator c = true)
    (rest : List Char) :
    closeUpOperators (blanks ++ c :: rest) = c :: closeUpOperators (skipBlanks rest) := by
  have hself : closeUpOperators (c :: rest) = c :: closeUpOperators (skipBlanks rest) := by
    rw [closeUpOperators, if_pos hc]
  -- Blanks in front of an operator go, together or not at all.
  cases blanks with
  | nil => exact hself
  | cons b blanks =>
    have hb : isBlank b = true := hblanks b List.mem_cons_self
    have hblank : isBlank c = false := by
      rw [Bool.eq_false_iff]
      intro hblank
      rw [not_isOperator_of_isBlank hblank] at hc
      cases hc
    have hskip := skipBlanks_append (fun d hd => hblanks d (List.mem_cons_of_mem _ hd)) hblank rest
    rw [List.cons_append, closeUpOperators, if_neg (by simp [not_isOperator_of_isBlank hb]), hskip,
      if_pos ⟨hb, hc⟩, hself]

theorem closeUpOperators_other (hblanks : IsBlankText blanks) (hblank : isBlank c = false)
    (hc : isOperator c = false) (rest : List Char) :
    closeUpOperators (blanks ++ c :: rest) = blanks ++ c :: closeUpOperators rest := by
  induction blanks with
  | nil =>
    rw [List.nil_append, closeUpOperators, if_neg (by simp [hc]), if_neg (by simp [hblank])]
    rfl
  | cons b blanks ih =>
    have hb : isBlank b = true := hblanks b List.mem_cons_self
    have hrest : IsBlankText blanks := fun d hd => hblanks d (List.mem_cons_of_mem _ hd)
    rw [List.cons_append, closeUpOperators, if_neg (by simp [not_isOperator_of_isBlank hb]),
      skipBlanks_append hrest hblank, if_neg (by simp [hc]), ih hrest]
    rfl

theorem closeUpParens_cons (hblank : isBlank c = false) (opened : Bool) (rest : List Char) :
    closeUpParens opened (c :: rest) = c :: closeUpParens (c = '(') rest := by
  rw [closeUpParens, if_neg (by simp [hblank])]

theorem closeUpParens_run (hblanks : IsBlankText blanks) (hblank : isBlank c = false)
    (opened : Bool) (rest : List Char) :
    closeUpParens opened (blanks ++ c :: rest) =
      (if opened = true ∨ c = ')' then [] else blanks) ++ c :: closeUpParens (c = '(') rest := by
  induction blanks generalizing opened with
  | nil => rw [List.nil_append, closeUpParens_cons hblank, ite_self, List.nil_append]
  | cons b blanks ih =>
    have hb : isBlank b = true := hblanks b List.mem_cons_self
    have hrest : IsBlankText blanks := fun d hd => hblanks d (List.mem_cons_of_mem _ hd)
    have hopens : ¬b = '(' := by
      rintro rfl
      cases hb
    rw [List.cons_append, closeUpParens, skipBlanks_append hrest hblank]
    -- Either the whole run goes at its first blank, or every blank of it stays.
    by_cases h : opened = true ∨ c = ')'
    · rw [if_pos h, if_pos ⟨hb, h.imp_right fun hc => by simp [hc]⟩, closeUpParens_cons hblank]
      rfl
    · have hclosing : ¬((decide (b = '(')) = true ∨ c = ')') := by
        rintro (hopened | hc)
        · exact hopens (of_decide_eq_true hopened)
        · exact h (.inr hc)
      have hstays : ¬(isBlank b = true ∧ (opened = true ∨ ')' ∈ (c :: rest).head?)) := by
        rintro ⟨-, hopened | hc⟩
        · exact h (.inl hopened)
        · exact h (.inr (Option.some.inj hc))
      rw [if_neg h, if_neg hstays, ih hrest, if_neg hclosing]
      rfl

theorem joinRuns_cons (hblank : isBlank c = false) (rest : List Char) :
    joinRuns (c :: rest) = c :: joinRuns rest := by
  rw [joinRuns, if_neg (by simp [hblank])]

theorem joinRuns_run (hblanks : IsBlankText blanks) (hblank : isBlank c = false)
    (rest : List Char) :
    joinRuns (blanks ++ c :: rest) = (if blanks = [] then [] else ['*']) ++ c :: joinRuns rest := by
  cases blanks with
  | nil => exact joinRuns_cons hblank rest
  | cons b blanks =>
    have hb : isBlank b = true := hblanks b List.mem_cons_self
    have hskip := skipBlanks_append (fun d hd => hblanks d (List.mem_cons_of_mem _ hd)) hblank rest
    rw [List.cons_append, joinRuns, if_pos hb, hskip, joinRuns_cons hblank,
      if_neg (List.cons_ne_nil _ _)]
    rfl

/-- The three passes leave a sign for a product in front of a character, or nothing. -/
theorem joinRuns_closeUp (hblanks : IsBlankText blanks) (hblank : isBlank c = false)
    (opened : Bool) (rest : List Char) :
    joinRuns (closeUpParens opened (closeUpOperators (blanks ++ c :: rest))) =
      (if blanks = [] ∨ isOperator c = true ∨ opened = true ∨ c = ')' then [] else ['*']) ++
        c :: joinRuns (closeUpParens (c = '(')
          (closeUpOperators (if isOperator c then skipBlanks rest else rest))) := by
  cases hc : isOperator c with
  | true =>
    rw [closeUpOperators_operator hblanks hc, closeUpParens_cons hblank, joinRuns_cons hblank,
      if_pos (.inr (.inl rfl))]
    rfl
  | false =>
    rw [closeUpOperators_other hblanks hblank hc, closeUpParens_run hblanks hblank]
    by_cases h : opened = true ∨ c = ')'
    · rw [if_pos h, if_pos (.inr (.inr h)), List.nil_append, joinRuns_cons hblank]
      rfl
    · rw [if_neg h, joinRuns_run hblanks hblank]
      simp [h]

end

/-- Behind a character, `joinWords` does what the three passes do. -/
theorem joinWords_eq (last : Char) {cs : List Char} (hend : ∀ c ∈ cs.getLast?, isBlank c = false) :
    joinWords last false cs =
      joinRuns (closeUpParens (last = '(')
        (closeUpOperators (if isOperator last then skipBlanks cs else cs))) := by
  induction cs using runs_induction generalizing last with
  | blank blanks hblanks =>
    have hnil : blanks = [] := by
      rw [← List.getLast?_eq_none_iff, Option.eq_none_iff_forall_not_mem]
      intro c hc
      have hblank := hblanks c (List.mem_of_getLast? hc)
      rw [hend c hc] at hblank
      cases hblank
    subst hnil
    have hskip : (if isOperator last then skipBlanks [] else []) = [] := ite_self _
    rw [hskip, closeUpOperators, closeUpParens, joinRuns, joinWords]
  | run blanks c rest hblanks hc ih =>
    have hrest : ∀ d ∈ rest.getLast?, isBlank d = false := by
      intro d hd
      refine hend d ?_
      rw [List.getLast?_append, List.getLast?_cons, hd]
      rfl
    rw [joinWords_blanks hblanks, Bool.false_or, joinWords, if_neg (by simp [hc]), ih c hrest]
    have hbefore : absorbsBefore c = (isOperator c || decide (c = ')')) := rfl
    have hafter : absorbsAfter last = (isOperator last || decide (last = '(')) := rfl
    rw [hbefore, hafter]
    cases hlast : isOperator last with
    | true =>
      have hnil := @joinRuns_closeUp [] c (by simp [IsBlankText]) hc (last = '(') rest
      rw [List.nil_append, if_pos (.inl rfl)] at hnil
      rw [if_pos rfl, skipBlanks_append hblanks hc, hnil]
      simp
    | false =>
      rw [if_neg Bool.false_ne_true, joinRuns_closeUp hblanks hc]
      -- The two conditions for a sign are the same, one in truth values and one in propositions.
      have hgap : (!blanks.isEmpty && !(false || decide (last = '(')) &&
          !(isOperator c || decide (c = ')'))) = true ↔
          ¬(blanks = [] ∨ isOperator c = true ∨ decide (last = '(') = true ∨ c = ')') := by
        simp only [Bool.false_or, Bool.and_eq_true, Bool.not_eq_true', List.isEmpty_eq_false_iff,
          Bool.or_eq_false_iff, decide_eq_false_iff_not, decide_eq_true_eq, not_or,
          Bool.not_eq_true]
        grind
      by_cases h : blanks = [] ∨ isOperator c = true ∨ decide (last = '(') = true ∨ c = ')'
      · rw [if_pos h, if_neg fun hjoins => hgap.1 hjoins h]
        rfl
      · rw [if_neg h, if_pos (hgap.2 h)]
        rfl

/-! ### All of them

Only the first pass sees the ends of the text.  Behind it no text starts or ends with a blank, so
that it does not matter that `joinWords` starts as if behind a parenthesis. -/

/-- A text without the blanks at its ends, of which none is left. -/
theorem exists_ends_of_strip (cs : List Char) :
    ∃ front back, cs = front ++ (strip cs ++ back) ∧ IsBlankText front ∧ IsBlankText back ∧
      (∀ c ∈ (strip cs).head?, isBlank c = false) ∧
      ∀ c ∈ (strip cs).getLast?, isBlank c = false := by
  have hall : ∀ xs : List Char, IsBlankText (xs.takeWhile isBlank) :=
    fun xs => List.all_eq_true.1 List.all_takeWhile
  have hstop : ∀ xs : List Char, ∀ c ∈ (xs.dropWhile isBlank).head?, isBlank c = false := by
    intro xs c hc
    have hhead := List.head?_dropWhile_not isBlank xs
    rw [Option.mem_def.1 hc] at hhead
    exact hhead
  have hback : strip cs ++ ((cs.dropWhile isBlank).reverse.takeWhile isBlank).reverse =
      cs.dropWhile isBlank := by
    rw [strip, Character.trim, ← List.reverse_append, List.takeWhile_append_dropWhile,
      List.reverse_reverse]
  refine ⟨cs.takeWhile isBlank, ((cs.dropWhile isBlank).reverse.takeWhile isBlank).reverse, ?_,
    hall _, fun c hc => hall _ c (List.mem_reverse.1 hc), ?_, ?_⟩
  · rw [hback, List.takeWhile_append_dropWhile]
  · intro c hc
    refine hstop cs c ?_
    rw [← hback, List.head?_append, Option.mem_def.1 hc]
    rfl
  · intro c hc
    rw [strip, Character.trim, List.getLast?_reverse] at hc
    exact hstop _ c hc

theorem normalize_strip (cs : List Char) : normalize (strip cs) = normalize cs := by
  obtain ⟨front, back, hsplit, hfront, hback, _, _⟩ := exists_ends_of_strip cs
  have hend := @normalize_insert (strip cs) back [] hback (.inr (.inl rfl))
  have hstart := @normalize_insert [] front (strip cs ++ back) hfront (.inl rfl)
  rw [List.append_nil, List.append_nil] at hend
  rw [List.nil_append, List.nil_append, ← hsplit, hend] at hstart
  exact hstart.symm

/-- At the start of a text it does not matter what is thought to stand before it, if it does not
start with a blank. -/
theorem joinRuns_opened {cs : List Char} (h : ∀ c ∈ cs.head?, isBlank c = false) (opened : Bool) :
    joinRuns (closeUpParens opened (closeUpOperators cs)) =
      joinRuns (closeUpParens false (closeUpOperators cs)) := by
  cases cs with
  | nil => rw [closeUpOperators, closeUpParens, closeUpParens]
  | cons c rest =>
    have hc := h c rfl
    have hrun := @joinRuns_closeUp [] c (by simp [IsBlankText]) hc
    simp only [List.nil_append, true_or, if_true] at hrun
    rw [hrun, hrun]

/-- **The normal spelling is what the passes make of a text**, one after the other. -/
theorem normalize_eq_passes (cs : List Char) : normalize cs = passes cs := by
  obtain ⟨_, _, _, _, _, hhead, hlast⟩ := exists_ends_of_strip cs
  have hplain_head : ∀ c ∈ ((strip cs).map plainProduct).head?, isBlank c = false := by
    rw [List.head?_map]
    intro c hc
    obtain ⟨d, hd, rfl⟩ := Option.map_eq_some_iff.1 hc
    exact (isBlank_plainProduct d).trans (hhead d hd)
  have hplain_last : ∀ c ∈ ((strip cs).map plainProduct).getLast?, isBlank c = false := by
    rw [List.getLast?_map]
    intro c hc
    obtain ⟨d, hd, rfl⟩ := Option.map_eq_some_iff.1 hc
    exact (isBlank_plainProduct d).trans (hlast d hd)
  have hparen : isOperator '(' = false := rfl
  rw [← normalize_strip, passes, replaceProducts_eq, replaceWords_eq, normalize,
    joinWords_eq '(' hplain_last, hparen, if_neg Bool.false_ne_true, joinRuns_opened hplain_head]

end Dimensional.MeasureUnit.Spelling
