import Dimensional.Proofs.MeasureUnit.Arranged

/-!
# Unit texts in parentheses

In parentheses a unit expression is read as it is read alone.

* `Spelling.normalize_joined` — its blanks are joined in the same way, and its words respelled.
* `Token.cutInto_inParens` — it is cut into the same lexemes, since a mark ends what it follows.
* `Token.reads_inParens` — its tokens are put into the same order, whatever waits outside.
-/

namespace Dimensional.MeasureUnit

open Fallible

def Operation.mark : Operation → Char
  | .product => '*'
  | .quotient => '/'
  | .power => '^'

theorem mark?_mark (op : Operation) : Token.mark? op.mark = some op.lexeme := by cases op <;> rfl

/-! ### Spelling in parentheses

Joining words goes by the character before a run of blanks and the one behind it.  A parenthesis
absorbs the blanks on its inner side just as an end of the text does, so nothing inside can tell
the two apart. -/

namespace Spelling

/-- Blanks in front of a closing parenthesis mean nothing, just as those at the end of a text. -/
theorem joinWords_append_closing (last : Char) (gap : Bool) (cs rest : List Char) :
    joinWords last gap (cs ++ ')' :: rest) =
      joinWords last gap cs ++ ')' :: joinWords ')' false rest := by
  induction cs generalizing last gap with
  | nil =>
    have hblank : Character.isBlank ')' = false := by decide
    have hbefore : absorbsBefore ')' = true := by decide
    simp [joinWords, hblank, hbefore]
  | cons c cs ih =>
    rw [List.cons_append, joinWords, joinWords, ih, ih]
    split
    · rfl
    · split <;> rfl

/-- Blanks behind an opening parenthesis mean nothing, just as those at the start of a text. -/
theorem joinWords_inParens (last : Char) (cs rest : List Char) :
    joinWords last false ('(' :: (cs ++ ')' :: rest)) =
      '(' :: (joinWords '(' false cs ++ ')' :: joinWords ')' false rest) := by
  have hblank : Character.isBlank '(' = false := by decide
  simp [joinWords, hblank, joinWords_append_closing]

theorem joinWords_mark (op : Operation) (last : Char) (rest : List Char) :
    joinWords last false (op.mark :: rest) = op.mark :: joinWords op.mark false rest := by
  have hblank : Character.isBlank op.mark = false := by cases op <;> decide
  simp [joinWords, hblank]

/-- Marks are in no localized word. -/
theorem localWords_mark {c : Char} {lexeme : Lexeme} (h : Token.mark? c = some lexeme)
    (rest : List Char) : localWords (c :: rest) = c :: localWords rest := by
  unfold Token.mark? at h
  split at h
  · rfl
  · rfl
  · rfl
  · rfl
  · rfl
  · cases h

theorem localWords_append_mark {c : Char} {lexeme : Lexeme} (h : Token.mark? c = some lexeme)
    (cs rest : List Char) :
    localWords (cs ++ c :: rest) = localWords cs ++ c :: localWords rest := by
  fun_induction localWords cs with
  | case1 => exact localWords_mark h rest
  | case2 cs ih => exact congrArg ('h' :: ·) ih
  | case3 d cs hhour word ih =>
    rw [List.cons_append, List.append_assoc, localWords.eq_def]
    split
    · next heq => cases heq
    · next tail heq =>
      -- A mark does not make up a word with what stands in front of it.
      obtain ⟨rfl, htail⟩ := List.cons.inj heq
      cases cs with
      | nil =>
        cases htail
        cases h
      | cons e cs =>
        cases htail
        exact (hhour cs rfl rfl).elim
    · next heq =>
      cases heq
      exact congrArg (_ ++ ·) ih

/-- In parentheses, texts are respelled as they are alone. -/
theorem normalize_joined (op : Operation) (as bs : List Char) :
    normalize ('(' :: (as ++ ')' :: op.mark :: '(' :: (bs ++ [')']))) =
      '(' :: (normalize as ++ ')' :: op.mark :: '(' :: (normalize bs ++ [')'])) := by
  have hplain : plainProduct op.mark = op.mark := by cases op <;> rfl
  have hopens : plainProduct '(' = '(' := rfl
  have hcloses : plainProduct ')' = ')' := rfl
  unfold normalize
  simp only [List.map_cons, List.map_append, List.map_nil, hplain, hopens, hcloses,
    joinWords_inParens, joinWords_mark,
    localWords_append_mark (rfl : Token.mark? ')' = some .closes),
    localWords_mark (rfl : Token.mark? '(' = some .opens), localWords_mark (mark?_mark op)]
  rfl

end Spelling

namespace Token

/-! ### Lexemes in front of a mark -/

/-- What is taken from a text is taken from it in front of a mark, too. -/
theorem take_append {place : SignPlace} {c : Char} {rest tail more : List Char}
    {parts : List Part} (h : Stops more) (htake : take place c rest = .ok (parts, tail)) :
    take place c (rest ++ more) = .ok (parts, tail ++ more) := by
  have hnumber := takeNumber?_append h false (c :: rest)
  have hsigned := takeNumber?_append h (c = '-') rest
  have hname := takeName_append_stops h (c :: rest)
  rw [List.cons_append] at hnumber hname
  unfold take at htake ⊢
  rw [hnumber]
  cases hmark : mark? c with
  | some lexeme =>
    rw [hmark] at htake
    cases htake
    rfl
  | none =>
    rw [hmark] at htake
    cases hunsigned : takeNumber? false (c :: rest) with
    | some taken =>
      rw [hunsigned] at htake
      cases htake
      rfl
    | none =>
      rw [hunsigned] at htake
      simp only [Option.map_none, hsigned] at htake ⊢
      -- A sign is taken with the number behind it, unless it stands where none may.
      split at htake
      · next hsign =>
        rw [if_pos hsign]
        cases hdigits : takeNumber? (decide (c = '-')) rest with
        | none =>
          rw [hdigits] at htake
          cases htake
        | some taken =>
          simp only [hdigits, Option.map_some] at htake ⊢
          split at htake
          · cases htake
          · next hplace =>
            cases htake
            rw [if_neg hplace]
      · next hsign =>
        rw [if_neg hsign]
        split at htake
        · next hc =>
          rw [if_pos hc, hname]
          cases htake
          rfl
        · cases htake

theorem scanFrom_cons_eq_ok {text : String} {place : SignPlace} {position : Nat} {c : Char}
    {rest : List Char} {tokens : List Token}
    (h : scanFrom text place position (c :: rest) = .ok tokens) :
    ∃ parts tail others, take place c rest = .ok (parts, tail) ∧
      scanFrom text (parts.foldl (fun place part => place.next part.1) place)
        (position + width parts) tail = .ok others ∧
      tokens = placed position parts ++ others := by
  rw [scanFrom] at h
  split at h
  · cases h
  · next parts tail htake =>
    obtain ⟨others, hothers, rfl⟩ := map_eq_ok_iff.1 h
    exact ⟨parts, tail, others, htake, hothers, rfl⟩

/-- A text in front of a mark is cut into the same lexemes as alone.  Their positions may be
others, since the text around them may start elsewhere. -/
theorem scanFrom_append {text whole : String} {place : SignPlace} {position : Nat}
    {cs more : List Char} {tokens : List Token} {lexemes : List Lexeme}
    (h : scanFrom text place position cs = .ok tokens) (hstops : Stops more)
    (hmore : ∀ place, CutInto whole place more lexemes) :
    CutInto whole place (cs ++ more) (tokens.map lexeme ++ lexemes) := by
  induction hn : cs.length using Nat.strongRecOn generalizing place position cs tokens with
  | ind n ih =>
    cases cs with
    | nil =>
      rw [scanFrom_nil] at h
      cases h
      exact hmore place
    | cons c rest =>
      obtain ⟨parts, tail, others, htake, hothers, rfl⟩ := scanFrom_cons_eq_ok h
      have hwidth := width_of_take htake
      -- What is taken is shorter by a character at least, and the rest is cut up by induction.
      have htail := ih tail.length (by omega) hothers rfl
      rw [List.map_append, lexemes_of_placed, List.append_assoc]
      exact cutInto_of_take (take_append hstops htake) htail

/-- A text in parentheses is cut into the same lexemes as alone. -/
theorem cutInto_inParens {whole : String} {cs rest : List Char} {tokens : List Token}
    {lexemes : List Lexeme} (h : scan cs = .ok tokens)
    (hrest : CutInto whole .elsewhere rest lexemes) :
    CutInto whole .elsewhere ('(' :: (cs ++ ')' :: rest))
      (.opens :: (tokens.map lexeme ++ .closes :: lexemes)) := by
  have hstops : Stops (')' :: rest) := by
    rintro _ ⟨⟩
    exact ⟨_, rfl⟩
  have hcloses : ∀ place, CutInto whole place (')' :: rest) (.closes :: lexemes) := by
    intro place
    apply cutInto_of_take (take_mark rfl place rest)
    cases place <;> exact hrest
  exact cutInto_of_take (take_mark rfl _ _) (scanFrom_append h hstops hcloses)

/-! ### Postfix order in parentheses

Alone, a text is read with nothing waiting below, and in parentheses above the opening one.  No
operation overtakes that, and the parentheses of the text itself are closed before it is
reached. -/

/-- A parenthesis that is closed has been opened. -/
theorem postfixFrom_closes_eq_ok {text : String} {token : Token} {pending rest out : List Token}
    (htoken : token.lexeme = .closes) (h : postfixFrom text pending (token :: rest) = .ok out) :
    ∃ ops opening below more, pending = ops ++ opening :: below ∧
      (∀ token ∈ ops, (!token.lexeme.isOpening) = true) ∧ opening.lexeme = .opens ∧
      postfixFrom text below rest = .ok more ∧ out = ops ++ more := by
  rw [postfixFrom, htoken] at h
  simp only at h
  split at h
  · cases h
  · next opening below hdrop =>
    obtain ⟨more, hmore, h⟩ := bind_eq_ok_iff.1 h
    cases h
    have hopening : (!opening.lexeme.isOpening) = false := by
      simpa [hdrop] using List.head?_dropWhile_not (fun t : Token => !t.lexeme.isOpening) pending
    refine ⟨_, opening, below, more, ?_, ?_, ?_, hmore, rfl⟩
    · rw [← hdrop, List.takeWhile_append_dropWhile]
    · exact List.all_eq_true.1 List.all_takeWhile
    · cases hlexeme : opening.lexeme with
      | opens => rfl
      | _ =>
        rw [hlexeme] at hopening
        cases hopening

/-- At the end of a text what waits is put out, unless a parenthesis is among it. -/
theorem postfixFrom_nil_eq_ok_iff {text : String} {pending out : List Token} :
    postfixFrom text pending [] = .ok out ↔
      (∀ token ∈ pending, (!token.lexeme.isOpening) = true) ∧ out = pending := by
  rw [postfixFrom]
  cases hfind : pending.find? (·.lexeme.isOpening) with
  | some opening =>
    have hopening := List.find?_some hfind
    constructor
    · intro h
      cases h
    · rintro ⟨hnone, _⟩
      simpa [hopening] using hnone opening (List.mem_of_find?_eq_some hfind)
  | none =>
    have hnone : ∀ token ∈ pending, (!token.lexeme.isOpening) = true := by
      simpa using List.find?_eq_none.1 hfind
    constructor
    · rintro ⟨⟩
      exact ⟨hnone, rfl⟩
    · rintro ⟨_, rfl⟩
      rfl

/-- What holds of the lexemes of tokens holds of the same lexemes elsewhere. -/
theorem forall_of_map_lexeme {p : Lexeme → Bool} {tokens tokens' : List Token}
    (h : tokens'.map lexeme = tokens.map lexeme)
    (hall : ∀ token ∈ tokens, p token.lexeme = true) :
    ∀ token ∈ tokens', p token.lexeme = true := by
  have hlexemes : ∀ l ∈ tokens'.map lexeme, p l = true := by
    rw [h]
    exact List.forall_mem_map.2 hall
  exact List.forall_mem_map.1 hlexemes

/-- The postfix order hangs on lexemes, not on where they stand.  The texts and the places are
for errors only, so the two runs are of the same shape as long as the one succeeds. -/
theorem postfixFrom_congr {text text' : String} {pending pending' tokens tokens' out : List Token}
    (h : postfixFrom text pending tokens = .ok out)
    (hpending : pending'.map lexeme = pending.map lexeme)
    (htokens : tokens'.map lexeme = tokens.map lexeme) :
    ∃ out', postfixFrom text' pending' tokens' = .ok out' ∧ out'.map lexeme = out.map lexeme := by
  induction tokens generalizing pending pending' tokens' out with
  | nil =>
    obtain ⟨hnone, rfl⟩ := postfixFrom_nil_eq_ok_iff.1 h
    rw [List.map_eq_nil_iff.1 htokens]
    have hnone' := @forall_of_map_lexeme (!·.isOpening) _ _ hpending hnone
    exact ⟨pending', postfixFrom_nil_eq_ok_iff.2 ⟨hnone', rfl⟩, hpending⟩
  | cons token rest ih =>
    obtain ⟨token', rest', rfl, htoken, hrest⟩ := List.map_eq_cons_iff.1 htokens
    obtain hoperand | ⟨op, hop⟩ | hopens | hcloses := token.lexeme.sorts
    · rw [postfixFrom_operand hoperand] at h
      obtain ⟨out, hout, rfl⟩ := map_eq_ok_iff.1 h
      obtain ⟨out', hout', hmap⟩ := ih hout hpending hrest
      rw [← htoken] at hoperand
      refine ⟨[token'] ++ out', ?_, ?_⟩
      · rw [postfixFrom_operand hoperand, hout']
        rfl
      · rw [List.map_append, List.map_append, hmap, List.map_singleton, htoken, List.map_singleton]
    · -- The same operations are overtaken.
      have htake : (pending'.takeWhile op.overtaken).map lexeme =
          (pending.takeWhile op.overtaken).map lexeme := by
        have hmap := congrArg (List.takeWhile fun l => l.yieldsTo op.rank (op = .power)) hpending
        rwa [List.takeWhile_map, List.takeWhile_map] at hmap
      have hdrop : (pending'.dropWhile op.overtaken).map lexeme =
          (pending.dropWhile op.overtaken).map lexeme := by
        have hmap := congrArg (List.dropWhile fun l => l.yieldsTo op.rank (op = .power)) hpending
        rwa [List.dropWhile_map, List.dropWhile_map] at hmap
      rw [postfixFrom_operation hop] at h
      obtain ⟨out, hout, rfl⟩ := map_eq_ok_iff.1 h
      have hwaiting : (token' :: pending'.dropWhile op.overtaken).map lexeme =
          (token :: pending.dropWhile op.overtaken).map lexeme := by
        rw [List.map_cons, List.map_cons, htoken, hdrop]
      obtain ⟨out', hout', hmap⟩ := ih hout hwaiting hrest
      refine ⟨pending'.takeWhile op.overtaken ++ out', ?_, ?_⟩
      · rw [postfixFrom_operation (htoken.trans hop), hout']
        rfl
      · rw [List.map_append, List.map_append, htake, hmap]
    · rw [postfixFrom_opens hopens] at h
      have hwaiting : (token' :: pending').map lexeme = (token :: pending).map lexeme := by
        rw [List.map_cons, List.map_cons, htoken, hpending]
      rw [postfixFrom_opens (htoken.trans hopens)]
      exact ih h hwaiting hrest
    · obtain ⟨ops, opening, below, more, rfl, hops, hopening, hmore, rfl⟩ :=
        postfixFrom_closes_eq_ok hcloses h
      rw [List.map_append, List.map_cons] at hpending
      obtain ⟨ops', waiting', rfl, hopsMap, hwaiting⟩ := List.map_eq_append_iff.1 hpending
      obtain ⟨opening', below', rfl, hopeningMap, hbelow⟩ := List.map_eq_cons_iff.1 hwaiting
      have hops' := @forall_of_map_lexeme (!·.isOpening) _ _ hopsMap hops
      obtain ⟨more', hmore', hmap⟩ := ih hmore hbelow hrest
      refine ⟨ops' ++ more', ?_, ?_⟩
      · rw [postfixFrom_closes (htoken.trans hcloses) hops' (hopeningMap.trans hopening), hmore']
        rfl
      · rw [List.map_append, List.map_append, hopsMap, hmap]

/-- What is read to the end when it stands alone is read alike above a parenthesis. -/
theorem postfixFrom_append_closing {text whole : String} {pending tokens out : List Token}
    (h : postfixFrom text pending tokens = .ok out) {opening closing : Token}
    (hopening : opening.lexeme = .opens) (hclosing : closing.lexeme = .closes)
    (waiting rest : List Token) :
    postfixFrom whole (pending ++ opening :: waiting) (tokens ++ closing :: rest) =
      (postfixFrom whole waiting rest).map (out ++ ·) := by
  induction tokens generalizing pending out with
  | nil =>
    obtain ⟨hnone, rfl⟩ := postfixFrom_nil_eq_ok_iff.1 h
    exact postfixFrom_closes hclosing hnone hopening whole waiting rest
  | cons token tokens ih =>
    rw [List.cons_append]
    obtain hoperand | ⟨op, hop⟩ | hopens | hcloses := token.lexeme.sorts
    · rw [postfixFrom_operand hoperand] at h ⊢
      obtain ⟨out, hout, rfl⟩ := map_eq_ok_iff.1 h
      rw [ih hout, map_ok_append]
    -- The opening parenthesis is the floor for the operations above it.
    · have hfloor : Floor (opening :: waiting) := by
        rintro _ ⟨⟩
        exact hopening
      obtain ⟨htake, hdrop⟩ := @takeWhile_overtaken_of_floor op pending _ hfloor
      rw [postfixFrom_operation hop] at h ⊢
      obtain ⟨out, hout, rfl⟩ := map_eq_ok_iff.1 h
      rw [htake, hdrop, ← List.cons_append, ih hout, map_ok_append]
    · rw [postfixFrom_opens hopens] at h ⊢
      exact ih h
    · obtain ⟨ops, inner, below, more, rfl, hops, hinner, hmore, rfl⟩ :=
        postfixFrom_closes_eq_ok hcloses h
      rw [List.append_assoc, List.cons_append, postfixFrom_closes hcloses hops hinner, ih hmore,
        map_ok_append]

/-- In parentheses, tokens that have a postfix order are read in this order. -/
theorem reads_inParens {text : String} {tokens program : List Token} {level : Nat}
    (h : toPostfix text tokens = .ok program) :
    Reads level (.opens :: (tokens.map lexeme ++ [.closes])) (program.map lexeme) := by
  intro whole tokens' pending rest htokens _
  obtain ⟨opening, tokens', rfl, hopening, htokens⟩ := List.map_eq_cons_iff.1 htokens
  obtain ⟨inside, tokens', rfl, hinside, htokens⟩ := List.map_eq_append_iff.1 htokens
  obtain ⟨closing, tokens', rfl, hclosing, hnil⟩ := List.map_eq_cons_iff.1 htokens
  obtain ⟨out, hout, hmap⟩ := @postfixFrom_congr text whole [] [] _ _ _ h rfl hinside
  rw [List.map_eq_nil_iff.1 hnil]
  refine ⟨out, [], List.forall_mem_nil _, by rw [List.append_nil, hmap], ?_⟩
  rw [List.cons_append, List.append_assoc, postfixFrom_opens hopening, List.singleton_append]
  exact postfixFrom_append_closing hout hopening hclosing pending rest

end Token

end Dimensional.MeasureUnit
