import Dimensional.Proofs.MeasureUnit.Sentence

/-!
# What the texts of units look like

A text that is parsed into a unit need not be a sentence of the unit grammar, but it is arranged
like one as far as nesting and order go (`Token.Arranged`).  Parentheses match, names and numbers
come into the program in their order, and each operation comes at its place or further behind, but
in the parentheses that it stands in.

* `arranged_of_toPostfix` — the postfix order of a text arranges its tokens in this way.
* `arranged_of_parse` — the program of a text that is parsed into a unit is, besides, the postorder
  of exactly one tree, which comes to the unit; and the text is a sentence just if its neighbours
  fit.
-/

namespace Dimensional.MeasureUnit

open Fallible

/-- A lexeme is an operand, an operation or a parenthesis. -/
theorem Lexeme.sorts (lexeme : Lexeme) :
    lexeme.isOperand = true ∨ (∃ op : Operation, lexeme = op.lexeme) ∨ lexeme = .opens ∨
      lexeme = .closes := by
  match lexeme with
  | .name _ | .number _ => exact .inl rfl
  | .times => exact .inr (.inl ⟨.product, rfl⟩)
  | .over => exact .inr (.inl ⟨.quotient, rfl⟩)
  | .power => exact .inr (.inl ⟨.power, rfl⟩)
  | .opens => exact .inr (.inr (.inl rfl))
  | .closes => exact .inr (.inr (.inr rfl))

namespace Token

/-! ### Arrangements -/

/-- The tokens are operands and operations, in the program the same operands in the same order, and
every operation at its place or further behind.  An operand is a name, a number, or a part in
parentheses. -/
inductive Arranged : List Token → List (List Token) → Prop where
  | nil : Arranged [] []
  | operand {token : Token} {rest : List Token} {blocks : List (List Token)} :
      token.lexeme.isOperand = true → Arranged rest blocks →
      Arranged (token :: rest) ([token] :: blocks)
  | operation {op : Operation} {token : Token} {rest : List Token}
      {front behind : List (List Token)} :
      token.lexeme = op.lexeme → Arranged rest (front ++ behind) →
      Arranged (token :: rest) (front ++ [token] :: behind)
  | paren {opening closing : Token} {inside rest : List Token} {inner blocks : List (List Token)} :
      opening.lexeme = .opens → closing.lexeme = .closes → Arranged inside inner →
      Arranged rest blocks →
      Arranged (opening :: (inside ++ closing :: rest)) (inner.flatten :: blocks)

theorem arranged_operation_cons {op : Operation} {token : Token} {rest : List Token}
    {blocks : List (List Token)} (htoken : token.lexeme = op.lexeme)
    (h : Arranged (token :: rest) blocks) :
    ∃ front behind, blocks = front ++ [token] :: behind ∧ Arranged rest (front ++ behind) := by
  cases h with
  | operand hoperand _ =>
    rw [htoken] at hoperand
    cases op <;> cases hoperand
  | operation _ hrest => exact ⟨_, _, rfl, hrest⟩
  | paren hopening _ _ _ =>
    rw [htoken] at hopening
    cases op <;> cases hopening

/-- What may stand in front of a part may also stand behind the operations that it starts with,
each of which then moves behind its block. -/
theorem Arranged.insert {us program rest ops : List Token} {blocks : List (List Token)}
    (hinsert : ∀ {rest blocks}, Arranged rest blocks → Arranged (us ++ rest) (program :: blocks))
    (hops : Bind 0 ops) (h : Arranged (ops ++ rest) blocks) :
    Arranged (ops ++ (us ++ rest)) (program :: blocks) := by
  induction ops generalizing blocks with
  | nil => exact hinsert h
  -- The new block goes in front of all that the operation moves behind.
  | cons token ops ih =>
    obtain ⟨⟨op, htoken, _⟩, hops⟩ := List.forall_mem_cons.1 hops
    obtain ⟨front, behind, rfl, hrest⟩ := arranged_operation_cons htoken h
    exact @Arranged.operation op token _ (program :: front) behind htoken (ih hops hrest)

theorem Bind.reverse {level : Nat} {ops : List Token} (h : Bind level ops) :
    Bind level ops.reverse := by
  intro token htoken
  exact h token (List.mem_reverse.1 htoken)

/-- Operations that were applied at once stand in the text in reverse order. -/
theorem Arranged.insert_operations {waiting applied rest : List Token} {blocks : List (List Token)}
    (hwaiting : Bind 0 waiting) (happlied : Bind 0 applied)
    (h : Arranged (waiting.reverse ++ rest) blocks) :
    Arranged ((applied ++ waiting).reverse ++ rest)
      (applied.map (fun token => [token]) ++ blocks) := by
  induction applied with
  | nil => exact h
  | cons token applied ih =>
    obtain ⟨⟨op, htoken, _⟩, happlied⟩ := List.forall_mem_cons.1 happlied
    have hops : Bind 0 (applied ++ waiting) := List.forall_mem_append.2 ⟨happlied, hwaiting⟩
    have hop := @Arranged.insert [token] [token] rest _ _
      (fun hrest => @Arranged.operation op token _ [] _ htoken hrest) hops.reverse (ih happlied)
    simpa using hop

/-- No parenthesis comes into the program. -/
theorem Arranged.not_parenthesis {tokens : List Token} {blocks : List (List Token)}
    (h : Arranged tokens blocks) :
    ∀ token ∈ blocks.flatten, token.lexeme.isParenthesis = false := by
  induction h with
  | nil => nofun
  | @operand token _ _ hoperand _ ih =>
    have htoken : token.lexeme.isParenthesis = false := by
      cases hlexeme : token.lexeme with
      | opens | closes =>
        rw [hlexeme] at hoperand
        cases hoperand
      | _ => rfl
    exact List.forall_mem_cons.2 ⟨htoken, ih⟩
  | @operation op token _ _ _ hop _ ih =>
    have htoken : token.lexeme.isParenthesis = false := by
      rw [hop]
      cases op <;> rfl
    rw [List.flatten_append] at ih ⊢
    obtain ⟨hfront, hbehind⟩ := List.forall_mem_append.1 ih
    exact List.forall_mem_append.2 ⟨hfront, List.forall_mem_cons.2 ⟨htoken, hbehind⟩⟩
  | paren _ _ _ _ ihInside ihRest =>
    rw [List.flatten_cons]
    exact List.forall_mem_append.2 ⟨ihInside, ihRest⟩

/-- The parentheses of a part match. -/
theorem Arranged.balanced {tokens : List Token} {blocks : List (List Token)}
    (h : Arranged tokens blocks) : Lexeme.Balanced (tokens.map Token.lexeme) := by
  induction h with
  | nil => exact .nil
  | operand hoperand _ ih => exact .operand hoperand ih
  | operation hop _ ih =>
    rw [List.map_cons, hop]
    exact .operation ih
  | paren hopening hclosing _ _ ihInside ihRest =>
    rw [List.map_cons, List.map_append, List.map_cons, hopening, hclosing]
    exact .paren ihInside ihRest

/-! ### Reading parts

A part is read from a floor, which is the end of the stack or an open parenthesis, with
operations waiting above it.  These stand earlier in the text than what is read, and come out
later or not at all. -/

/-- Nothing waits here, or an open parenthesis. -/
def Floor (lower : List Token) : Prop := ∀ token ∈ lower.head?, token.lexeme = .opens

/-- A part ends here. -/
def Closed (rest : List Token) : Prop := ∀ token ∈ rest.head?, token.lexeme = .closes

variable {text : String}

/-- What was put in front of a program may be put there in two steps. -/
theorem map_ok_append (us vs : List Token) (x : Except Error (List Token)) :
    (x.map (vs ++ ·)).map (us ++ ·) = x.map (us ++ vs ++ ·) := by
  rw [map_map]
  simp only [List.append_assoc]

/-- At the end of a part all its waiting operations are applied. -/
theorem postfixFrom_closed {ops lower rest : List Token} (hops : Bind 0 ops)
    (hclosed : Closed rest) :
    postfixFrom text (ops ++ lower) rest = (postfixFrom text lower rest).map (ops ++ ·) := by
  cases rest with
  | nil =>
    have hnone : ops.find? (·.lexeme.isOpening) = none := by
      apply List.find?_eq_none.2
      intro token htoken
      simpa using hops.not_isOpening token htoken
    rw [postfixFrom, postfixFrom, List.find?_append, hnone, Option.none_or]
    split <;> rfl
  | cons closing behind =>
    rw [postfixFrom, postfixFrom, hclosed closing rfl]
    simp only [List.takeWhile_append_of_pos hops.not_isOpening,
      List.dropWhile_append_of_pos hops.not_isOpening]
    split
    · rfl
    · exact (map_ok_append _ _ _).symm

/-- Only operations give way to an operation, the latest first. -/
theorem takeWhile_overtaken_of_floor {op : Operation} {ops lower : List Token}
    (hfloor : Floor lower) :
    (ops ++ lower).takeWhile op.overtaken = ops.takeWhile op.overtaken ∧
      (ops ++ lower).dropWhile op.overtaken = ops.dropWhile op.overtaken ++ lower := by
  apply takeWhile_dropWhile_append_stop
  intro token htoken
  unfold Operation.overtaken
  rw [hfloor token htoken]
  rfl

/-- Reading starts with a part, of which the operations that were waiting are the front, and goes on
with what waits below them. -/
def ReadsPart (text : String) (ops lower tokens out : List Token) : Prop :=
  ∃ here rest blocks more, tokens = here ++ rest ∧ Closed rest ∧
    Arranged (ops.reverse ++ here) blocks ∧ out = blocks.flatten ++ more ∧
    postfixFrom text lower rest = .ok more

theorem readsPart_closed {ops lower tokens out : List Token} (hops : Bind 0 ops)
    (hclosed : Closed tokens) (h : postfixFrom text (ops ++ lower) tokens = .ok out) :
    ReadsPart text ops lower tokens out := by
  rw [postfixFrom_closed hops hclosed] at h
  obtain ⟨more, hmore, rfl⟩ := map_eq_ok_iff.1 h
  have hpart := @Arranged.insert_operations [] ops [] [] (List.forall_mem_nil _) hops .nil
  rw [List.append_nil ops, List.append_nil] at hpart
  refine ⟨[], tokens, _, more, rfl, hclosed, by rwa [List.append_nil], ?_, hmore⟩
  rw [List.append_nil, ← List.flatMap_def, List.flatMap_singleton']

/-- An operand is read in front of a part. -/
theorem ReadsPart.operand {ops lower us program tokens out : List Token}
    (hinsert : ∀ {rest blocks}, Arranged rest blocks → Arranged (us ++ rest) (program :: blocks))
    (hops : Bind 0 ops) (h : ReadsPart text ops lower tokens out) :
    ReadsPart text ops lower (us ++ tokens) (program ++ out) := by
  obtain ⟨here, rest, blocks, more, rfl, hclosed, hpart, rfl, hmore⟩ := h
  refine ⟨us ++ here, rest, program :: blocks, more, (List.append_assoc ..).symm, hclosed,
    hpart.insert hinsert hops.reverse, ?_, hmore⟩
  rw [List.flatten_cons, List.append_assoc]

/-- An operation is read, on which those on top of the stack are applied. -/
theorem ReadsPart.operation {token : Token} {top bottom lower tokens out : List Token}
    (htop : Bind 0 top) (hbottom : Bind 0 bottom)
    (h : ReadsPart text (token :: bottom) lower tokens out) :
    ReadsPart text (top ++ bottom) lower (token :: tokens) (top ++ out) := by
  obtain ⟨here, rest, blocks, more, rfl, hclosed, hpart, rfl, hmore⟩ := h
  -- The operation itself is no longer among those that wait in front, but first in the part.
  have hpart : Arranged (bottom.reverse ++ token :: here) blocks := by simpa using hpart
  refine ⟨token :: here, rest, _, more, rfl, hclosed, hpart.insert_operations hbottom htop, ?_,
    hmore⟩
  rw [List.flatten_append, ← List.flatMap_def, List.flatMap_singleton', List.append_assoc]

/-- What is read up to the end of a part is arranged as one, together with the operations that were
waiting, which go in front. -/
theorem readsPart {ops lower tokens out : List Token} (hops : Bind 0 ops) (hfloor : Floor lower)
    (h : postfixFrom text (ops ++ lower) tokens = .ok out) :
    ReadsPart text ops lower tokens out := by
  -- By induction on the number of tokens: a part in parentheses is read as a whole, and reading
  -- goes on behind it.
  induction hn : tokens.length using Nat.strongRecOn generalizing ops lower tokens out with
  | ind n ih =>
    cases tokens with
    | nil => exact readsPart_closed hops nofun h
    | cons token rest =>
      have hlt : rest.length < n := by simp [← hn]
      obtain hoperand | ⟨op, hop⟩ | hopens | hcloses := token.lexeme.sorts
      · rw [postfixFrom_operand hoperand] at h
        obtain ⟨out, hout, rfl⟩ := map_eq_ok_iff.1 h
        exact @ReadsPart.operand _ ops lower [token] [token] rest out
          (fun hrest => .operand hoperand hrest) hops (ih rest.length hlt hops hfloor hout rfl)
      · obtain ⟨htake, hdrop⟩ := @takeWhile_overtaken_of_floor op ops lower hfloor
        rw [postfixFrom_operation hop, htake, hdrop] at h
        obtain ⟨out, hout, rfl⟩ := map_eq_ok_iff.1 h
        -- Those above the first that stays come out, and the new one waits on top of that.
        have htop : Bind 0 (ops.takeWhile op.overtaken) := fun token htoken =>
          hops token ((List.takeWhile_sublist _).mem htoken)
        have hbottom : Bind 0 (ops.dropWhile op.overtaken) := fun token htoken =>
          hops token ((List.dropWhile_sublist _).mem htoken)
        have hpending : Bind 0 (token :: ops.dropWhile op.overtaken) :=
          List.forall_mem_cons.2 ⟨⟨op, hop, Nat.zero_le _⟩, hbottom⟩
        have hread := (ih rest.length hlt hpending hfloor hout rfl).operation htop hbottom
        rwa [List.takeWhile_append_dropWhile] at hread
      · rw [postfixFrom_opens hopens] at h
        have hlower : Floor (token :: (ops ++ lower)) := by
          rintro _ ⟨⟩
          exact hopens
        obtain ⟨inside, tail, inner, more, rfl, hclosed, hpart, rfl, hmore⟩ :=
          @ih rest.length hlt [] _ rest out (List.forall_mem_nil _) hlower h rfl
        cases tail with
        | nil =>
          -- The text may not end while the parenthesis is open.
          simp [postfixFrom, Lexeme.isOpening, hopens] at hmore
        | cons closing behind =>
          have hcloses := hclosed closing rfl
          have hclose := @postfixFrom_closes closing token [] hcloses (List.forall_mem_nil _) hopens
            text (ops ++ lower) behind
          rw [List.nil_append] at hclose
          rw [hclose] at hmore
          obtain ⟨more, hbehind, rfl⟩ := map_eq_ok_iff.1 hmore
          have hread := @ReadsPart.operand _ ops lower (token :: (inside ++ [closing]))
            inner.flatten behind more
            (fun hrest => by simpa using Arranged.paren hopens hcloses hpart hrest) hops
            (ih behind.length (by simp at hlt; omega) hops hfloor hbehind rfl)
          simpa using hread
      · refine readsPart_closed hops ?_ h
        rintro _ ⟨⟩
        exact hcloses

/-- The postfix order of a text arranges its tokens. -/
theorem arranged_of_toPostfix {tokens program : List Token}
    (h : toPostfix text tokens = .ok program) :
    ∃ blocks, Arranged tokens blocks ∧ program = blocks.flatten := by
  obtain ⟨here, rest, blocks, more, rfl, hclosed, hpart, rfl, hmore⟩ :=
    @readsPart text [] [] tokens program (List.forall_mem_nil _) nofun h
  cases rest with
  | nil =>
    cases hmore
    exact ⟨blocks, by simpa using hpart, List.append_nil _⟩
  | cons closing behind =>
    -- With nothing waiting, no parenthesis can have ended the part.
    rw [postfixFrom, hclosed closing rfl] at hmore
    cases hmore

end Token

/-- What is parsed into a unit is put into postfix order and leaves one operand. -/
theorem run_of_parse {given : String} {unit : MeasureUnit}
    (hblank : ¬Spelling.IsBlankText given.toList) (h : parse given = .ok unit) :
    ∃ tokens program operand, Token.scan (Spelling.normalize given.toList) = .ok tokens ∧
      Token.toPostfix (String.ofList (Spelling.normalize given.toList)) tokens = .ok program ∧
      program.foldlM (Operand.step (String.ofList (Spelling.normalize given.toList))) [] =
        .ok [operand] ∧
      ofStack given (String.ofList (Spelling.normalize given.toList)) [operand] = .ok unit := by
  rw [← Spelling.normalize_eq_nil_iff] at hblank
  unfold parse at h
  simp only [List.isEmpty_iff, hblank, if_false] at h
  obtain ⟨tokens, hscan, h⟩ := bind_eq_ok_iff.1 h
  obtain ⟨program, hordered, h⟩ := bind_eq_ok_iff.1 h
  obtain ⟨stack, hrun, h⟩ := bind_eq_ok_iff.1 h
  obtain _ | ⟨operand, _ | ⟨other, stack⟩⟩ := stack
  · cases h
  · exact ⟨tokens, program, operand, hscan, hordered, hrun, h⟩
  · cases h

theorem byKind_eq_ok_iff {α : Type} {x : Except Error α} {a : α} :
    byKind x = .ok a ↔ x = .ok a := by
  cases x with
  | error e => exact ⟨nofun, nofun⟩
  | ok b =>
    constructor
    · rintro ⟨⟩
      rfl
    · rintro ⟨⟩
      rfl

/-- The tree whose postorder is run comes to the unit that is left.  Only the places in errors
differ, and there is none. -/
theorem unit_of_run {given normal : String} {program : List Token} {t : Tree} {operand : Operand}
    {unit : MeasureUnit} (ht : program.map Token.lexeme = t.postorder)
    (hrun : program.foldlM (Operand.step normal) [] = .ok [operand])
    (hunit : ofStack given normal [operand] = .ok unit) : t.unit given = .ok unit := by
  have heval := foldlM_step_postorder ht normal []
  rw [hrun] at heval
  obtain ⟨x, hx, hstack⟩ := bind_eq_ok_iff.1 heval.symm
  cases hstack
  have hkind := byKind_ofStack given normal t
  rw [hx] at hkind
  exact byKind_eq_ok_iff.1 (hkind.symm.trans (congrArg byKind hunit))

/-- **What is parsed into a unit is one tree**: the program of the text arranges its tokens and is
the postorder of exactly one tree, which comes to the unit.  The text is a sentence of the unit
grammar if and only if its neighbours fit. -/
theorem arranged_of_parse {given : String} {unit : MeasureUnit}
    (hblank : ¬Spelling.IsBlankText given.toList) (h : parse given = .ok unit) :
    ∃ tokens program blocks t,
      Token.scan (Spelling.normalize given.toList) = .ok tokens ∧
      Token.toPostfix (String.ofList (Spelling.normalize given.toList)) tokens = .ok program ∧
      Token.Arranged tokens blocks ∧ program = blocks.flatten ∧
      program.map Token.lexeme = t.postorder ∧
      (∀ u : Tree, program.map Token.lexeme = u.postorder → u = t) ∧
      t.unit given = .ok unit ∧
      (Lexeme.Sentence (tokens.map Token.lexeme) ↔
        Lexeme.fits true (tokens.map Token.lexeme) = true) := by
  obtain ⟨tokens, program, operand, hscan, hordered, hrun, hunit⟩ := run_of_parse hblank h
  obtain ⟨blocks, harranged, rfl⟩ := Token.arranged_of_toPostfix hordered
  obtain ⟨t, ht⟩ := eq_postorder_of_run hrun harranged.not_parenthesis
  refine ⟨tokens, _, blocks, t, hscan, hordered, harranged, rfl, ht, ?_, unit_of_run ht hrun hunit,
    Lexeme.sentence_iff_fits harranged.balanced⟩
  intro u hu
  exact Tree.postorder_injective (hu.symm.trans ht)

/-- `m(s)*`: the product sign stands behind both of its operands. -/
theorem arranged_product_behind_units :
    ∃ unit, parse "m(s)*" = .ok unit ∧
      ∃ tokens program blocks t,
        Token.scan (Spelling.normalize "m(s)*".toList) = .ok tokens ∧
        Token.toPostfix (String.ofList (Spelling.normalize "m(s)*".toList)) tokens = .ok program ∧
        Token.Arranged tokens blocks ∧ program = blocks.flatten ∧
        program.map Token.lexeme = t.postorder ∧
        (∀ u : Tree, program.map Token.lexeme = u.postorder → u = t) ∧
        t.unit "m(s)*" = .ok unit ∧
        (Lexeme.Sentence (tokens.map Token.lexeme) ↔
          Lexeme.fits true (tokens.map Token.lexeme) = true) := by
  have hnormal : Spelling.normalize "m(s)*".toList = ['m', '(', 's', ')', '*'] := by cbv
  have hblank : ¬Spelling.IsBlankText "m(s)*".toList := by
    rw [← Spelling.normalize_eq_nil_iff, hnormal]
    exact List.cons_ne_nil _ _
  obtain ⟨unit, hparse⟩ : ∃ unit, parse "m(s)*" = .ok unit := by
    open Token in
    rw [parse_of_toPostfix hnormal (List.cons_ne_nil _ _)
      (scanFrom_cons rfl (scanFrom_cons rfl (scanFrom_cons rfl (scanFrom_cons rfl (scanFrom_cons rfl
        (scanFrom_nil _ _ _)))))) rfl]
    exact ⟨_, rfl⟩
  exact ⟨unit, hparse, arranged_of_parse hblank hparse⟩

end Dimensional.MeasureUnit
