import Dimensional.Proofs.Formula.Scanned
import Dimensional.Proofs.Formula.Sentence
import Dimensional.Proofs.Formula.Value
import Dimensional.Proofs.Formula.Written

/-!
# What formulas that evaluate look like

A formula that evaluates need not be a sentence of the infix grammar, but its text is arranged like
one as far as nesting and order go (`Group`, `Part`, `Block`).  Parentheses match, commas stand
inside them and calls in front of them, operands come into the program in their order, and each
operator comes at its place or further behind, but in the part of the text that it stands in.

Main statement: `arranged_of_evaluate` — the program of such a formula arranges its tokens in this
way and is the postorder of exactly one tree, whose value is the value of the formula.
-/

namespace Dimensional.Formula

namespace Token

/-! ### Arrangements

The three notions follow the nesting of parentheses.  A part is kept in blocks and not as one
list, since an operator may move behind any number of operands but never into the middle of one
that is in parentheses. -/

mutual

/-- The tokens are one operand and come into the program as they are listed: a number, a name, or
parentheses, maybe with a call in front of them that is applied right behind what they hold. -/
inductive Block : List Token → List Token → Prop where
  | number {value : Float} {unitText : String} :
      Block [.number value unitText] [.number value unitText]
  | name {path unitText : String} : Block [.name path unitText] [.name path unitText]
  | paren {tokens program : List Token} :
      Group tokens program → Block (.leftParen :: (tokens ++ [.rightParen])) program
  | call {callee : Callee} {arity : Int} {tokens program : List Token} :
      Group tokens program →
      Block (.call callee arity :: .leftParen :: (tokens ++ [.rightParen]))
        (program ++ [.call callee arity])

/-- The tokens are operands and operators, in the program the same operands in the same order, and
every operator at its place or further behind. -/
inductive Part : List Token → List (List Token) → Prop where
  | nil : Part [] []
  | block {tokens program rest : List Token} {blocks : List (List Token)} :
      Block tokens program → Part rest blocks → Part (tokens ++ rest) (program :: blocks)
  | operator {op : Operator} {rest : List Token} {front behind : List (List Token)} :
      Part rest (front ++ behind) →
      Part (.operator op :: rest) (front ++ [.operator op] :: behind)

/-- The tokens are parts with commas between them, and the program is that of one part after the
other. -/
inductive Group : List Token → List Token → Prop where
  | part {tokens : List Token} {blocks : List (List Token)} :
      Part tokens blocks → Group tokens blocks.flatten
  | comma {tokens rest program : List Token} {blocks : List (List Token)} :
      Part tokens blocks → Group rest program →
      Group (tokens ++ .comma :: rest) (blocks.flatten ++ program)

end

/-- Operands do not start with an operator. -/
theorem Block.ne_operator {op : Operator} {tokens program rest rest' : List Token}
    (h : Block tokens program) : tokens ++ rest ≠ .operator op :: rest' := by
  intro heq
  cases h <;> simp at heq

theorem part_operator_cons {op : Operator} {rest : List Token} {blocks : List (List Token)}
    (h : Part (.operator op :: rest) blocks) :
    ∃ front behind, blocks = front ++ [.operator op] :: behind ∧ Part rest (front ++ behind) := by
  generalize htokens : Token.operator op :: rest = tokens at h
  cases h with
  | nil => cases htokens
  | block hblock _ => exact absurd htokens.symm hblock.ne_operator
  | operator hrest =>
    cases htokens
    exact ⟨_, _, rfl, hrest⟩

/-- What may stand in front of a part may also stand behind the operators that it starts with.
Its block then comes in front of theirs, since operators come at their place or further behind.
-/
theorem Part.insert {us program rest : List Token} {ops : List Operator}
    {blocks : List (List Token)}
    (hinsert : ∀ {rest blocks}, Part rest blocks → Part (us ++ rest) (program :: blocks))
    (h : Part (ops.map .operator ++ rest) blocks) :
    Part (ops.map .operator ++ (us ++ rest)) (program :: blocks) := by
  induction ops generalizing blocks with
  | nil => exact hinsert h
  -- An operator in front is followed by all that it may move behind, and by the new block before
  -- those.
  | cons op ops ih =>
    obtain ⟨front, behind, rfl, hrest⟩ := part_operator_cons h
    exact @Part.operator _ _ (program :: front) behind (ih hrest)

/-- Operators that were applied at once stand in the text in reverse order. -/
theorem Part.insert_operators {waiting applied : List Operator} {rest : List Token}
    {blocks : List (List Token)} (h : Part (waiting.reverse.map .operator ++ rest) blocks) :
    Part ((applied ++ waiting).reverse.map .operator ++ rest)
      (applied.map (fun op => [.operator op]) ++ blocks) := by
  induction applied with
  | nil => exact h
  | cons op applied ih =>
    have hop := @Part.insert [.operator op] [.operator op] rest
      (applied ++ waiting).reverse _ (fun hrest => @Part.operator op _ [] _ hrest) ih
    simpa using hop

/-! ### Reading parts

The machine is read from a state in which operators wait on top of a floor, the end of the text
or an open parenthesis.  What is read from there to the end of the part is arranged as a part
with these operators in front: they were met earlier in the text and come out later. -/

open Pending

/-- Nothing waits here, or an open parenthesis. -/
def Floor (lower : List Pending) : Prop := lower = [] ∨ ∃ waiting, lower = .paren :: waiting

/-- A part ends here. -/
def Closed (rest : List Token) : Prop :=
  rest = [] ∨ ∃ behind, rest = .comma :: behind ∨ rest = .rightParen :: behind

theorem noParen_map_operator (ops : List Operator) : NoParen (ops.map .operator) := by
  intro x hx
  obtain ⟨op, _, rfl⟩ := List.mem_map.1 hx
  rfl

theorem map_token_operator (ops : List Operator) :
    (ops.map Pending.operator).map Pending.token = ops.map Token.operator := by
  rw [List.map_map]
  rfl

/-- Where an operator waits on the floor, or nothing at all, no call waits for parentheses to
close. -/
theorem called_eq {ops : List Operator} {lower : List Pending} (h : Floor lower) :
    called (ops.map .operator ++ lower) = ([], ops.map .operator ++ lower) := by
  cases ops with
  | nil => rcases h with rfl | ⟨waiting, rfl⟩ <;> rfl
  | cons op ops => rfl

/-- Only operators give way to an operator, the latest first. -/
theorem yielding_eq_ok {incoming : Operator} {ops : List Operator} {lower waiting : List Pending}
    {applied : List Token} (hfloor : Floor lower)
    (h : yielding incoming (ops.map .operator ++ lower) = .ok (applied, waiting)) :
    ∃ top bottom, ops = top ++ bottom ∧ applied = top.map .operator ∧
      waiting = bottom.map .operator ++ lower := by
  induction ops generalizing applied with
  | nil =>
    refine ⟨[], [], rfl, ?_⟩
    rcases hfloor with rfl | ⟨below, rfl⟩
    · cases h
      exact ⟨rfl, rfl⟩
    · cases h
      exact ⟨rfl, rfl⟩
  | cons op ops ih =>
    rw [List.map_cons, List.cons_append, yielding] at h
    obtain ⟨gives, _, h⟩ := Fallible.bind_eq_ok_iff.1 h
    split at h
    · obtain ⟨⟨more, waiting'⟩, hmore, h⟩ := Fallible.bind_eq_ok_iff.1 h
      cases h
      obtain ⟨top, bottom, rfl, rfl, rfl⟩ := ih hmore
      exact ⟨op :: top, bottom, rfl, rfl, rfl⟩
    · cases h
      exact ⟨[], op :: ops, rfl, rfl, rfl⟩

/-- At the end of the text all waiting operators are applied, and nothing else may wait. -/
theorem postfixFrom_nil {text : String} {ops : List Operator} {lower : List Pending}
    {out : List Token} (hfloor : Floor lower)
    (h : postfixFrom text (ops.map .operator ++ lower) [] = .ok out) :
    lower = [] ∧ out = ops.map .operator := by
  rw [postfixFrom] at h
  split at h
  · cases h
  · next hopen =>
    cases h
    rcases hfloor with rfl | ⟨waiting, rfl⟩
    · rw [List.append_nil, map_token_operator]
      exact ⟨rfl, rfl⟩
    · exact absurd (by simp [isParen]) hopen

/-- At the end of a part all its waiting operators are applied. -/
theorem postfixFrom_closed {text : String} {ops : List Operator} {lower : List Pending}
    {rest out : List Token} (hfloor : Floor lower) (hclosed : Closed rest)
    (h : postfixFrom text (ops.map .operator ++ lower) rest = .ok out) :
    ∃ more, postfixFrom text lower rest = .ok more ∧ out = ops.map .operator ++ more := by
  have hops := noParen_map_operator ops
  have hnone : around (ops.map Pending.operator ++ []) = [] := by
    rw [List.append_nil, around_eq_nil hops]
  rcases hclosed with rfl | ⟨behind, rfl | rfl⟩
  · obtain ⟨rfl, rfl⟩ := postfixFrom_nil hfloor h
    exact ⟨[], rfl, (List.append_nil _).symm⟩
  · rcases hfloor with rfl | ⟨waiting, rfl⟩
    · rw [postfixFrom, hnone] at h
      cases h
    · rw [postfixFrom_comma hops] at h
      obtain ⟨more, hmore, rfl⟩ := Fallible.map_eq_ok_iff.1 h
      refine ⟨more, ?_, by rw [map_token_operator]⟩
      have hlower := postfixFrom_comma noParen_nil text waiting behind
      rw [List.nil_append, hmore] at hlower
      exact hlower
  · rcases hfloor with rfl | ⟨waiting, rfl⟩
    · rw [postfixFrom, hnone] at h
      cases h
    · rw [postfixFrom_rightParen hops] at h
      obtain ⟨more, hmore, rfl⟩ := Fallible.map_eq_ok_iff.1 h
      refine ⟨(called waiting).1 ++ more, ?_, ?_⟩
      · have hlower := postfixFrom_rightParen noParen_nil text waiting behind
        rw [List.nil_append, hmore] at hlower
        exact hlower
      · rw [map_token_operator, List.append_assoc]

theorem CallsOpen.tail {token : Token} {rest : List Token} (h : CallsOpen (token :: rest)) :
    CallsOpen rest := by
  cases token with
  | call => exact h.2
  | number | name | operator | leftParen | rightParen | comma | foreign => exact h

theorem callsOpen_of_append {before behind : List Token} (h : CallsOpen (before ++ behind)) :
    CallsOpen behind := by
  induction before with
  | nil => exact h
  | cons token before ih => exact ih h.tail

variable {text : String}

/-- Reading starts with a part, of which the operators that were waiting are the front, and goes on
with what waits below them. -/
def ReadsPart (text : String) (ops : List Operator) (lower : List Pending)
    (tokens out : List Token) : Prop :=
  ∃ here rest blocks more, tokens = here ++ rest ∧ Closed rest ∧
    Part (ops.reverse.map .operator ++ here) blocks ∧ out = blocks.flatten ++ more ∧
    postfixFrom text lower rest = .ok more

/-- Reading starts with a group and the parenthesis behind it, and goes on with what waits outside;
a call that waits there is applied to the group. -/
def ReadsGroup (text : String) (waiting : List Pending) (tokens out : List Token) : Prop :=
  ∃ inside rest program more, tokens = inside ++ .rightParen :: rest ∧ Group inside program ∧
    out = program ++ (called waiting).1 ++ more ∧
    postfixFrom text (called waiting).2 rest = .ok more

theorem flatten_map_singleton (ops : List Operator) :
    (ops.map fun op => [Token.operator op]).flatten = ops.map .operator := by
  induction ops with
  | nil => rfl
  | cons op ops ih =>
    rw [List.map_cons, List.flatten_cons, ih, List.singleton_append, List.map_cons]

theorem readsPart_closed {ops : List Operator} {lower : List Pending} {tokens out : List Token}
    (hfloor : Floor lower) (hclosed : Closed tokens)
    (h : postfixFrom text (ops.map .operator ++ lower) tokens = .ok out) :
    ReadsPart text ops lower tokens out := by
  obtain ⟨more, hmore, rfl⟩ := postfixFrom_closed hfloor hclosed h
  have hpart := @Part.insert_operators [] ops [] [] .nil
  rw [List.append_nil ops] at hpart
  refine ⟨[], tokens, _, more, rfl, hclosed, hpart, ?_, hmore⟩
  rw [List.append_nil, flatten_map_singleton]

theorem ReadsPart.block {ops : List Operator} {lower : List Pending}
    {us program tokens out : List Token} (hblock : Block us program)
    (h : ReadsPart text ops lower tokens out) :
    ReadsPart text ops lower (us ++ tokens) (program ++ out) := by
  obtain ⟨here, rest, blocks, more, rfl, hclosed, hpart, rfl, hmore⟩ := h
  refine ⟨us ++ here, rest, program :: blocks, more, (List.append_assoc ..).symm, hclosed, ?_, ?_,
    hmore⟩
  · exact hpart.insert fun hrest => .block hblock hrest
  · rw [List.flatten_cons, List.append_assoc]

theorem ReadsPart.operator {op : Operator} {top bottom : List Operator} {lower : List Pending}
    {tokens out : List Token} (h : ReadsPart text (op :: bottom) lower tokens out) :
    ReadsPart text (top ++ bottom) lower (.operator op :: tokens) (top.map .operator ++ out) := by
  obtain ⟨here, rest, blocks, more, rfl, hclosed, hpart, rfl, hmore⟩ := h
  -- The operator itself is no longer among those that wait in front, but first in the part.
  have hpart : Part (bottom.reverse.map .operator ++ .operator op :: here) blocks := by
    simpa using hpart
  refine ⟨.operator op :: here, rest, _, more, rfl, hclosed, hpart.insert_operators, ?_, hmore⟩
  rw [List.flatten_append, flatten_map_singleton, List.append_assoc]

/-- Parts with commas between them make up a group.  Part after part is read, up to the
parenthesis that closes the group. -/
theorem readsGroup {waiting : List Pending} {tokens out : List Token}
    (hread : ∀ ts out, ts.length ≤ tokens.length → CallsOpen ts →
      postfixFrom text (.paren :: waiting) ts = .ok out →
      ReadsPart text [] (.paren :: waiting) ts out)
    (hcalls : CallsOpen tokens) (h : postfixFrom text (.paren :: waiting) tokens = .ok out) :
    ReadsGroup text waiting tokens out := by
  induction hn : tokens.length using Nat.strongRecOn generalizing tokens out with
  | ind n ih =>
    obtain ⟨here, rest, blocks, more, rfl, hclosed, hpart, rfl, hmore⟩ :=
      hread tokens out (Nat.le_refl _) hcalls h
    rcases hclosed with rfl | ⟨behind, rfl | rfl⟩
    · -- The text may not end while the parenthesis is open.
      cases hmore
    -- A comma ends the part and the group goes on, with the same parenthesis open.
    · have hcomma := postfixFrom_comma noParen_nil text waiting behind
      rw [List.nil_append] at hcomma
      rw [hcomma] at hmore
      obtain ⟨left, hleft, rfl⟩ := Fallible.map_eq_ok_iff.1 hmore
      have hlt : behind.length < (here ++ .comma :: behind).length := by
        rw [List.length_append, List.length_cons]
        omega
      have hbehind : CallsOpen behind := (callsOpen_of_append hcalls).tail
      obtain ⟨inside, rest, program, final, rfl, hgroup, rfl, hfinal⟩ :=
        ih behind.length (hn ▸ hlt)
          (fun ts out hle => hread ts out (Nat.le_trans hle (Nat.le_of_lt hlt))) hbehind hleft rfl
      exact ⟨here ++ .comma :: inside, rest, _, final, by simp, .comma hpart hgroup, by simp,
        hfinal⟩
    -- The parenthesis ends the part and the group.
    · have hclose := postfixFrom_rightParen noParen_nil text waiting behind
      rw [List.nil_append] at hclose
      rw [hclose] at hmore
      obtain ⟨left, hleft, rfl⟩ := Fallible.map_eq_ok_iff.1 hmore
      exact ⟨here, behind, _, left, rfl, .part hpart, by simp, hleft⟩

/-- What is read up to the end of a part is arranged as one, together with the operators that were
waiting, which go in front. -/
theorem readsPart {ops : List Operator} {lower : List Pending} {tokens out : List Token}
    (hcalls : CallsOpen tokens) (hfloor : Floor lower)
    (h : postfixFrom text (ops.map .operator ++ lower) tokens = .ok out) :
    ReadsPart text ops lower tokens out := by
  -- By induction on the number of tokens: a group in parentheses is read as a whole, and reading
  -- goes on behind it.
  induction hn : tokens.length using Nat.strongRecOn generalizing ops lower tokens out with
  | ind n ih =>
    cases tokens with
    | nil => exact readsPart_closed hfloor (.inl rfl) h
    | cons token rest =>
      have hrest : CallsOpen rest := hcalls.tail
      have hlt : rest.length < n := by simp [← hn]
      have hparts : ∀ waiting ts out, ts.length ≤ rest.length → CallsOpen ts →
          postfixFrom text (.paren :: waiting) ts = .ok out →
          ReadsPart text [] (.paren :: waiting) ts out := by
        intro waiting ts out hle hts hout
        exact @ih ts.length (Nat.lt_of_le_of_lt hle hlt) [] _ ts out hts (.inr ⟨waiting, rfl⟩) hout
          rfl
      cases token with
      | comma => exact readsPart_closed hfloor (.inr ⟨rest, .inl rfl⟩) h
      | rightParen => exact readsPart_closed hfloor (.inr ⟨rest, .inr rfl⟩) h
      | foreign => cases h
      | number value unitText =>
        obtain ⟨out, hout, rfl⟩ := Fallible.map_eq_ok_iff.1 h
        exact (ih rest.length hlt hrest hfloor hout rfl).block .number
      | name path unitText =>
        obtain ⟨out, hout, rfl⟩ := Fallible.map_eq_ok_iff.1 h
        exact (ih rest.length hlt hrest hfloor hout rfl).block .name
      -- Those that give way come out at once, and this one waits in their place.
      | operator op =>
        obtain ⟨⟨applied, waiting⟩, hyielding, h⟩ := Fallible.bind_eq_ok_iff.1 h
        obtain ⟨top, bottom, rfl, rfl, rfl⟩ := yielding_eq_ok hfloor hyielding
        obtain ⟨out, hout, rfl⟩ := Fallible.map_eq_ok_iff.1 h
        exact (@ih rest.length hlt (op :: bottom) lower rest out hrest hfloor hout rfl).operator
      | leftParen =>
        obtain ⟨inside, behind, program, more, rfl, hgroup, rfl, hmore⟩ :=
          readsGroup (hparts _) hrest h
        rw [called_eq hfloor] at hmore ⊢
        have hbehind := ih behind.length (by simp at hlt; omega) (callsOpen_of_append hrest).tail
          hfloor hmore rfl
        simpa using hbehind.block (.paren hgroup)
      | call callee arity =>
        -- A call is read together with the parentheses behind it.
        obtain ⟨rest, rfl⟩ : ∃ rest', rest = .leftParen :: rest' :=
          List.head?_eq_some_iff.1 hcalls.1
        obtain ⟨inside, behind, program, more, rfl, hgroup, rfl, hmore⟩ :=
          readsGroup (fun ts out hle => hparts _ ts out (Nat.le_succ_of_le hle)) hrest.tail h
        have hbehind := ih behind.length (by simp at hlt; omega)
          (callsOpen_of_append hrest.tail).tail hfloor hmore rfl
        simpa [called] using hbehind.block (.call hgroup)

/-- The postfix order of a text arranges its tokens. -/
theorem arranged_of_toPostfix {tokens program : List Token} (hcalls : CallsOpen tokens)
    (h : toPostfix tokens text = .ok program) :
    ∃ blocks, Part tokens blocks ∧ program = blocks.flatten := by
  obtain ⟨here, rest, blocks, more, rfl, hclosed, hpart, rfl, hmore⟩ :=
    @readsPart text [] [] tokens program hcalls (.inl rfl) h
  -- With nothing waiting, neither a comma nor a parenthesis can have ended the part.
  rcases hclosed with rfl | ⟨behind, rfl | rfl⟩
  · cases hmore
    exact ⟨blocks, by simpa using hpart, List.append_nil _⟩
  · cases hmore
  · cases hmore

end Token

/-- **What evaluates is one tree**: the program of a formula that evaluates arranges the tokens of
its text and is the postorder of exactly one tree, and the formula evaluates as this tree does. -/
theorem arranged_of_evaluate {text : String} {f : Formula} {settings : Except Error Settings}
    {context : Context} {q : Quantity} (hf : compile text = .ok f)
    (hq : (evaluate settings f context).result = .ok q) :
    ∃ tokens blocks t, Token.scan text = .ok tokens ∧ Token.Part tokens blocks ∧
      f.program = blocks.flatten ∧ f.program = t.postorder ∧
      (∀ u : Tree, f.program = u.postorder → u = t) ∧
      evaluate settings f context = t.evaluate settings context := by
  obtain ⟨tokens, htokens, hf⟩ := Fallible.bind_eq_ok_iff.1 hf
  obtain ⟨program, hprogram, hf⟩ := Fallible.bind_eq_ok_iff.1 hf
  cases hf
  obtain ⟨blocks, hpart, hblocks⟩ :=
    Token.arranged_of_toPostfix (Token.callsOpen_of_scan htokens) hprogram
  obtain ⟨t, ht⟩ := eq_postorder_of_evaluate hq
  simp only at ht
  subst ht
  refine ⟨tokens, blocks, t, htokens, hpart, hblocks, rfl, ?_, ?_⟩
  · intro u hu
    exact Tree.postorder_injective hu.symm
  · exact evaluate_eq_tree settings t text _ context

/-- `x(-)`, where the sign stands behind its operand. -/
theorem arranged_sign_behind_name :
    ∃ f q, compile "x(-)" = .ok f ∧
      (evaluate (.ok {}) f (.table ⟨[("x", .scalar 2.5)]⟩)).result = .ok q ∧
      ∃ tokens blocks t, Token.scan "x(-)" = .ok tokens ∧ Token.Part tokens blocks ∧
        f.program = blocks.flatten ∧ f.program = t.postorder ∧
        (∀ u : Tree, f.program = u.postorder → u = t) ∧
        evaluate (.ok {}) f (.table ⟨[("x", .scalar 2.5)]⟩) =
          t.evaluate (.ok {}) (.table ⟨[("x", .scalar 2.5)]⟩) := by
  have hscan : Token.scan "x(-)" =
      .ok [.name "x" "", .leftParen, .operator (.unary .minus), .rightParen] := by cbv
  have hprogram : Token.toPostfix
      [.name "x" "", .leftParen, .operator (.unary .minus), .rightParen] "x(-)" =
      .ok [.name "x" "", .operator (.unary .minus)] := rfl
  have hcompile := compile_of_scan hscan hprogram
  refine ⟨_, _, hcompile, rfl, ?_⟩
  exact @arranged_of_evaluate "x(-)" _ (.ok {}) (.table ⟨[("x", .scalar 2.5)]⟩) _ hcompile rfl

end Dimensional.Formula
