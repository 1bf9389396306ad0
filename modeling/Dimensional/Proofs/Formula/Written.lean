import Dimensional.Formula.Postfix
import Dimensional.Proofs.Fallible
import Dimensional.Proofs.Formula.Tree

/-!
# Formulas as trees are written down

`Tree.Written level t tokens` says that `tokens` write down the tree `t`, with all the parentheses
that the operators' precedence and grouping require and any number of others.  Main statement:
`toPostfix_of_written` — the postfix order of such tokens is the postorder of the tree.

The proof follows the stack of what waits (`Pending.Keeps`, `Pending.Bind`): while the tokens of an
expression are read nothing below them on the stack moves, and afterwards only operators have been
added to it that bind tightly enough to belong to the expression (`Reads`).
-/

namespace Dimensional

/-- The level of places where no operator needs parentheses. -/
def loosest : Int := -1

/-- The level of operands of operators that stand in front: how tightly those bind themselves. -/
def tightest : Int := 5

/-- How tightly an operator must bind to stand left of this one without parentheses. -/
def BinaryOp.leftLevel (op : BinaryOp) : Int :=
  if (Operator.binary op).groupsRight then op.precedence + 1 else op.precedence

def BinaryOp.rightLevel (op : BinaryOp) : Int :=
  if (Operator.binary op).groupsRight then op.precedence else op.precedence + 1

namespace Formula

/-- The tokens write down the tree at a place where operators that bind less tightly than
`level` need parentheses.  Parentheses may stand around every part.

The level is that of the place and not of the tree: a tree that fits at some level fits at every
looser one, and in parentheses it fits everywhere, since inside them the level is `loosest`. -/
inductive Tree.Written : Int → Tree → List Token → Prop where
  | number {level : Int} {value : Float} {unitText : String} :
      Written level (.number value unitText) [.number value unitText]
  | name {level : Int} {path unitText : String} :
      Written level (.name path unitText) [.name path unitText]
  | unary {level : Int} {op : UnaryOp} {a : Tree} {as : List Token} :
      level ≤ tightest → Written tightest a as →
      Written level (.unary op a) (.operator (.unary op) :: as)
  | binary {level : Int} {op : BinaryOp} {a b : Tree} {as bs : List Token} :
      level ≤ op.precedence → Written op.leftLevel a as → Written op.rightLevel b bs →
      Written level (.binary op a b) (as ++ .operator (.binary op) :: bs)
  | call {level : Int} {f : Builtin} {args : Fin f.arity → Tree}
      {tokens : Fin f.arity → List Token} :
      (∀ i, Written loosest (args i) (tokens i)) →
      Written level (.call f args)
        (callToken f :: .leftParen ::
          ([Token.comma].intercalate (List.ofFn tokens) ++ [.rightParen]))
  | paren {level : Int} {t : Tree} {tokens : List Token} :
      Written loosest t tokens → Written level t (.leftParen :: (tokens ++ [.rightParen]))

/-! ### Writing trees down -/

namespace Tree

/-- Tokens as they stand where they fit, and in parentheses where they do not. -/
def fitted (fits : Prop) [Decidable fits] (tokens : List Token) : List Token :=
  if fits then tokens else .leftParen :: (tokens ++ [.rightParen])

/-- The tree written down at a level with no parentheses but those that are required. -/
def write (level : Int) : Tree → List Token
  | .number value unitText => [.number value unitText]
  | .name path unitText => [.name path unitText]
  | .unary op a => fitted (level ≤ tightest) (.operator (.unary op) :: a.write tightest)
  | .binary op a b =>
    fitted (level ≤ op.precedence)
      (a.write op.leftLevel ++ .operator (.binary op) :: b.write op.rightLevel)
  | .call f args =>
    callToken f :: .leftParen ::
      ([Token.comma].intercalate (List.ofFn fun i => (args i).write loosest) ++ [.rightParen])

theorem written_fitted {level least : Int} {t : Tree} {tokens : List Token}
    (h : ∀ level, level ≤ least → t.Written level tokens) (hleast : loosest ≤ least) :
    t.Written level (fitted (level ≤ least) tokens) := by
  unfold fitted
  split
  · next hle => exact h level hle
  · exact .paren (h loosest hleast)

/-- Every tree can be written down. -/
theorem written_write (level : Int) (t : Tree) : t.Written level (t.write level) := by
  induction t generalizing level with
  | number => exact .number
  | name => exact .name
  | unary op a ih => exact written_fitted (fun _ hle => .unary hle (ih tightest)) (by decide)
  | binary op a b iha ihb =>
    refine written_fitted (fun _ hle => .binary hle (iha op.leftLevel) (ihb op.rightLevel)) ?_
    cases op <;> decide
  | call f args ih => exact .call fun i => ih i loosest

end Tree

/-! ### What waits on the stack

Two conditions tell what reading an expression at a level has to do with the stack.  What waited
before is left alone by everything in the expression (`Keeps`), and what the expression leaves
behind is to be applied before any looser operator (`Bind`). -/

namespace Pending

theorem yields_eq {top incoming : Operator} {p q : Int} (hp : top.precedence? = some p)
    (hq : incoming.precedence? = some q) :
    yields top incoming =
      .ok (if incoming.groupsRight then decide (p > q) else decide (p ≥ q)) := by
  simp only [yields, precedence, hp, hq]
  rfl

/-- No operator of an expression at this level makes anything give way that waits here, and no call
waits for its parenthesis. -/
def Keeps (level : Int) : List Pending → Prop
  | [] | .paren :: _ => True
  | .operator top :: _ =>
    ∀ op p, op.precedence? = some p → level ≤ p → yields top op = .ok false
  | .call .. :: _ => False

/-- Only operators that bind at least as tightly as the level wait here. -/
def Bind (level : Int) (pending : List Pending) : Prop :=
  ∀ x ∈ pending, ∃ op p, x = .operator op ∧ op.precedence? = some p ∧ level ≤ p

theorem Keeps.mono {level level' : Int} {pending : List Pending} (h : Keeps level pending)
    (hle : level ≤ level') : Keeps level' pending := by
  unfold Keeps at h ⊢
  split
  · trivial
  · trivial
  · intro op p hp hlevel
    exact h op p hp (Int.le_trans hle hlevel)
  -- A call lets nothing be read at all, at any level.
  · exact h

theorem Bind.mono {level level' : Int} {pending : List Pending} (h : Bind level' pending)
    (hle : level ≤ level') : Bind level pending := by
  intro x hx
  obtain ⟨op, p, rfl, hp, hlevel⟩ := h x hx
  exact ⟨op, p, rfl, hp, Int.le_trans hle hlevel⟩

/-- An operator that binds tightly enough may wait below the others. -/
theorem Bind.snoc {level p : Int} {op : Operator} {ops : List Pending} (h : Bind level ops)
    (hp : op.precedence? = some p) (hle : level ≤ p) : Bind level (ops ++ [.operator op]) := by
  intro x hx
  rcases List.mem_append.1 hx with hx | hx
  · exact h x hx
  · rw [List.mem_singleton.1 hx]
    exact ⟨op, p, rfl, hp, hle⟩

def NoParen (pending : List Pending) : Prop := ∀ x ∈ pending, (!x.isParen) = true

theorem noParen_nil : NoParen [] := List.forall_mem_nil _

theorem Bind.noParen {level : Int} {ops : List Pending} (h : Bind level ops) : NoParen ops := by
  intro x hx
  obtain ⟨op, p, rfl, _⟩ := h x hx
  rfl

/-- What stands above a parenthesis on the stack is what waits inside it. -/
theorem inside_append {ops : List Pending} (h : NoParen ops) (waiting : List Pending) :
    inside (ops ++ .paren :: waiting) = ops.map token := by
  rw [inside, List.takeWhile_append_of_pos h, List.takeWhile_cons_of_neg (by decide),
    List.append_nil]

theorem around_append {ops : List Pending} (h : NoParen ops) (waiting : List Pending) :
    around (ops ++ .paren :: waiting) = .paren :: waiting := by
  rw [around, List.dropWhile_append_of_pos h, List.dropWhile_cons_of_neg (by decide)]

/-- Without a parenthesis on the stack there is nothing around what waits. -/
theorem around_eq_nil {ops : List Pending} (h : NoParen ops) : around ops = [] := by
  rw [← List.append_nil ops, around, List.dropWhile_append_of_pos h, List.dropWhile_nil]

/-! ### How operators meet

An incoming operator meets what waits in two ways: it stands in a right operand, whose level
keeps what waits, or it comes behind a left operand and makes all that operand has left behind
give way.  Grouping shows only between operators of the same precedence, and only powers group to
the right. -/

/-- Operators that group to the left bind less tightly than powers. -/
theorem precedence_lt_of_not_groupsRight {op : Operator} {p : Int} (hp : op.precedence? = some p)
    (h : op.groupsRight = false) : p < BinaryOp.pow.precedence := by
  obtain op | op | symbol := op
  · cases h
  · cases hp
    cases op <;> simp_all [Operator.groupsRight, BinaryOp.precedence]
  · cases hp

/-- An operator waits while its right operand is read. -/
theorem keeps_rightLevel (op : BinaryOp) (waiting : List Pending) :
    Keeps op.rightLevel (.operator (.binary op) :: waiting) := by
  intro incoming q hq hle
  rw [yields_eq rfl hq]
  congr 1
  split
  · have hle : op.precedence ≤ q := by
      unfold BinaryOp.rightLevel at hle
      split at hle <;> omega
    simpa using hle
  · next hgroups =>
    -- The other operator groups to the left, so it is no power, and neither is `op`.
    have hlt : op.precedence < q := by
      have hpow := precedence_lt_of_not_groupsRight hq (by simpa using hgroups)
      unfold BinaryOp.rightLevel at hle
      split at hle
      · next hright =>
        have heq : op = .pow := by simpa [Operator.groupsRight] using hright
        subst heq
        omega
      · omega
    simpa using hlt

/-- An operator in front waits while its operand is read. -/
theorem keeps_tightest (op : UnaryOp) (waiting : List Pending) :
    Keeps tightest (.operator (.unary op) :: waiting) := by
  intro incoming q hq hle
  -- Nothing that groups to the left binds this tightly.
  have hgroups : incoming.groupsRight = true := by
    cases h : incoming.groupsRight with
    | true => rfl
    | false =>
      have hlt := precedence_lt_of_not_groupsRight hq h
      exact absurd (Int.lt_of_lt_of_le hlt (by decide : BinaryOp.pow.precedence ≤ tightest))
        (Int.not_lt.2 hle)
  rw [yields_eq rfl hq, hgroups]
  simpa [tightest] using hle

/-- What waits from the left operand of an operator gives way to it. -/
theorem yields_of_leftLevel {op : BinaryOp} {top : Operator} {p : Int}
    (hp : top.precedence? = some p) (hle : op.leftLevel ≤ p) :
    yields top (.binary op) = .ok true := by
  rw [yields_eq hp rfl]
  unfold BinaryOp.leftLevel at hle
  congr 1
  split at hle
  · next h =>
    rw [if_pos h]
    exact decide_eq_true hle
  · next h =>
    rw [if_neg h]
    exact decide_eq_true hle

/-- Nothing gives way where everything keeps waiting. -/
theorem yielding_of_keeps {level p : Int} {op : Operator} {waiting : List Pending}
    (h : Keeps level waiting) (hp : op.precedence? = some p) (hle : level ≤ p) :
    yielding op waiting = .ok ([], waiting) := by
  obtain _ | ⟨top | _ | _, rest⟩ := waiting
  · rfl
  · have hyields : yields top op = .ok false := h op p hp hle
    simp only [yielding, hyields]
    rfl
  · rfl
  · rfl

/-- What waits from the left operand of an operator gives way, and nothing else does. -/
theorem yielding_append {level : Int} {op : BinaryOp} {ops waiting : List Pending}
    (hops : Bind op.leftLevel ops) (h : Keeps level waiting) (hle : level ≤ op.precedence) :
    yielding (.binary op) (ops ++ waiting) = .ok (ops.map token, waiting) := by
  induction ops with
  | nil => exact yielding_of_keeps h rfl hle
  -- What waits of the left operand gives way one by one, down to what was there before.
  | cons x rest ih =>
    obtain ⟨top, p, rfl, hp, hlevel⟩ := hops x List.mem_cons_self
    have hrest := ih fun y hy => hops y (List.mem_cons_of_mem _ hy)
    simp only [List.cons_append, yielding, yields_of_leftLevel hp hlevel, hrest]
    rfl

end Pending

/-! ### Reading expressions

`Reads` is the invariant of the induction over what is written down.  The program of an
expression need not be complete when its tokens have been read, because operators of it may
still wait; so the statement says of what came out and what waits together that they are the
program. -/

namespace Token

open Pending

/-! The steps of `postfixFrom` that take something off the stack. -/

theorem postfixFrom_operator {op : Operator} {pending waiting : List Pending}
    {applied : List Token} (h : yielding op pending = .ok (applied, waiting)) (text : String)
    (rest : List Token) :
    postfixFrom text pending (.operator op :: rest) =
      (postfixFrom text (.operator op :: waiting) rest).map (applied ++ ·) := by
  rw [postfixFrom, h]
  rfl

theorem postfixFrom_comma {ops : List Pending} (h : NoParen ops) (text : String)
    (waiting : List Pending) (rest : List Token) :
    postfixFrom text (ops ++ .paren :: waiting) (.comma :: rest) =
      (postfixFrom text (.paren :: waiting) rest).map (ops.map Pending.token ++ ·) := by
  rw [postfixFrom, around_append h, inside_append h]

theorem postfixFrom_rightParen {ops : List Pending} (h : NoParen ops) (text : String)
    (waiting : List Pending) (rest : List Token) :
    postfixFrom text (ops ++ .paren :: waiting) (.rightParen :: rest) =
      (postfixFrom text (called waiting).2 rest).map
        (ops.map Pending.token ++ (called waiting).1 ++ ·) := by
  rw [postfixFrom, around_append h, inside_append h]

/-- The tokens are read as an expression at a level.  Nothing that waits moves meanwhile; what has
come out, and the operators that have been added to what waits, make up the program. -/
def Reads (level : Int) (tokens program : List Token) : Prop :=
  ∀ text waiting rest, Keeps level waiting →
    ∃ out ops, Bind level ops ∧ out ++ ops.map Pending.token = program ∧
      postfixFrom text waiting (tokens ++ rest) =
        (postfixFrom text (ops ++ waiting) rest).map (out ++ ·)

theorem reads_number (level : Int) (value : Float) (unitText : String) :
    Reads level [.number value unitText] [.number value unitText] := by
  intro text waiting rest _
  exact ⟨[.number value unitText], [], List.forall_mem_nil _, rfl, rfl⟩

theorem reads_name (level : Int) (path unitText : String) :
    Reads level [.name path unitText] [.name path unitText] := by
  intro text waiting rest _
  exact ⟨[.name path unitText], [], List.forall_mem_nil _, rfl, rfl⟩

theorem reads_unary {level : Int} {op : UnaryOp} {tokens program : List Token}
    (hle : level ≤ tightest) (h : Reads tightest tokens program) :
    Reads level (.operator (.unary op) :: tokens) (program ++ [.operator (.unary op)]) := by
  intro text waiting rest hwaiting
  have hyielding : yielding (.unary op) waiting = .ok ([], waiting) :=
    yielding_of_keeps hwaiting rfl hle
  obtain ⟨out, ops, hops, hprogram, hread⟩ :=
    h text (.operator (.unary op) :: waiting) rest (keeps_tightest op waiting)
  refine ⟨out, ops ++ [.operator (.unary op)], (hops.mono hle).snoc rfl hle, ?_, ?_⟩
  · rw [List.map_append, ← List.append_assoc, hprogram]
    rfl
  · rw [List.cons_append, postfixFrom_operator hyielding, hread, Fallible.map_map,
      List.append_assoc, List.singleton_append]
    rfl

theorem reads_binary {level : Int} {op : BinaryOp} {as bs p q : List Token}
    (hle : level ≤ op.precedence) (ha : Reads op.leftLevel as p) (hb : Reads op.rightLevel bs q) :
    Reads level (as ++ .operator (.binary op) :: bs) (p ++ q ++ [.operator (.binary op)]) := by
  intro text waiting rest hwaiting
  have hleft : op.precedence ≤ op.leftLevel := by
    unfold BinaryOp.leftLevel
    split <;> omega
  have hright : op.precedence ≤ op.rightLevel := by
    unfold BinaryOp.rightLevel
    split <;> omega
  -- What waits from the left operand gives way to `op`, which waits below the right one.
  obtain ⟨outa, opsa, hopsa, hp, hreada⟩ :=
    ha text waiting (.operator (.binary op) :: bs ++ rest)
      (hwaiting.mono (Int.le_trans hle hleft))
  obtain ⟨outb, opsb, hopsb, hq, hreadb⟩ :=
    hb text (.operator (.binary op) :: waiting) rest (keeps_rightLevel op waiting)
  refine ⟨outa ++ opsa.map Pending.token ++ outb, opsb ++ [.operator (.binary op)],
    (hopsb.mono (Int.le_trans hle hright)).snoc rfl hle, ?_, ?_⟩
  · rw [← hp, ← hq]
    simp [Pending.token]
  · have hyielding := yielding_append hopsa hwaiting hle
    rw [List.append_assoc, hreada, List.cons_append, postfixFrom_operator hyielding, hreadb,
      Fallible.map_map, Fallible.map_map, List.append_assoc opsb, List.singleton_append]
    simp only [List.append_assoc]

/-! ### Reading up to a comma or a parenthesis -/

/-- In parentheses, up to a comma or the closing parenthesis, the tokens are read as this program,
whatever waits around. -/
def ReadsInside (tokens program : List Token) : Prop :=
  ∀ text waiting separator rest, separator = .comma ∨ separator = .rightParen →
    postfixFrom text (.paren :: waiting) (tokens ++ separator :: rest) =
      (postfixFrom text (.paren :: waiting) (separator :: rest)).map (program ++ ·)

/-- A comma and a closing parenthesis take everything off the stack that waits inside. -/
theorem postfixFrom_separator {ops : List Pending} (h : NoParen ops) {separator : Token}
    (hseparator : separator = .comma ∨ separator = .rightParen) (text : String)
    (waiting : List Pending) (rest : List Token) :
    postfixFrom text (ops ++ .paren :: waiting) (separator :: rest) =
      (postfixFrom text (.paren :: waiting) (separator :: rest)).map
        (ops.map Pending.token ++ ·) := by
  obtain rfl | rfl := hseparator
  · have hnone := postfixFrom_comma noParen_nil text waiting rest
    rw [List.nil_append] at hnone
    rw [postfixFrom_comma h, hnone, Fallible.map_map]
    rfl
  · have hnone := postfixFrom_rightParen noParen_nil text waiting rest
    rw [List.nil_append] at hnone
    rw [postfixFrom_rightParen h, hnone, Fallible.map_map]
    simp only [List.map_nil, List.nil_append, List.append_assoc]

theorem Reads.inside {tokens program : List Token} (h : Reads loosest tokens program) :
    ReadsInside tokens program := by
  intro text waiting separator rest hseparator
  obtain ⟨out, ops, hops, rfl, hread⟩ := h text (.paren :: waiting) (separator :: rest) trivial
  rw [hread, postfixFrom_separator hops.noParen hseparator, Fallible.map_map]
  simp only [List.append_assoc]

/-- Expressions with commas between them, up to the parenthesis that closes them. -/
theorem postfixFrom_arguments (text : String) (waiting : List Pending) (rest : List Token)
    (args : List (List Token × List Token)) (hne : args ≠ [])
    (h : ∀ a ∈ args, ReadsInside a.1 a.2) :
    postfixFrom text (.paren :: waiting)
        ([Token.comma].intercalate (args.map Prod.fst) ++ .rightParen :: rest) =
      (postfixFrom text (called waiting).2 rest).map
        ((args.map Prod.snd).flatten ++ (called waiting).1 ++ ·) := by
  have hclose := postfixFrom_rightParen noParen_nil text waiting rest
  rw [List.nil_append] at hclose
  -- The separator behind an argument takes what waits of it off the stack, so every argument
  -- starts at the parenthesis.
  induction args with
  | nil => exact absurd rfl hne
  | cons a as ih =>
    have ha := h a List.mem_cons_self
    cases as with
    | nil =>
      simp only [List.map_cons, List.map_nil, List.intercalate_singleton, List.flatten_singleton]
      rw [ha _ _ _ _ (.inr rfl), hclose, Fallible.map_map]
      simp only [List.map_nil, List.nil_append, List.append_assoc]
    | cons b bs =>
      have hrest := ih (List.cons_ne_nil b bs) fun x hx => h x (List.mem_cons_of_mem _ hx)
      have hcomma := postfixFrom_comma noParen_nil text waiting
        ([Token.comma].intercalate ((b :: bs).map Prod.fst) ++ .rightParen :: rest)
      rw [List.nil_append] at hcomma
      rw [List.map_cons, List.map_cons, List.intercalate_cons_cons, ← List.map_cons,
        List.append_assoc, List.append_assoc, List.singleton_append, ha _ _ _ _ (.inl rfl),
        hcomma, hrest, Fallible.map_map, Fallible.map_map]
      simp only [List.map_cons, List.map_nil, List.nil_append, List.flatten_cons,
        List.append_assoc]

theorem reads_paren {level : Int} {tokens program : List Token} (h : ReadsInside tokens program) :
    Reads level (.leftParen :: (tokens ++ [.rightParen])) program := by
  intro text waiting rest hwaiting
  refine ⟨program, [], List.forall_mem_nil _, by simp, ?_⟩
  -- No call stands in front, since an expression is read here.
  have hcalled : called waiting = ([], waiting) := by
    obtain _ | ⟨_ | _ | _, _⟩ := waiting
    · rfl
    · rfl
    · exact hwaiting.elim
    · rfl
  have hargs := postfixFrom_arguments text waiting rest [(tokens, program)] (List.cons_ne_nil _ _)
    (by simpa using h)
  rw [hcalled] at hargs
  simpa [postfixFrom, List.intercalate_singleton] using hargs

theorem reads_call {level : Int} (f : Builtin) {args : List (List Token × List Token)}
    (hne : args ≠ []) (h : ∀ a ∈ args, ReadsInside a.1 a.2) :
    Reads level
      (Tree.callToken f :: .leftParen ::
        ([Token.comma].intercalate (args.map Prod.fst) ++ [.rightParen]))
      ((args.map Prod.snd).flatten ++ [Tree.callToken f]) := by
  intro text waiting rest _
  refine ⟨(args.map Prod.snd).flatten ++ [Tree.callToken f], [], List.forall_mem_nil _, by simp, ?_⟩
  have hargs :=
    postfixFrom_arguments text (.call (.builtin f) f.arity :: waiting) rest args hne h
  simpa [postfixFrom, Tree.callToken, called] using hargs

/-- What a tree is written down with is read as its postorder.  The induction is on how it is
written down, with one lemma for each way. -/
theorem reads_of_written {level : Int} {t : Tree} {tokens : List Token}
    (h : t.Written level tokens) : Reads level tokens t.postorder := by
  induction h with
  | number => exact reads_number _ _ _
  | name => exact reads_name _ _ _
  | unary hle _ ih => exact reads_unary hle ih
  | binary hle _ _ iha ihb => exact reads_binary hle iha ihb
  | @call level f args tokens _ ih =>
    have hcall := @reads_call level f (List.ofFn fun i => (tokens i, (args i).postorder))
      (Tree.ofFn_ne_nil _) (by
        intro a ha
        obtain ⟨i, rfl⟩ := List.mem_ofFn.1 ha
        exact (ih i).inside)
    rw [List.map_ofFn, List.map_ofFn] at hcall
    exact hcall
  | paren _ ih => exact reads_paren ih.inside

/-- **Formulas are read as they are written**: whatever writes a tree down, with the parentheses
that precedence and grouping require and any others, is put into the postorder of the tree. -/
theorem toPostfix_of_written {t : Tree} {tokens : List Token} (h : t.Written loosest tokens)
    (text : String) : toPostfix tokens text = .ok t.postorder := by
  obtain ⟨out, ops, hops, hprogram, hread⟩ := reads_of_written h text [] [] trivial
  -- What still waits at the end are operators, and they come out in their order.
  have hparen : ops.any Pending.isParen = false := by
    simpa [NoParen] using hops.noParen
  rw [List.append_nil, List.append_nil] at hread
  rw [toPostfix, hread, postfixFrom, hparen, ← hprogram]
  rfl

/-- `-a ^ b ^ c - (max(d, (e)))`: the sign belongs to `a` alone, powers group to the right, and
parentheses that are not needed make no difference. -/
theorem toPostfix_powers_minus_call :
    Tree.Written loosest
        (.binary .sub
          (.binary .pow (.unary .minus (.name "a" ""))
            (.binary .pow (.name "b" "") (.name "c" "")))
          (.call .max fun i => if i.val = 0 then .name "d" "" else .name "e" ""))
        [.operator (.unary .minus), .name "a" "", .operator (.binary .pow), .name "b" "",
          .operator (.binary .pow), .name "c" "", .operator (.binary .sub), .leftParen,
          .call (.builtin .max) 2, .leftParen, .name "d" "", .comma, .leftParen, .name "e" "",
          .rightParen, .rightParen, .rightParen] ∧
      toPostfix
        [.operator (.unary .minus), .name "a" "", .operator (.binary .pow), .name "b" "",
          .operator (.binary .pow), .name "c" "", .operator (.binary .sub), .leftParen,
          .call (.builtin .max) 2, .leftParen, .name "d" "", .comma, .leftParen, .name "e" "",
          .rightParen, .rightParen, .rightParen] "" =
        .ok [.name "a" "", .operator (.unary .minus), .name "b" "", .name "c" "",
          .operator (.binary .pow), .operator (.binary .pow), .name "d" "", .name "e" "",
          .call (.builtin .max) 2, .operator (.binary .sub)] := by
  have hcall : Tree.Written loosest
      (.call .max fun i => if i.val = 0 then .name "d" "" else .name "e" "")
      [.call (.builtin .max) 2, .leftParen, .name "d" "", .comma, .leftParen, .name "e" "",
        .rightParen, .rightParen] :=
    @Tree.Written.call _ .max _
      (fun i => if i.val = 0 then [.name "d" ""] else [.leftParen, .name "e" "", .rightParen])
      (fun i => match i with
        | ⟨0, _⟩ => .name
        | ⟨1, _⟩ => .paren .name)
  have hleft : Tree.Written BinaryOp.sub.leftLevel
      (.binary .pow (.unary .minus (.name "a" ""))
        (.binary .pow (.name "b" "") (.name "c" "")))
      ([.operator (.unary .minus), .name "a" ""] ++ .operator (.binary .pow) ::
        ([.name "b" ""] ++ .operator (.binary .pow) :: [.name "c" ""])) :=
    .binary (by decide) (.unary (by decide) .name) (.binary (by decide) .name .name)
  have h := @Tree.Written.binary loosest .sub _ _ _ _ (by decide) hleft (.paren hcall)
  exact ⟨h, toPostfix_of_written h ""⟩

end Token

end Formula

end Dimensional
