import Dimensional.Proofs.Character.Class
import Dimensional.Proofs.MeasureUnit.Tree

/-!
# Unit expressions as they are written down

`Tree.Written level t lexemes` says that `lexemes` write down the tree `t`, with all the parentheses
that are required and any number of others: powers bind tighter than products and quotients and
group to the right, products and quotients bind equally and group to the left.

`toPostfix_lexemes` — the postfix order of tokens that write down a tree is its postorder.  As
for formulas, the proof follows what waits on the stack: nothing below an expression moves while the
expression is read (`Keeps`), and what it adds binds tightly enough to belong to it (`Bind`).
-/

namespace Dimensional.MeasureUnit

namespace Operation

def rank : Operation → Nat
  | .product | .quotient => 2
  | .power => 3

/-- How tightly an operation must bind to stand left of this one without parentheses. -/
def leftLevel : Operation → Nat
  | .product | .quotient => 2
  | .power => 4

def rightLevel : Operation → Nat
  | .product | .quotient | .power => 3

/-- Is what waits on the stack to be applied before this operation? -/
def overtaken (op : Operation) (top : Token) : Bool :=
  top.lexeme.yieldsTo op.rank (op = .power)

end Operation

def Lexeme.isOperand : Lexeme → Bool
  | .number _ | .name _ => true
  | _ => false

/-- The lexemes write down the tree at a place where operations that bind less tightly than `level`
need parentheses.  Parentheses may stand around every part. -/
inductive Tree.Written : Nat → Tree → List Lexeme → Prop where
  | name {level : Nat} {s : String} : Written level (.name s) [.name s]
  | number {level : Nat} {x : Float} : Written level (.number x) [.number x]
  | apply {level : Nat} {op : Operation} {a b : Tree} {as bs : List Lexeme} :
      level ≤ op.rank → Written op.leftLevel a as → Written op.rightLevel b bs →
      Written level (.apply op a b) (as ++ op.lexeme :: bs)
  | paren {level : Nat} {t : Tree} {lexemes : List Lexeme} :
      Written 0 t lexemes → Written level t (.opens :: (lexemes ++ [.closes]))

/-- Where fewer parentheses are needed, these may still stand. -/
theorem Tree.Written.mono {level level' : Nat} {t : Tree} {lexemes : List Lexeme}
    (h : t.Written level lexemes) (hle : level' ≤ level) : t.Written level' lexemes := by
  cases h with
  | name => exact .name
  | number => exact .number
  | apply hrank ha hb => exact .apply (Nat.le_trans hle hrank) ha hb
  | paren h => exact .paren h

namespace Token

/-! ### What waits on the stack

The levels of a grammar and the precedences of a machine say the same thing from two sides.  What
waits below an expression binds at most as tightly as the level lets anything overtake it, and
what the expression adds binds at least as tightly. -/

/-- No operation of an expression at this level overtakes what waits here. -/
def Keeps (level : Nat) : List Token → Prop
  | [] => True
  | top :: _ => ∀ op : Operation, level ≤ op.rank → op.overtaken top = false

/-- All that waits here are operations at this level or above. -/
def Bind (level : Nat) (pending : List Token) : Prop :=
  ∀ token ∈ pending, ∃ op : Operation, token.lexeme = op.lexeme ∧ level ≤ op.rank

theorem Keeps.mono {level level' : Nat} {pending : List Token} (h : Keeps level pending)
    (hle : level ≤ level') : Keeps level' pending := by
  cases pending with
  | nil => trivial
  | cons top rest =>
    intro op hop
    exact h op (Nat.le_trans hle hop)

theorem Bind.mono {level level' : Nat} {pending : List Token} (h : Bind level' pending)
    (hle : level ≤ level') : Bind level pending := by
  intro token htoken
  obtain ⟨op, heq, hlevel⟩ := h token htoken
  exact ⟨op, heq, Nat.le_trans hle hlevel⟩

/-- An operation that binds tightly enough may wait below the others. -/
theorem Bind.snoc {level : Nat} {op : Operation} {token : Token} {ops : List Token}
    (h : Bind level ops) (htoken : token.lexeme = op.lexeme) (hle : level ≤ op.rank) :
    Bind level (ops ++ [token]) := by
  intro other hother
  rcases List.mem_append.1 hother with hother | hother
  · exact h other hother
  · rw [List.mem_singleton.1 hother]
    exact ⟨op, htoken, hle⟩

theorem Bind.not_isOpening {level : Nat} {ops : List Token} (h : Bind level ops) :
    ∀ token ∈ ops, (!token.lexeme.isOpening) = true := by
  intro token htoken
  obtain ⟨op, heq, _⟩ := h token htoken
  rw [heq]
  cases op <;> rfl

/-! ### How operations meet -/

/-- An operation waits while its right operand is read. -/
theorem keeps_rightLevel {op : Operation} {token : Token} (h : token.lexeme = op.lexeme)
    (pending : List Token) : Keeps op.rightLevel (token :: pending) := by
  intro incoming hle
  unfold Operation.overtaken
  rw [h]
  revert hle
  cases op <;> cases incoming <;> decide

/-- Nothing in parentheses overtakes the parenthesis. -/
theorem keeps_opens {token : Token} (h : token.lexeme = .opens) (level : Nat)
    (pending : List Token) : Keeps level (token :: pending) := by
  intro incoming _
  unfold Operation.overtaken
  rw [h]
  rfl

/-- An operation overtakes what waits from its left operand.  For a power that is nothing, since
powers group to the right. -/
theorem overtaken_of_leftLevel {op top : Operation} {token : Token}
    (h : token.lexeme = top.lexeme) (hle : op.leftLevel ≤ top.rank) :
    op.overtaken token = true := by
  unfold Operation.overtaken
  rw [h]
  revert hle
  cases op <;> cases top <;> decide

/-- An operation overtakes what waits from its left operand, and nothing else. -/
theorem takeWhile_overtaken {level : Nat} {op : Operation} {ops pending : List Token}
    (hops : Bind op.leftLevel ops) (h : Keeps level pending) (hle : level ≤ op.rank) :
    (ops ++ pending).takeWhile op.overtaken = ops ∧
      (ops ++ pending).dropWhile op.overtaken = pending := by
  have hyield : ∀ token ∈ ops, op.overtaken token = true := by
    intro token htoken
    obtain ⟨top, heq, hlevel⟩ := hops token htoken
    exact overtaken_of_leftLevel heq hlevel
  apply takeWhile_dropWhile_append hyield
  intro top htop
  cases pending with
  | nil => cases htop
  | cons first rest =>
    cases htop
    exact h op hle

/-! ### Reading expressions

What an expression has put out and what it leaves waiting, one behind the other, are its
program.  So an operation that comes next finds the operations of its left operand on top and
takes them, and a parenthesis takes them all. -/

theorem postfixFrom_operand {token : Token} (h : token.lexeme.isOperand = true) (text : String)
    (pending rest : List Token) :
    postfixFrom text pending (token :: rest) =
      (postfixFrom text pending rest).map ([token] ++ ·) := by
  rw [postfixFrom]
  cases hlexeme : token.lexeme with
  | number | name => rfl
  | _ =>
    rw [hlexeme] at h
    cases h

theorem postfixFrom_operation {token : Token} {op : Operation} (h : token.lexeme = op.lexeme)
    (text : String) (pending rest : List Token) :
    postfixFrom text pending (token :: rest) =
      (postfixFrom text (token :: pending.dropWhile op.overtaken) rest).map
        (pending.takeWhile op.overtaken ++ ·) := by
  rw [postfixFrom, h]
  cases op <;> rfl

theorem postfixFrom_opens {token : Token} (h : token.lexeme = .opens) (text : String)
    (pending rest : List Token) :
    postfixFrom text pending (token :: rest) = postfixFrom text (token :: pending) rest := by
  rw [postfixFrom, h]

/-- A parenthesis that is closed takes everything off the stack that waits inside it. -/
theorem postfixFrom_closes {token opening : Token} {ops : List Token} (h : token.lexeme = .closes)
    (hops : ∀ token ∈ ops, (!token.lexeme.isOpening) = true) (hopening : opening.lexeme = .opens)
    (text : String) (pending rest : List Token) :
    postfixFrom text (ops ++ opening :: pending) (token :: rest) =
      (postfixFrom text pending rest).map (ops ++ ·) := by
  have hstop : (!opening.lexeme.isOpening) = false := by
    rw [hopening]
    rfl
  rw [postfixFrom, h]
  simp only [List.takeWhile_append_of_pos hops, List.dropWhile_append_of_pos hops,
    List.takeWhile_cons, List.dropWhile_cons, hstop, Bool.false_eq_true, if_false,
    List.append_nil]
  rfl

/-- The lexemes are read as an expression at a level.  Nothing that waits moves meanwhile; what has
come out, and the operations that have been added to what waits, make up the program. -/
def Reads (level : Nat) (lexemes program : List Lexeme) : Prop :=
  ∀ text tokens pending rest, tokens.map Token.lexeme = lexemes → Keeps level pending →
    ∃ out ops, Bind level ops ∧ (out ++ ops).map Token.lexeme = program ∧
      postfixFrom text pending (tokens ++ rest) =
        (postfixFrom text (ops ++ pending) rest).map (out ++ ·)

theorem reads_operand {level : Nat} {lexeme : Lexeme} (h : lexeme.isOperand = true) :
    Reads level [lexeme] [lexeme] := by
  intro text tokens pending rest htokens _
  obtain ⟨token, tokens, rfl, rfl, hnil⟩ := List.map_eq_cons_iff.1 htokens
  rw [List.map_eq_nil_iff.1 hnil]
  exact ⟨[token], [], List.forall_mem_nil _, rfl, postfixFrom_operand h text pending rest⟩

/-- Two operands that are read at the levels that an operation requires of them, with the
operation between them, are read as the operation on both. -/
theorem reads_apply {level : Nat} {op : Operation} {as bs p q : List Lexeme}
    (hle : level ≤ op.rank) (ha : Reads op.leftLevel as p) (hb : Reads op.rightLevel bs q) :
    Reads level (as ++ op.lexeme :: bs) (p ++ q ++ [op.lexeme]) := by
  intro text tokens pending rest htokens hpending
  obtain ⟨left, tokens, rfl, hleft, htokens⟩ := List.map_eq_append_iff.1 htokens
  obtain ⟨token, right, rfl, htoken, hright⟩ := List.map_eq_cons_iff.1 htokens
  have hleftLevel : op.rank ≤ op.leftLevel := by cases op <;> decide
  have hrightLevel : op.rank ≤ op.rightLevel := by cases op <;> decide
  -- The operation overtakes what waits from its left operand and waits below the right one.
  obtain ⟨outa, opsa, hopsa, hp, hreada⟩ :=
    ha text left pending (token :: right ++ rest) hleft
      (hpending.mono (Nat.le_trans hle hleftLevel))
  obtain ⟨outb, opsb, hopsb, hq, hreadb⟩ :=
    hb text right (token :: pending) rest hright (keeps_rightLevel htoken pending)
  refine ⟨outa ++ opsa ++ outb, opsb ++ [token],
    (hopsb.mono (Nat.le_trans hle hrightLevel)).snoc htoken hle, ?_, ?_⟩
  · rw [← hp, ← hq, ← htoken]
    simp
  · obtain ⟨htake, hdrop⟩ := takeWhile_overtaken hopsa hpending hle
    rw [List.append_assoc, hreada, List.cons_append, postfixFrom_operation htoken, htake, hdrop,
      hreadb, Fallible.map_map, Fallible.map_map, List.append_assoc opsb, List.singleton_append]
    simp only [List.append_assoc]

/-- In parentheses an expression of any level is read, as one that leaves nothing waiting. -/
theorem reads_paren {level : Nat} {lexemes program : List Lexeme} (h : Reads 0 lexemes program) :
    Reads level (.opens :: (lexemes ++ [.closes])) program := by
  intro text tokens pending rest htokens _
  obtain ⟨opening, tokens, rfl, hopening, htokens⟩ := List.map_eq_cons_iff.1 htokens
  obtain ⟨inside, tokens, rfl, hinside, htokens⟩ := List.map_eq_append_iff.1 htokens
  obtain ⟨closing, tokens, rfl, hclosing, hnil⟩ := List.map_eq_cons_iff.1 htokens
  rw [List.map_eq_nil_iff.1 hnil]
  obtain ⟨out, ops, hops, hprogram, hread⟩ :=
    h text inside (opening :: pending) (closing :: rest) hinside (keeps_opens hopening 0 pending)
  -- What waits inside comes out when the parenthesis is closed.
  refine ⟨out ++ ops, [], List.forall_mem_nil _, by rw [List.append_nil, hprogram], ?_⟩
  rw [List.cons_append, List.append_assoc, postfixFrom_opens hopening, List.singleton_append,
    hread, postfixFrom_closes hclosing hops.not_isOpening hopening, Fallible.map_map]
  simp only [List.append_assoc, List.nil_append]

/-- What a tree is written down with is read as its postorder. -/
theorem reads_of_written {level : Nat} {t : Tree} {lexemes : List Lexeme}
    (h : t.Written level lexemes) : Reads level lexemes t.postorder := by
  induction h with
  | name => exact reads_operand rfl
  | number => exact reads_operand rfl
  | apply hle _ _ iha ihb => exact reads_apply hle iha ihb
  | paren _ ih => exact reads_paren ih

/-- What is read as an expression is the whole program where nothing follows.  What still waits
then comes out in its order, and no parenthesis is among it. -/
theorem toPostfix_of_reads {tokens : List Token} {program : List Lexeme}
    (h : Reads 0 (tokens.map Token.lexeme) program) (text : String) :
    ∃ out, toPostfix text tokens = .ok out ∧ out.map Token.lexeme = program := by
  obtain ⟨out, ops, hops, hprogram, hread⟩ := h text tokens [] [] rfl trivial
  refine ⟨out ++ ops, ?_, hprogram⟩
  have hnone : ops.find? (·.lexeme.isOpening) = none := by
    apply List.find?_eq_none.2
    intro token htoken
    simpa using hops.not_isOpening token htoken
  rw [List.append_nil, List.append_nil] at hread
  rw [toPostfix, hread, postfixFrom, hnone]
  rfl

/-- The postfix order of tokens that write down a tree is its postorder. -/
theorem toPostfix_lexemes {t : Tree} {tokens : List Token}
    (h : t.Written 0 (tokens.map Token.lexeme)) (text : String) :
    ∃ program, toPostfix text tokens = .ok program ∧
      program.map Token.lexeme = t.postorder :=
  toPostfix_of_reads (reads_of_written h) text

end Token

end Dimensional.MeasureUnit
