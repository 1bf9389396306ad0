import Dimensional.Proofs.Formula.Written

/-!
# Postfix order one token at a time

`Token.postfixFrom` reads tokens in front of a stack.  Here a single token is taken out of that
recursion: `Pending.after` is what it puts into the program and what waits behind it, and reading on
is reading the rest from there (`postfixFrom_cons`).

Whatever every token keeps is kept by the whole of them (`postfixFrom_induction`, and
`program_induction` where all goes well).  A property of the postfix order is so proved by a lemma
about `Pending.after`, and for most of them by no more than its three outcomes: the token goes into
the program, or it waits, or it is passed over (`moves_of_after`).
-/

namespace Dimensional.Formula

open Fallible

/-- Does the token go into a program?  Parentheses and commas do not. -/
def Token.isOperative : Token → Bool
  | .leftParen | .rightParen | .comma => false
  | _ => true

def Token.isOperand : Token → Bool
  | .number .. | .name .. => true
  | _ => false

/-- A number or a name goes into the program. -/
theorem Token.isOperative_of_isOperand {token : Token} (h : token.isOperand = true) :
    token.isOperative = true := by
  cases token with
  | number value unitText => rfl
  | name path unitText => rfl
  | _ => cases h

/-! ### Reading a token

The recursion of `postfixFrom` treats eight sorts of tokens.  Once a token is read by
`Pending.after`, proofs about the whole need not tell them apart: both induction principles have
one case for a token that is read, with what it put out and what waits behind it as all that is
known of it. -/

namespace Pending

/-- What a token puts into the program, and what waits behind it. -/
def after (text : String) (pending : List Pending) :
    Token → Except Error (List Token × List Pending)
  | .number value unitText => .ok ([.number value unitText], pending)
  | .name path unitText => .ok ([.name path unitText], pending)
  | .call callee arity => .ok ([], .call callee arity :: pending)
  | .leftParen => .ok ([], .paren :: pending)
  | .comma =>
    match around pending with
    | [] => .error (.parse .misplacedComma text none)
    | around => .ok (inside pending, around)
  | .operator op =>
    (yielding op pending).map fun (applied, waiting) => (applied, .operator op :: waiting)
  | .rightParen =>
    match around pending with
    | [] => .error (.parse .mismatchedParentheses text none)
    | _ :: waiting => .ok (inside pending ++ (called waiting).1, (called waiting).2)
  | .foreign shown => .error (.parse (.unknownToken (quote shown)) text none)

end Pending

namespace Token

open Pending

/-- Reading on is reading the rest in front of what waits behind the first token.  For each sort
of token this is the equation of `postfixFrom`, but for the empty program that calls and opening
parentheses put in front. -/
theorem postfixFrom_cons (text : String) (pending : List Pending) (token : Token)
    (rest : List Token) :
    postfixFrom text pending (token :: rest) =
      after text pending token >>= fun (out, waiting) =>
        (postfixFrom text waiting rest).map (out ++ ·) := by
  cases token with
  | number | name | foreign => rfl
  | call callee arity =>
    show _ = (postfixFrom text (.call callee arity :: pending) rest).map ([] ++ ·)
    rw [postfixFrom]
    cases postfixFrom text (.call callee arity :: pending) rest <;> rfl
  | leftParen =>
    show _ = (postfixFrom text (.paren :: pending) rest).map ([] ++ ·)
    rw [postfixFrom]
    cases postfixFrom text (.paren :: pending) rest <;> rfl
  | operator op =>
    rw [postfixFrom, after]
    cases yielding op pending <;> rfl
  | comma =>
    rw [postfixFrom, after]
    cases around pending <;> rfl
  | rightParen =>
    rw [postfixFrom, after]
    cases around pending <;> rfl

/-- What holds at the end of the tokens, where a token is refused, and after every token that is
read if it holds of the rest, holds of reading all tokens. -/
theorem postfixFrom_induction {text : String}
    {motive : List Pending → List Token → Except Error (List Token) → Prop}
    (nil : ∀ pending, motive pending [] (postfixFrom text pending []))
    (refused : ∀ pending token rest e, after text pending token = .error e →
      motive pending (token :: rest) (.error e))
    (read : ∀ pending token rest out waiting result,
      after text pending token = .ok (out, waiting) → motive waiting rest result →
        motive pending (token :: rest) (result.map (out ++ ·)))
    (pending : List Pending) (tokens : List Token) :
    motive pending tokens (postfixFrom text pending tokens) := by
  induction tokens generalizing pending with
  | nil => exact nil pending
  | cons token rest ih =>
    rw [postfixFrom_cons]
    cases hafter : after text pending token with
    | error e => exact refused pending token rest e hafter
    | ok next => exact read pending token rest next.1 next.2 _ hafter (ih next.2)

/-- What holds at the end of the tokens, with what waits there as the program, and after every token
if it holds of the rest, holds of the tokens that have a postfix order. -/
theorem program_induction {text : String}
    {motive : List Pending → List Token → List Token → Prop}
    (nil : ∀ pending, NoParen pending → motive pending [] (pending.map Pending.token))
    (read : ∀ pending token rest out waiting program,
      after text pending token = .ok (out, waiting) → motive waiting rest program →
        motive pending (token :: rest) (out ++ program))
    {pending : List Pending} {tokens program : List Token}
    (h : postfixFrom text pending tokens = .ok program) : motive pending tokens program := by
  -- The motive is void where there is no program, so the case of a refused token is empty.
  refine postfixFrom_induction
    (motive := fun pending tokens result =>
      ∀ program, result = .ok program → motive pending tokens program)
    ?_ ?_ ?_ pending tokens program h
  · intro pending program h
    rw [postfixFrom] at h
    split at h
    · cases h
    · next hparen =>
      cases h
      exact nil pending (by simpa [NoParen] using hparen)
  · intro pending token rest e _ program h
    cases h
  · intro pending token rest out waiting result hafter ih program h
    obtain ⟨more, hmore, rfl⟩ := Fallible.map_eq_ok_iff.1 h
    exact read pending token rest out waiting more hafter (ih more hmore)

end Token

/-! ### Where a token goes

Whatever comes off the stack comes off its top, in the order in which it stands there, and what
is left is the rest of the stack.  The parts of the stack that each sort of token takes off are
so described by one equation, that what comes off and what is kept make up the stack again. -/

namespace Pending

theorem isOperative_token (pending : Pending) : pending.token.isOperative = !pending.isParen := by
  cases pending <;> rfl

theorem isOperand_token (pending : Pending) : pending.token.isOperand = false := by
  cases pending <;> rfl

theorem filter_inside (pending : List Pending) :
    (inside pending).filter Token.isOperative = inside pending := by
  rw [List.filter_eq_self]
  intro token htoken
  obtain ⟨waiting, hwaiting, rfl⟩ := List.mem_map.1 htoken
  rw [isOperative_token]
  exact List.all_eq_true.1 List.all_takeWhile waiting hwaiting

theorem inside_append_around (pending : List Pending) :
    inside pending ++ (around pending).map token = pending.map token := by
  rw [inside, around, ← List.map_append, List.takeWhile_append_dropWhile]

theorem eq_paren_of_around {pending kept : List Pending} {top : Pending}
    (h : around pending = top :: kept) : top = .paren := by
  have htop := List.head?_dropWhile_not (fun waiting : Pending => !waiting.isParen) pending
  rw [show pending.dropWhile (fun waiting => !waiting.isParen) = top :: kept from h] at htop
  cases top with
  | paren => rfl
  | operator op => cases htop
  | call callee arity => cases htop

theorem called_append (pending : List Pending) :
    (called pending).1 ++ (called pending).2.map token = pending.map token ∧
      (called pending).1.filter Token.isOperative = (called pending).1 := by
  rcases pending with _ | ⟨_ | _ | _, _⟩ <;> exact ⟨rfl, rfl⟩

theorem yielding_eq_append {incoming : Operator} {pending waiting : List Pending}
    {applied : List Token} (h : yielding incoming pending = .ok (applied, waiting)) :
    applied ++ waiting.map token = pending.map token ∧
      applied.filter Token.isOperative = applied := by
  induction pending generalizing applied with
  | nil =>
    cases h
    exact ⟨rfl, rfl⟩
  | cons top rest ih =>
    cases top with
    | operator op =>
      obtain ⟨yield, _, h⟩ := bind_eq_ok_iff.1 h
      -- The search stops at the first operator that does not yield.
      cases yield with
      | false =>
        cases h
        exact ⟨rfl, rfl⟩
      | true =>
        obtain ⟨⟨more, waiting⟩, hmore, h⟩ := bind_eq_ok_iff.1 h
        cases h
        obtain ⟨hall, hmore⟩ := ih hmore
        exact ⟨congrArg _ hall, congrArg _ hmore⟩
    | call callee arity =>
      cases h
      exact ⟨rfl, rfl⟩
    | paren =>
      cases h
      exact ⟨rfl, rfl⟩

/-- How a token that is read moves things: `out` goes into the program and `waiting` is left.  A
number or a name goes into the program itself.  Everything else first takes `emitted` off the
stack, of which parentheses are dropped, and then waits or is passed over.

Only a closing parenthesis takes one off the stack, and that one is dropped; so the filter on
`emitted` does nothing in the other cases, and one statement fits all of them. -/
inductive Moves (pending : List Pending) (token : Token) : List Token → List Pending → Prop where
  | comesOut : token.isOperand = true → Moves pending token [token] pending
  | waits {emitted : List Token} {kept : List Pending} {top : Pending} :
      emitted ++ kept.map Pending.token = pending.map Pending.token → top.token = token →
      Moves pending token (emitted.filter Token.isOperative) (top :: kept)
  | passedOver {emitted : List Token} {kept : List Pending} :
      emitted ++ kept.map Pending.token = pending.map Pending.token → token.isOperative = false →
      Moves pending token (emitted.filter Token.isOperative) kept

theorem moves_of_after {text : String} {pending waiting : List Pending} {token : Token}
    {out : List Token} (h : after text pending token = .ok (out, waiting)) :
    Moves pending token out waiting := by
  cases token with
  | number value unitText =>
    cases h
    exact .comesOut rfl
  | name path unitText =>
    cases h
    exact .comesOut rfl
  | call callee arity =>
    cases h
    exact @Moves.waits _ _ [] pending (.call callee arity) rfl rfl
  | leftParen =>
    cases h
    exact @Moves.waits _ _ [] pending .paren rfl rfl
  | operator op =>
    -- Operators apply others first, which are no parentheses.
    obtain ⟨⟨applied, kept⟩, hyielding, h⟩ := Fallible.map_eq_ok_iff.1 h
    cases h
    obtain ⟨hsplit, happlied⟩ := yielding_eq_append hyielding
    rw [← happlied]
    exact .waits hsplit rfl
  | comma =>
    have hsplit := inside_append_around pending
    rw [after] at h
    split at h
    · cases h
    · cases h
      rw [← filter_inside]
      exact .passedOver hsplit rfl
  | rightParen =>
    have hsplit := inside_append_around pending
    rw [after] at h
    split at h
    · cases h
    · next top kept haround =>
      cases h
      obtain rfl := eq_paren_of_around haround
      obtain ⟨hcalls, hcalled⟩ := called_append kept
      -- The parenthesis that is closed has waited between the two parts that come out.
      have hclosed : (inside pending ++ .leftParen :: (called kept).1).filter Token.isOperative =
          inside pending ++ (called kept).1 := by
        rw [List.filter_append, filter_inside, List.filter_cons_of_neg (by decide), hcalled]
      rw [← hclosed]
      refine .passedOver ?_ rfl
      rw [← hsplit, haround, List.append_assoc, List.cons_append, hcalls]
      rfl
  | foreign shown => cases h

end Pending

end Dimensional.Formula
