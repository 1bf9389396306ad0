import Dimensional.Proofs.Formula.Reading
import Mathlib.Data.List.Induction

/-!
# Which tokens have a postfix order

The depth of a place among tokens is the number of parentheses that are open there
(`Token.depth`).  Whether something is wrong at a place hangs on its depth and on the token that
stands there (`Token.faultAt`): a comma or a closing parenthesis outside all parentheses, or the end
inside some.

The postfix order is found without counting.  All the same, as many parentheses wait on the stack as
are open (`Pending.opens`), whatever else waits there: a single token keeps this up, and it is
refused just where something is wrong (`Pending.after_of_comparable`), so all of the tokens come to
what counting comes to (`verdict_postfixFrom`).  Main statement: `toPostfix_matched` — tokens have a
postfix order if their parentheses match and their commas stand inside, and otherwise the first
fault in reading order is reported.
-/

namespace Dimensional.Formula

namespace Token

/-! ### Faults by depth -/

def isLeftParen : Token → Bool
  | .leftParen => true
  | _ => false

def isRightParen : Token → Bool
  | .rightParen => true
  | _ => false

def depth (tokens : List Token) : Int := tokens.countP isLeftParen - tokens.countP isRightParen

/-- What is wrong at a place of this depth, in front of these tokens.  Nothing else that was read
before has a part in it. -/
def faultAt (depth : Int) : List Token → Option ParseFault
  | [] => if 0 < depth then some .mismatchedParentheses else none
  | .comma :: _ => if depth < 1 then some .misplacedComma else none
  | .rightParen :: _ => if depth < 1 then some .mismatchedParentheses else none
  | .foreign shown :: _ => some (.unknownToken (quote shown))
  | _ :: _ => none

/-- This is wrong at some place, and nothing is wrong at any place before. -/
def IsFirstFault (tokens : List Token) (fault : ParseFault) : Prop :=
  ∃ front rest, tokens = front ++ rest ∧ faultAt (depth front) rest = some fault ∧
    ∀ front' rest', tokens = front' ++ rest' → front'.length < front.length →
      faultAt (depth front') rest' = none

/-- Parentheses match, commas stand inside parentheses, and there is nothing that is no token of
formulas. -/
structure Matched (tokens : List Token) : Prop where
  prefixes : ∀ front rest, tokens = front ++ rest → 0 ≤ depth front
  total : depth tokens = 0
  commas : ∀ front rest, tokens = front ++ .comma :: rest → 1 ≤ depth front
  native : ∀ shown, .foreign shown ∉ tokens

@[simp] theorem depth_nil : depth [] = 0 := rfl

def turn : Token → Int
  | .leftParen => 1
  | .rightParen => -1
  | _ => 0

@[simp] theorem depth_cons (token : Token) (rest : List Token) :
    depth (token :: rest) = token.turn + depth rest := by
  cases token <;> simp [depth, turn, isLeftParen, isRightParen, List.countP_cons] <;> omega

@[simp] theorem depth_append (front rest : List Token) :
    depth (front ++ rest) = depth front + depth rest := by
  simp only [depth, List.countP_append]
  omega

/-- Parentheses match where nothing is wrong at any place. -/
theorem matched_iff (tokens : List Token) :
    Matched tokens ↔
      ∀ front rest, tokens = front ++ rest → faultAt (depth front) rest = none := by
  constructor
  · intro h front rest htokens
    match rest with
    | [] =>
      rw [List.append_nil] at htokens
      exact if_neg (by rw [← htokens, h.total]; decide)
    | .comma :: rest => exact if_neg (Int.not_lt.2 (h.commas front rest htokens))
    | .rightParen :: rest =>
      have hprefix := h.prefixes (front ++ [.rightParen]) rest (by simp [htokens])
      rw [depth_append, depth_cons, turn, depth_nil] at hprefix
      exact if_neg (by omega)
    | .foreign shown :: rest => exact absurd (by simp [htokens]) (h.native shown)
    | .number .. :: _ | .name .. :: _ | .operator _ :: _ | .call .. :: _ | .leftParen :: _ => rfl
  · intro h
    have hprefixes : ∀ front rest, tokens = front ++ rest → 0 ≤ depth front := by
      intro front
      -- From the end: what stands in front of a token has no negative depth, and only a closing
      -- parenthesis could lead there.
      induction front using List.reverseRecOn with
      | nil => intro _ _; decide
      | append_singleton front token ih =>
        intro rest htokens
        rw [List.append_assoc, List.singleton_append] at htokens
        have hfront := ih _ htokens
        have hfault := h front _ htokens
        rw [depth_append, depth_cons, depth_nil]
        cases token with
        | rightParen =>
          have hdepth : ¬depth front < 1 := by simpa [faultAt] using hfault
          rw [turn]
          omega
        | leftParen =>
          rw [turn]
          omega
        | _ => simpa [turn] using hfront
    refine ⟨hprefixes, ?_, ?_, ?_⟩
    · have hle := hprefixes tokens [] (List.append_nil _).symm
      have hdepth : ¬0 < depth tokens := by
        simpa [faultAt] using h tokens [] (List.append_nil _).symm
      omega
    · intro front rest htokens
      exact Int.not_lt.1 (by simpa [faultAt] using h front _ htokens)
    · intro shown hmem
      obtain ⟨front, rest, htokens⟩ := List.append_of_mem hmem
      cases h front _ htokens

/-! ### Reading with a counter

`IsFirstFault` compares places with each other.  `faultFrom` finds the first fault in one pass
and from any depth on, which is what an induction along the tokens needs. -/

/-- The first fault in reading order, from a place of this depth on. -/
def faultFrom (depth : Int) : List Token → Option ParseFault
  | [] => faultAt depth []
  | token :: rest => (faultAt depth (token :: rest)).or (faultFrom (depth + token.turn) rest)

theorem faultFrom_eq_none_iff {start : Int} {tokens : List Token} :
    faultFrom start tokens = none ↔
      ∀ front rest, tokens = front ++ rest → faultAt (start + depth front) rest = none := by
  induction tokens generalizing start with
  | nil =>
    rw [faultFrom]
    constructor
    · intro h front rest hnil
      obtain ⟨rfl, rfl⟩ := List.append_eq_nil_iff.1 hnil.symm
      simpa using h
    · intro h
      simpa using h [] [] rfl
  | cons token tokens ih =>
    rw [faultFrom, Option.or_eq_none_iff, ih]
    constructor
    · rintro ⟨hhere, hlater⟩ front rest htokens
      obtain ⟨rfl, rfl⟩ | ⟨front, rfl, rfl⟩ := List.cons_eq_append_iff.1 htokens
      · simpa using hhere
      · simpa [Int.add_assoc] using hlater front rest rfl
    · intro h
      refine ⟨by simpa using h [] _ rfl, fun front rest htokens => ?_⟩
      simpa [Int.add_assoc] using h (token :: front) rest (by rw [htokens]; rfl)

theorem faultFrom_eq_some_iff {start : Int} {tokens : List Token} {fault : ParseFault} :
    faultFrom start tokens = some fault ↔
      ∃ front rest, tokens = front ++ rest ∧ faultAt (start + depth front) rest = some fault ∧
        ∀ front' rest', tokens = front' ++ rest' → front'.length < front.length →
          faultAt (start + depth front') rest' = none := by
  induction tokens generalizing start with
  | nil =>
    rw [faultFrom]
    constructor
    · intro h
      exact ⟨[], [], rfl, by simpa using h, nofun⟩
    · rintro ⟨front, rest, hnil, hfault, _⟩
      obtain ⟨rfl, rfl⟩ := List.append_eq_nil_iff.1 hnil.symm
      simpa using hfault
  | cons token tokens ih =>
    rw [faultFrom]
    -- A fault at the first place is the first one; otherwise the others are one place further on.
    cases hhere : faultAt start (token :: tokens) with
    | some first =>
      rw [Option.some_or, Option.some.injEq]
      constructor
      · rintro rfl
        exact ⟨[], token :: tokens, rfl, by simpa using hhere, nofun⟩
      · rintro ⟨front, rest, htokens, hfault, hbefore⟩
        cases front with
        | nil =>
          subst htokens
          simpa [hhere] using hfault
        | cons =>
          have hnone := hbefore [] _ rfl (Nat.succ_pos _)
          rw [depth_nil, Int.add_zero, hhere] at hnone
          cases hnone
    | none =>
      rw [Option.none_or, ih]
      constructor
      · rintro ⟨front, rest, rfl, hfault, hbefore⟩
        refine ⟨token :: front, rest, rfl, by simpa [Int.add_assoc] using hfault, ?_⟩
        intro front' rest' htokens hlt
        obtain ⟨rfl, rfl⟩ | ⟨front', rfl, hrest⟩ := List.cons_eq_append_iff.1 htokens
        · simpa using hhere
        · simpa [Int.add_assoc] using hbefore front' rest' hrest (Nat.lt_of_succ_lt_succ hlt)
      · rintro ⟨front, rest, htokens, hfault, hbefore⟩
        obtain ⟨rfl, rfl⟩ | ⟨front, rfl, rfl⟩ := List.cons_eq_append_iff.1 htokens
        · rw [depth_nil, Int.add_zero, hhere] at hfault
          cases hfault
        · refine ⟨front, rest, rfl, by simpa [Int.add_assoc] using hfault, ?_⟩
          intro front' rest' hrest hlt
          have hnone := hbefore (token :: front') rest' (congrArg _ hrest) (Nat.succ_lt_succ hlt)
          simpa [Int.add_assoc] using hnone

theorem isFirstFault_iff {tokens : List Token} {fault : ParseFault} :
    IsFirstFault tokens fault ↔ faultFrom 0 tokens = some fault := by
  rw [faultFrom_eq_some_iff]
  simp only [Int.zero_add]
  rfl

end Token

namespace Pending

/-! ### Open parentheses on the stack

The stack counts along: an opening parenthesis goes onto it and the closing one takes that off
again.  Whatever operators and calls come and go in between, the number of parentheses that wait
stays as it is. -/

def opens (pending : List Pending) : Nat := pending.countP isParen

@[simp] theorem opens_nil : opens [] = 0 := rfl

@[simp] theorem opens_operator (op : Operator) (rest : List Pending) :
    opens (.operator op :: rest) = opens rest := List.countP_cons_of_neg (by simp [isParen])

@[simp] theorem opens_call (callee : Callee) (arity : Int) (rest : List Pending) :
    opens (.call callee arity :: rest) = opens rest := List.countP_cons_of_neg (by simp [isParen])

@[simp] theorem opens_paren (rest : List Pending) : opens (.paren :: rest) = opens rest + 1 :=
  List.countP_cons_of_pos rfl

theorem opens_around (pending : List Pending) : opens (around pending) = opens pending := by
  induction pending with
  | nil => rfl
  | cons top rest ih =>
    cases top with
    | paren => rfl
    | operator op => exact ih.trans (opens_operator op rest).symm
    | call callee arity => exact ih.trans (opens_call callee arity rest).symm

theorem opens_called (pending : List Pending) : opens (called pending).2 = opens pending := by
  rcases pending with _ | ⟨_ | _ | _, _⟩ <;> rfl

theorem opens_of_yielding {incoming : Operator} {pending waiting : List Pending}
    {applied : List Token} (h : yielding incoming pending = .ok (applied, waiting)) :
    opens waiting = opens pending := by
  induction pending generalizing applied with
  | nil =>
    cases h
    rfl
  | cons top rest ih =>
    cases top with
    | operator op =>
      obtain ⟨yield, _, h⟩ := Fallible.bind_eq_ok_iff.1 h
      cases yield with
      | false =>
        cases h
        rfl
      | true =>
        obtain ⟨⟨more, waiting⟩, hmore, h⟩ := Fallible.bind_eq_ok_iff.1 h
        cases h
        exact ih hmore
    | call callee arity =>
      cases h
      rfl
    | paren =>
      cases h
      rfl

/-! ### What can be compared -/

/-- All operators that wait can be compared with others. -/
def Comparable (pending : List Pending) : Prop :=
  ∀ op, .operator op ∈ pending → ∃ n, op.precedence? = some n

theorem Comparable.of_moves {pending waiting : List Pending} {token : Token} {out : List Token}
    (h : Comparable pending) (htoken : ∀ op, token = .operator op → ∃ n, op.precedence? = some n)
    (hmoves : Moves pending token out waiting) : Comparable waiting := by
  have hkept {emitted : List Token} {kept : List Pending}
      (hsplit : emitted ++ kept.map Pending.token = pending.map Pending.token) :
      Comparable kept := by
    intro op hop
    have hmem : Token.operator op ∈ pending.map Pending.token := by
      rw [← hsplit]
      exact List.mem_append_right _ (List.mem_map_of_mem hop)
    obtain ⟨top, htop, heq⟩ := List.mem_map.1 hmem
    cases top with
    | operator waits =>
      cases heq
      exact h _ htop
    | _ => cases heq
  cases hmoves with
  | comesOut => exact h
  | passedOver hsplit => exact hkept hsplit
  | waits hsplit htop =>
    intro op hop
    obtain heq | hop := List.mem_cons.1 hop
    · subst heq
      exact htoken op htop.symm
    · exact hkept hsplit op hop

/-- Where operators can be compared, it is settled which of them are applied. -/
theorem yielding_of_comparable {incoming : Operator}
    (hincoming : ∃ n, incoming.precedence? = some n) {pending : List Pending}
    (h : Comparable pending) :
    ∃ applied waiting, yielding incoming pending = .ok (applied, waiting) := by
  induction pending with
  | nil => exact ⟨[], [], rfl⟩
  | cons top rest ih =>
    cases top with
    | operator op =>
      obtain ⟨right, hright⟩ := hincoming
      obtain ⟨left, hleft⟩ := h op List.mem_cons_self
      obtain ⟨applied, waiting, hrest⟩ := ih fun op hop => h op (List.mem_cons_of_mem _ hop)
      rw [yielding, yields_eq hleft hright, hrest]
      generalize (if incoming.groupsRight then decide (left > right) else decide (left ≥ right)) =
        applies
      cases applies with
      | true => exact ⟨_, waiting, rfl⟩
      | false => exact ⟨[], _, rfl⟩
    | call callee arity => exact ⟨[], _, rfl⟩
    | paren => exact ⟨[], _, rfl⟩

/-- Where operators can be compared, a token is refused if something is wrong at its place, and
otherwise as many parentheses wait behind it as are open there. -/
theorem after_of_comparable {pending : List Pending} (h : Comparable pending) {token : Token}
    (htoken : ∀ op, token = .operator op → ∃ n, op.precedence? = some n) (text : String)
    (rest : List Token) :
    (∃ out waiting, after text pending token = .ok (out, waiting) ∧
        (opens waiting : Int) = opens pending + token.turn ∧
        Token.faultAt (opens pending) (token :: rest) = none) ∨
      ∃ fault, after text pending token = .error (.parse fault text none) ∧
        Token.faultAt (opens pending) (token :: rest) = some fault := by
  have hopens := opens_around pending
  cases token with
  | number | name => exact .inl ⟨_, pending, rfl, (Int.add_zero _).symm, rfl⟩
  | call callee arity =>
    refine .inl ⟨[], _, rfl, ?_, rfl⟩
    rw [opens_call]
    exact (Int.add_zero _).symm
  | leftParen =>
    refine .inl ⟨[], _, rfl, ?_, rfl⟩
    rw [opens_paren]
    rfl
  | operator op =>
    obtain ⟨applied, waiting, hyielding⟩ := yielding_of_comparable (htoken op rfl) h
    refine .inl ⟨applied, .operator op :: waiting, by rw [after, hyielding]; rfl, ?_, rfl⟩
    rw [opens_operator, opens_of_yielding hyielding]
    exact (Int.add_zero _).symm
  -- Commas and closing parentheses need an open one, on the stack as in the count.
  | comma =>
    rw [after]
    cases haround : around pending with
    | nil =>
      rw [haround] at hopens
      exact .inr ⟨_, rfl, by rw [← hopens]; rfl⟩
    | cons top kept =>
      obtain rfl := eq_paren_of_around haround
      rw [haround] at hopens
      refine .inl ⟨_, _, rfl, ?_, if_neg ?_⟩
      · rw [hopens]
        exact (Int.add_zero _).symm
      · rw [← hopens, opens_paren]
        omega
  | rightParen =>
    rw [after]
    cases haround : around pending with
    | nil =>
      rw [haround] at hopens
      exact .inr ⟨_, rfl, by rw [← hopens]; rfl⟩
    | cons top kept =>
      obtain rfl := eq_paren_of_around haround
      rw [haround, opens_paren] at hopens
      refine .inl ⟨_, _, rfl, ?_, if_neg (by omega)⟩
      rw [opens_called, Token.turn]
      omega
  | foreign shown => exact .inr ⟨_, rfl, rfl⟩

end Pending

namespace Token

open Pending

/-- What reading comes to, as far as faults go: a fault of the text without a place, or nothing
of note. -/
def verdict (text : String) : Option ParseFault → Except Error Unit
  | none => .ok ()
  | some fault => .error (.parse fault text none)

/-- **The stack counts**: reading on with a stack comes to what counting comes to from the number of
parentheses that wait there. -/
theorem verdict_postfixFrom {pending : List Pending} (hpending : Comparable pending)
    {tokens : List Token} (htokens : ∀ op, .operator op ∈ tokens → ∃ n, op.precedence? = some n)
    (text : String) :
    (postfixFrom text pending tokens).map (fun _ => ()) =
      verdict text (faultFrom (opens pending) tokens) := by
  refine postfixFrom_induction
    (motive := fun pending tokens result => Comparable pending →
      (∀ op, .operator op ∈ tokens → ∃ n, op.precedence? = some n) →
        result.map (fun _ => ()) = verdict text (faultFrom (opens pending) tokens))
    ?_ ?_ ?_ pending tokens hpending htokens
  · intro pending _ _
    -- At the end a fault is left if and only if a parenthesis still waits.
    have hany : pending.any isParen = true ↔ (0 : Int) < opens pending := by
      simp [opens, List.countP_pos_iff]
    rw [postfixFrom, faultFrom, faultAt]
    simp only [hany]
    split <;> rfl
  · intro pending token rest e hafter hpending htokens
    have htoken : ∀ op, token = .operator op → ∃ n, op.precedence? = some n := by
      rintro op rfl
      exact htokens op List.mem_cons_self
    rcases after_of_comparable hpending htoken text rest with
      ⟨out, waiting, hread, _⟩ | ⟨fault, hrefused, hfault⟩
    · cases hafter.symm.trans hread
    · cases hafter.symm.trans hrefused
      rw [faultFrom, hfault]
      rfl
  · intro pending token rest out waiting result hafter ih hpending htokens
    have htoken : ∀ op, token = .operator op → ∃ n, op.precedence? = some n := by
      rintro op rfl
      exact htokens op List.mem_cons_self
    have hwaiting := hpending.of_moves htoken (moves_of_after hafter)
    rcases after_of_comparable hpending htoken text rest with
      ⟨out, waiting, hread, hopens, hfault⟩ | ⟨fault, hrefused, _⟩
    · cases hafter.symm.trans hread
      rw [Fallible.map_map, faultFrom, hfault, Option.none_or, ← hopens]
      exact ih hwaiting fun op hop => htokens op (List.mem_cons_of_mem _ hop)
    · cases hafter.symm.trans hrefused

def IsFaultOf (text : String) (e : Error) : Prop :=
  ∃ fault position, e = .parse fault text position

/-- Tokens whose operators can be compared have a postfix order, or else the text is at fault. -/
theorem raises_toPostfix {tokens : List Token}
    (h : ∀ op, .operator op ∈ tokens → ∃ n, op.precedence? = some n) (text : String) :
    Fallible.Raises (IsFaultOf text) (toPostfix tokens text) := by
  have hverdict := verdict_postfixFrom (fun _ hop => absurd hop List.not_mem_nil) h text
  unfold toPostfix
  cases hresult : postfixFrom text [] tokens with
  | ok program => exact Fallible.raises_ok _
  | error e =>
    rw [hresult] at hverdict
    cases hfault : faultFrom (opens []) tokens with
    | none =>
      rw [hfault] at hverdict
      cases hverdict
    | some fault =>
      rw [hfault] at hverdict
      cases hverdict
      exact Fallible.raises_error ⟨_, _, rfl⟩

/-- **Exactly what has a postfix order**: where the precedence of all operators is known, tokens
have one if and only if parentheses match and commas stand inside parentheses.  Otherwise the error
is the first fault in reading order: a comma that stands outside, a closing parenthesis that does,
or a parenthesis that is open at the end. -/
theorem toPostfix_matched {tokens : List Token}
    (hknown : ∀ op, .operator op ∈ tokens → ∃ n, op.precedence? = some n) (text : String) :
    ((∃ program, toPostfix tokens text = .ok program) ↔ Matched tokens) ∧
      ∀ e, toPostfix tokens text = .error e ↔
        ∃ fault, IsFirstFault tokens fault ∧ e = .parse fault text none := by
  have hnone : Comparable [] := fun _ hop => absurd hop List.not_mem_nil
  have hverdict := verdict_postfixFrom hnone hknown text
  have hmatched : faultFrom 0 tokens = none ↔ Matched tokens := by
    rw [faultFrom_eq_none_iff, matched_iff]
    simp only [Int.zero_add]
  rw [opens_nil, Int.natCast_zero] at hverdict
  unfold toPostfix
  simp only [isFirstFault_iff, ← hmatched]
  cases hfault : faultFrom 0 tokens with
  | none =>
    rw [hfault] at hverdict
    obtain ⟨program, hprogram, _⟩ := Fallible.map_eq_ok_iff.1 hverdict
    rw [hprogram]
    simp
  | some fault =>
    rw [hfault] at hverdict
    cases hresult : postfixFrom text [] tokens with
    | ok program =>
      rw [hresult] at hverdict
      cases hverdict
    | error e =>
      rw [hresult] at hverdict
      cases hverdict
      simp [eq_comm]

/-- In `x + abs, (` the comma is reported, and not the parenthesis that stays open: the call that
waits opens none. -/
theorem toPostfix_comma_behind_call :
    let tokens : List Token :=
      [.name "x" "", .operator (.binary .add), .call (.builtin .abs) 1, .comma, .leftParen]
    (∀ op, .operator op ∈ tokens → ∃ n, op.precedence? = some n) ∧
      toPostfix tokens "x + abs, (" = .error (.parse .misplacedComma "x + abs, (" none) := by
  intro tokens
  have hknown : ∀ op, .operator op ∈ tokens → ∃ n, op.precedence? = some n := by
    intro op hop
    obtain rfl : op = .binary .add := by simpa [tokens] using hop
    exact ⟨_, rfl⟩
  have hfault : IsFirstFault tokens .misplacedComma := isFirstFault_iff.2 (by decide)
  exact ⟨hknown, ((toPostfix_matched hknown "x + abs, (").2 _).2 ⟨_, hfault, rfl⟩⟩

end Token

end Dimensional.Formula
