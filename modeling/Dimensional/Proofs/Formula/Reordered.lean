import Dimensional.Proofs.Formula.Reading

/-!
# What the postfix order keeps

Tokens that are put into postfix order are neither lost nor added: the program holds all of them but
parentheses and commas (`perm_of_toPostfix`).  To say which of several equal tokens comes out where,
tokens are numbered from left to right.  While tokens are read, those that wait have lower numbers
than those that are still to be read (`Pending.Numbered`), and what comes out of both is told by
`Rearranges`, which a single token keeps up (`comesOut_of_moves`).

Main statement: `rearranged_of_toPostfix` — numbers and names keep their order, and operators and
calls only move back.
-/

namespace Dimensional.Formula

open Fallible

/-! ### Numbered tokens

A token and its number are one thing from here on.  At any time the tokens are in three places:
some have come out, some wait, and some are still to be read; the numbers of those that wait are
below those that are still to be read.  `Rearranges` is the invariant: it says of what comes out
from a state what the theorem says of the whole. -/

/-- These tokens are what waits, and their numbers are below `n`. -/
structure Pending.Numbered (pending : List Pending) (n : Nat) (waiting : List (Token × Nat)) :
    Prop where
  tokens : waiting.map Prod.fst = pending.map token
  lt : ∀ a ∈ waiting, a.2 < n

namespace Pending.Numbered

variable {pending : List Pending} {n : Nat} {waiting : List (Token × Nat)}

theorem not_isOperand (h : Numbered pending n waiting) {a : Token × Nat} (ha : a ∈ waiting) :
    a.1.isOperand = false := by
  have hmem : a.1 ∈ pending.map token := h.tokens ▸ List.mem_map_of_mem ha
  obtain ⟨top, _, htop⟩ := List.mem_map.1 hmem
  rw [← htop, isOperand_token]

theorem succ (h : Numbered pending n waiting) : Numbered pending (n + 1) waiting :=
  ⟨h.tokens, fun a ha => Nat.lt_succ_of_lt (h.lt a ha)⟩

theorem push (h : Numbered pending n waiting) (top : Pending) :
    Numbered (top :: pending) (n + 1) ((top.token, n) :: waiting) :=
  ⟨congrArg _ h.tokens, List.forall_mem_cons.2 ⟨Nat.lt_succ_self n, h.succ.lt⟩⟩

theorem nil (n : Nat) : Numbered [] n [] := ⟨rfl, List.forall_mem_nil _⟩

end Pending.Numbered

namespace Token

open Pending

/-- What comes out where some tokens wait and others are still to be read: all of them but
parentheses and commas, and in front of a number or a name only what has a lower number. -/
structure Rearranges (waiting rest placed : List (Token × Nat)) : Prop where
  perm : placed.Perm ((waiting ++ rest).filter (·.1.isOperative))
  ordered : placed.Pairwise fun a b => b.1.isOperand = true → a.2 < b.2

namespace Rearranges

variable {pending : List Pending} {n : Nat} {tokens : List Token} {token : Token}
  {waiting rest placed : List (Token × Nat)} {a : Token × Nat}

/-- Numbers and names that come out come from what was still to be read. -/
theorem le_of_mem (h : Rearranges waiting (tokens.zipIdx n) placed)
    (hwaiting : Numbered pending n waiting) (ha : a ∈ placed) (hoperand : a.1.isOperand = true) :
    n ≤ a.2 := by
  obtain hmem | hmem := List.mem_append.1 (List.mem_filter.1 (h.perm.mem_iff.1 ha)).1
  · rw [hwaiting.not_isOperand hmem] at hoperand
    cases hoperand
  · exact List.le_snd_of_mem_zipIdx hmem

/-- A token that was read may wait. -/
theorem push (h : Rearranges (a :: waiting) rest placed) : Rearranges waiting (a :: rest) placed :=
  ⟨h.perm.trans (List.perm_middle.symm.filter _), h.ordered⟩

/-- Parentheses and commas are passed over. -/
theorem skip (h : Rearranges waiting rest placed) (ha : a.1.isOperative = false) :
    Rearranges waiting (a :: rest) placed := by
  refine push ⟨?_, h.ordered⟩
  rw [List.cons_append, List.filter_cons_of_neg (by simp [ha])]
  exact h.perm

/-- A number or a name comes out when it is read. -/
theorem read (h : Rearranges waiting (tokens.zipIdx (n + 1)) placed)
    (hwaiting : Numbered pending n waiting) (htoken : token.isOperative = true) :
    Rearranges waiting ((token :: tokens).zipIdx n) ((token, n) :: placed) := by
  refine ⟨?_, List.pairwise_cons.2 ⟨fun b hb => h.le_of_mem hwaiting.succ hb, h.ordered⟩⟩
  have hperm := h.perm.cons (token, n)
  rw [← List.filter_cons_of_pos (p := fun a : Token × Nat => a.1.isOperative) htoken] at hperm
  exact hperm.trans (List.perm_middle.symm.filter _)

/-- What waited comes out in front of what comes later. -/
theorem emit {emitted : List (Token × Nat)} {kept : List Pending}
    (h : Rearranges waiting (tokens.zipIdx n) placed) (hwaiting : Numbered kept n waiting)
    (hall : Numbered pending n (emitted ++ waiting)) :
    Rearranges (emitted ++ waiting) (tokens.zipIdx n)
      (emitted.filter (·.1.isOperative) ++ placed) := by
  -- Nothing that waits is a number or a name, so only pairs with one of each sort are to be
  -- compared; and numbers and names that come later have higher numbers than all that waits.
  refine ⟨?_, List.pairwise_append.2 ⟨?_, h.ordered, ?_⟩⟩
  · rw [List.append_assoc, List.filter_append]
    exact h.perm.append_left _
  · refine List.pairwise_of_forall_mem_list fun a _ b hb hoperand => ?_
    rw [hall.not_isOperand (List.mem_append_left _ (List.mem_filter.1 hb).1)] at hoperand
    cases hoperand
  · intro a ha b hb hoperand
    have hlt := hall.lt a (List.mem_append_left _ (List.mem_filter.1 ha).1)
    have hle := h.le_of_mem hwaiting hb hoperand
    omega

end Rearranges

/-- Numbered tokens of this program come out where some tokens wait and others are still to be
read. -/
def ComesOut (waiting rest : List (Token × Nat)) (program : List Token) : Prop :=
  ∃ placed, placed.map Prod.fst = program ∧ Rearranges waiting rest placed

/-- Where part of what waits comes out, the rest goes on waiting. -/
theorem comesOut_of_split {pending kept : List Pending} {n : Nat} {waiting : List (Token × Nat)}
    (hwaiting : Numbered pending n waiting) {applied : List Token}
    (hsplit : applied ++ kept.map Pending.token = pending.map Pending.token)
    {tokens program : List Token}
    (h : ∀ below, Numbered kept n below → ComesOut below (tokens.zipIdx n) program) :
    ComesOut waiting (tokens.zipIdx n) (applied.filter isOperative ++ program) := by
  -- What waits is split where the stack is split, with the numbers.
  obtain ⟨emitted, below, rfl, rfl, hbelow⟩ :=
    List.map_eq_append_iff.1 (hwaiting.tokens.trans hsplit.symm)
  have hkept : Numbered kept n below :=
    ⟨hbelow, fun a ha => hwaiting.lt a (List.mem_append_right _ ha)⟩
  obtain ⟨placed, rfl, hplaced⟩ := h below hkept
  refine ⟨_, ?_, hplaced.emit hkept hwaiting⟩
  rw [List.map_append, List.filter_map]
  rfl

/-- What comes out of a token and of those behind it, if what waits behind the token and the others
come out rearranged. -/
theorem comesOut_of_moves {pending kept : List Pending} {token : Token} {out : List Token}
    (hmoves : Moves pending token out kept) {n : Nat} {waiting : List (Token × Nat)}
    (hwaiting : Numbered pending n waiting) {rest program : List Token}
    (h : ∀ {below}, Numbered kept (n + 1) below → ComesOut below (rest.zipIdx (n + 1)) program) :
    ComesOut waiting ((token :: rest).zipIdx n) (out ++ program) := by
  cases hmoves with
  | comesOut hoperand =>
    obtain ⟨placed, rfl, hplaced⟩ := h hwaiting.succ
    exact ⟨(token, n) :: placed, rfl, hplaced.read hwaiting (isOperative_of_isOperand hoperand)⟩
  | waits hsplit htop =>
    refine comesOut_of_split hwaiting hsplit fun below hbelow => ?_
    subst htop
    obtain ⟨placed, hout, hplaced⟩ := h (hbelow.push _)
    exact ⟨placed, hout, hplaced.push⟩
  | passedOver hsplit hpassed =>
    refine comesOut_of_split hwaiting hsplit fun below hbelow => ?_
    obtain ⟨placed, hout, hplaced⟩ := h hbelow.succ
    exact ⟨placed, hout, hplaced.skip hpassed⟩

/-- What waits and the tokens that are read come out rearranged. -/
theorem comesOut_of_postfixFrom {text : String} {pending : List Pending}
    {tokens program : List Token} (h : postfixFrom text pending tokens = .ok program) {n : Nat}
    {waiting : List (Token × Nat)} (hwaiting : Numbered pending n waiting) :
    ComesOut waiting (tokens.zipIdx n) program := by
  refine program_induction
    (motive := fun pending tokens program => ∀ n waiting, Numbered pending n waiting →
      ComesOut waiting (tokens.zipIdx n) program) ?_ ?_ h n waiting hwaiting
  · -- At the end everything comes out that waits, and none of it is a parenthesis.
    intro pending hnoParen n waiting hwaiting
    have hinside : inside pending = pending.map Pending.token := by
      rw [← inside_append_around, around_eq_nil hnoParen, List.map_nil, List.append_nil]
    have hnone : ∀ below, Numbered [] n below →
        ComesOut below (([] : List Token).zipIdx n) [] := by
      intro below hbelow
      rw [List.map_eq_nil_iff.1 hbelow.tokens]
      exact ⟨[], rfl, .nil, .nil⟩
    have hout := comesOut_of_split hwaiting (List.append_nil _) hnone
    rwa [← hinside, filter_inside, List.append_nil, hinside] at hout
  · intro pending token rest out kept program hafter ih n waiting hwaiting
    exact comesOut_of_moves (moves_of_after hafter) hwaiting fun hbelow => ih _ _ hbelow

/-- **Nothing is lost and nothing is added**: the program holds the tokens of the text but for
parentheses and commas. -/
theorem perm_of_toPostfix {text : String} {tokens program : List Token}
    (h : toPostfix tokens text = .ok program) : program.Perm (tokens.filter isOperative) := by
  obtain ⟨placed, rfl, hperm, _⟩ := comesOut_of_postfixFrom h (Numbered.nil 0)
  have htokens : (tokens.filter isOperative) =
      (tokens.zipIdx.filter (·.1.isOperative)).map Prod.fst := by
    rw [← List.zipIdx_map_fst 0 tokens, List.filter_map, List.zipIdx_map_fst]
    rfl
  rw [htokens]
  exact hperm.map Prod.fst

theorem mem_of_toPostfix {text : String} {tokens program : List Token}
    (h : toPostfix tokens text = .ok program) {token : Token} (htoken : token ∈ program) :
    token ∈ tokens ∧ token.isOperative = true :=
  List.mem_filter.1 ((perm_of_toPostfix h).mem_iff.1 htoken)

/-! ### In which order

`Rearranges` compares the members of the program in pairs.  What a reader wants to know is told
apart by `Rearranged`: that numbers and names keep their order, and that nothing else passes one
of them towards the front. -/

theorem pairwise_zipIdx (tokens : List Token) (n : Nat) :
    (tokens.zipIdx n).Pairwise fun a b => a.2 < b.2 := by
  have hrange : ((tokens.zipIdx n).map Prod.snd).Pairwise (· < ·) := by
    rw [List.zipIdx_map_snd]
    exact List.pairwise_lt_range'
  exact List.pairwise_map.1 hrange

/-- The numbered tokens of a text that `placed` lists in another order: all of them but parentheses
and commas, numbers and names in the order of the text, and every token behind all the numbers and
names that stand in front of it in the text. -/
structure Rearranged (tokens : List Token) (placed : List (Token × Nat)) : Prop where
  perm : placed.Perm (tokens.zipIdx.filter (·.1.isOperative))
  operands : placed.filter (·.1.isOperand) = tokens.zipIdx.filter (·.1.isOperand)
  behind : ∀ front token rest, placed = front ++ token :: rest →
    ∀ operand ∈ tokens.zipIdx, operand.1.isOperand = true → operand.2 < token.2 → operand ∈ front

theorem Rearranges.rearranged {tokens : List Token} {placed : List (Token × Nat)}
    (h : Rearranges [] tokens.zipIdx placed) : Rearranged tokens placed := by
  obtain ⟨hperm, hordered⟩ := h
  refine ⟨hperm, ?_, ?_⟩
  · have hfilter : (tokens.zipIdx.filter (·.1.isOperative)).filter (·.1.isOperand) =
        tokens.zipIdx.filter (·.1.isOperand) := by
      rw [List.filter_filter]
      refine List.filter_congr fun a _ => ?_
      simpa using isOperative_of_isOperand
    have hascending : (placed.filter (·.1.isOperand)).Pairwise fun a b => a.2 < b.2 :=
      (hordered.filter _).imp_of_mem fun _ hb hlt => hlt (List.mem_filter.1 hb).2
    -- Both lists are ascending, so they have the same members in the same order.
    refine List.Perm.eq_of_pairwise (fun a b _ _ hab hba => ?_) hascending
      ((pairwise_zipIdx tokens 0).filter _) (hfilter ▸ hperm.filter _)
    omega
  · rintro front token rest rfl operand hmem hoperand hlt
    have hplaced := hperm.mem_iff.2
      (List.mem_filter.2 ⟨hmem, isOperative_of_isOperand hoperand⟩)
    -- An operand with a lower number is in the program; it can be neither the token itself nor
    -- behind it.
    obtain hfront | htoken | hrest := by simpa only [List.mem_append, List.mem_cons] using hplaced
    · exact hfront
    · subst htoken
      omega
    · have hbefore := (List.pairwise_cons.1 (List.pairwise_append.1 hordered).2.1).1 operand hrest
      have hlt' := hbefore hoperand
      omega

/-- **The postfix order only moves operators and calls, and these only back**: the program is made
of the tokens of the text, each one once, but for parentheses and commas.  Numbers and names keep
their order, and no operator or call comes in front of one that stands in front of it. -/
theorem rearranged_of_toPostfix {text : String} {tokens program : List Token}
    (h : toPostfix tokens text = .ok program) :
    ∃ placed, placed.map Prod.fst = program ∧ Rearranged tokens placed := by
  obtain ⟨placed, hprogram, hplaced⟩ := comesOut_of_postfixFrom h (Numbered.nil 0)
  exact ⟨placed, hprogram, hplaced.rearranged⟩

/-- `- a (b + min c) *`: no formula, but its tokens have a postfix order. -/
theorem rearranged_of_operators_without_operands :
    let tokens := [.operator (.binary .sub), .name "a" "", .leftParen, .name "b" "",
      .operator (.binary .add), .call (.builtin .min) 2, .name "c" "", .rightParen,
      .operator (.binary .mul)]
    ∃ program, toPostfix tokens "" = .ok program ∧
      program = [.name "a" "", .name "b" "", .name "c" "", .call (.builtin .min) 2,
        .operator (.binary .add), .operator (.binary .mul), .operator (.binary .sub)] ∧
      ∃ placed, placed.map Prod.fst = program ∧ Rearranged tokens placed := by
  intro tokens
  have hordered : toPostfix tokens "" = .ok [.name "a" "", .name "b" "", .name "c" "",
      .call (.builtin .min) 2, .operator (.binary .add), .operator (.binary .mul),
      .operator (.binary .sub)] := rfl
  exact ⟨_, hordered, rfl, rearranged_of_toPostfix hordered⟩

end Token

end Dimensional.Formula
