import Dimensional.Proofs.Formula.Sentence
import Dimensional.Proofs.Formula.Spaced
import Mathlib.Data.List.DropRight

/-!
# Tokens in their places

What holds of every token that a text is cut into, and of its place between its neighbours
(`Token.InPlace`, `inPlace_of_scan`): numbers are finite, brackets in the texts of units match,
operators have a precedence, calls are calls of built-in functions in front of a parenthesis, and a
minus sign has one operand exactly where an operand has to follow.
-/

namespace Dimensional.Formula

open Fallible

/-! ### Brackets in the texts of units

The scanner counts brackets, and `Bracketed` is a grammar.  They are connected by what is left to
close at a given count (`Closing`); at the count zero that is the grammar itself.  Trimming then
takes off characters that are no brackets, from one end and from the other. -/

/-- The characters close all but the outermost of `depth + 1` open brackets. -/
inductive Closing : Nat → List Char → Prop where
  | zero {cs : List Char} : Bracketed cs → Closing 0 cs
  | succ {depth : Nat} {inside cs : List Char} :
      Bracketed inside → Closing depth cs → Closing (depth + 1) (inside ++ ']' :: cs)

theorem Closing.plain {depth : Nat} {c : Char} {cs : List Char} (hc : c ∉ ['[', ']'])
    (h : Closing depth cs) : Closing depth (c :: cs) := by
  cases h with
  | zero h => exact .zero (.plain hc h)
  | succ hinside h => exact .succ (.plain hc hinside) h

/-- A bracket that is opened is closed by the first one that was closing another. -/
theorem Closing.opens {depth : Nat} {cs : List Char} (h : Closing (depth + 1) cs) :
    Closing depth ('[' :: cs) := by
  obtain _ | @⟨_, inside, behind, hinside, h⟩ := h
  cases h with
  | zero h => exact .zero (.nested hinside h)
  | @succ depth next cs hnext h =>
    have hnested : Bracketed ('[' :: (inside ++ ']' :: next)) := .nested hinside hnext
    have hall := Closing.succ hnested h
    rwa [List.cons_append, List.append_assoc, List.cons_append] at hall

theorem closing_of_takeBracketed? {depth : Nat} {cs inside rest : List Char}
    (h : Token.takeBracketed? depth cs = some (inside, rest)) : Closing depth inside := by
  fun_induction Token.takeBracketed? depth cs generalizing inside rest with
  | case1 => cases h
  | case2 =>
    cases h
    exact .zero .nil
  | case3 depth cs ih =>
    obtain ⟨⟨part, left⟩, hpart, heq⟩ := Option.map_eq_some_iff.1 h
    cases heq
    exact .succ .nil (ih hpart)
  | case4 depth c cs hclosed hclose ih =>
    obtain ⟨⟨part, left⟩, hpart, heq⟩ := Option.map_eq_some_iff.1 h
    cases heq
    -- An opening bracket raises the count, and any other character leaves it.
    by_cases hopen : c = '['
    · subst hopen
      rw [if_pos rfl] at ih hpart
      exact (ih hpart).opens
    · have hne : c ≠ ']' := by
        rintro rfl
        cases depth with
        | zero => exact hclosed rfl rfl
        | succ depth => exact hclose depth rfl rfl
      rw [if_neg hopen] at ih hpart
      exact (ih hpart).plain (by simp [hopen, hne])

/-- What stands at an end of matching brackets and is no bracket may be taken off. -/
theorem bracketed_of_cons {c : Char} {cs : List Char} (hc : c ∉ ['[', ']'])
    (h : Bracketed (c :: cs)) : Bracketed cs := by
  cases h with
  | plain _ h => exact h
  | nested => exact absurd List.mem_cons_self hc

theorem bracketed_of_concat {c : Char} {cs : List Char} (hc : c ∉ ['[', ']'])
    (h : Bracketed (cs ++ [c])) : Bracketed cs := by
  generalize hwhole : cs ++ [c] = whole at h
  -- The grammar works from the front, so the last character is found by induction.
  induction h generalizing cs with
  | nil => simp at hwhole
  | @plain d ds hd hds ih =>
    cases cs with
    | nil => exact .nil
    | cons b bs =>
      cases hwhole
      exact .plain hd (ih rfl)
  | @nested inside ds hinside hds _ ih =>
    cases ds using List.reverseRecOn with
    | nil =>
      -- The last character would be a bracket.
      have hlast : cs ++ [c] = ('[' :: inside) ++ [']'] := by simpa using hwhole
      obtain ⟨_, rfl⟩ := List.append_singleton_inj.1 hlast
      simp at hc
    | append_singleton ds d _ =>
      have hlast : cs ++ [c] = ('[' :: (inside ++ ']' :: ds)) ++ [d] := by simpa using hwhole
      obtain ⟨rfl, rfl⟩ := List.append_singleton_inj.1 hlast
      exact .nested hinside (ih rfl)

theorem bracketed_trim {p : Char → Bool} (hp : ∀ c, p c = true → c ∉ ['[', ']']) {cs : List Char}
    (h : Bracketed cs) : Bracketed (Character.trim p cs) := by
  have hfront : Bracketed (cs.dropWhile p) := by
    induction cs with
    | nil => exact h
    | cons c cs ih =>
      rw [List.dropWhile_cons]
      split
      · next hc => exact ih (bracketed_of_cons (hp c hc) h)
      · exact h
  show Bracketed ((cs.dropWhile p).rdropWhile p)
  generalize cs.dropWhile p = cs at hfront
  induction cs using List.reverseRecOn with
  | nil => exact hfront
  | append_singleton cs c ih =>
    rw [List.rdropWhile_concat]
    split
    · next hc => exact ih (bracketed_of_concat (hp c hc) hfront)
    · exact hfront

theorem bracketed_of_takeUnit {cs rest : List Char} {unitText : String}
    (h : Token.takeUnit cs = .ok (unitText, rest)) : Bracketed unitText.toList := by
  unfold Token.takeUnit at h
  split at h
  · split at h
    · next hinside =>
      cases h
      rw [String.toList_ofList]
      obtain ⟨hinside⟩ := closing_of_takeBracketed? hinside
      refine bracketed_trim (fun c hc => ?_) hinside
      rintro hbracket
      have hplain : ['[', ']'].all (!Character.isBlank ·) = true := by decide
      simpa [hc] using List.all_eq_true.1 hplain c hbracket
    · cases h
  · cases h
    exact .nil

namespace Token

/-! ### Single tokens

A token is checked when it is taken, and all that is needed of its neighbours is known by then:
whether the one before expects an operand is handed to `take`, and of the one behind only a
parenthesis matters. -/

/-- The token is one that can be worked with, and stands where it may between its neighbours.  At
the ends of a text there is none. -/
def InPlace (before : Option Token) (token : Token) (after : Option Token) : Prop :=
  match token with
  | .number value unitText => value.isFinite = true ∧ Bracketed unitText.toList
  | .name _ unitText => Bracketed unitText.toList
  | .operator op =>
    (∃ n, op.precedence? = some n) ∧
      (op = .unary .minus → before.all expectsOperand = true) ∧
      (op = .binary .sub → before.any (!·.expectsOperand) = true)
  | .call callee arity =>
    (∃ f : Builtin, callee = .builtin f ∧ arity = f.arity) ∧ after = some .leftParen
  | .leftParen | .rightParen | .comma => True
  | .foreign _ => False

theorem inPlace_of_takeQuantity {c : Char} {rest tail : List Char} {token : Token}
    (h : takeQuantity c rest = .ok (token, tail)) (before after : Option Token) :
    token.InPlace before after := by
  unfold takeQuantity at h
  simp only at h
  split at h
  · cases h
  · split at h
    · next hfinite =>
      obtain ⟨part, hunit, heq⟩ := map_eq_ok_iff.1 h
      cases heq
      exact ⟨hfinite, bracketed_of_takeUnit hunit⟩
    · cases h

theorem inPlace_of_takeName {c : Char} {rest tail : List Char} {token : Token}
    (h : takeName c rest = .ok (token, tail)) (before : Option Token) {after : Option Token}
    (hafter : opensNext tail = true → after = some .leftParen) : token.InPlace before after := by
  unfold takeName at h
  simp only at h
  split at h
  · next f _ hopens =>
    cases h
    exact ⟨⟨f, rfl, rfl⟩, hafter hopens⟩
  · obtain ⟨part, hunit, heq⟩ := map_eq_ok_iff.1 h
    cases heq
    exact bracketed_of_takeUnit hunit

/-- Whether a minus sign has one operand hangs on the token before it. -/
theorem inPlace_minus (before after : Option Token) :
    (Token.operator (if before.all expectsOperand then .unary .minus else .binary .sub)).InPlace
      before after := by
  split
  · next hbefore => exact ⟨⟨_, rfl⟩, fun _ => hbefore, nofun⟩
  · next hbefore =>
    refine ⟨⟨_, rfl⟩, nofun, fun _ => ?_⟩
    cases before with
    | none => exact absurd rfl hbefore
    | some token => simpa using hbefore

theorem inPlace_of_takeSign {before : Option Token} {c : Char} {rest tail : List Char}
    {token : Token} (h : takeSign (before.all expectsOperand) c rest = .ok (token, tail))
    (after : Option Token) : token.InPlace before after := by
  unfold takeSign at h
  split at h
  case h_11 =>
    cases h
    exact inPlace_minus before after
  case h_7 | h_8 | h_9 =>
    cases h
    trivial
  case h_18 => cases h
  all_goals
    cases h
    exact ⟨⟨_, rfl⟩, nofun, nofun⟩

/-- A token is in its place behind the one that stands before it, and in front of a parenthesis if
one is opened next. -/
theorem inPlace_of_take {before : Option Token} {c : Char} {rest tail : List Char} {token : Token}
    (h : take (before.all expectsOperand) c rest = .ok (token, tail)) {after : Option Token}
    (hafter : opensNext tail = true → after = some .leftParen) : token.InPlace before after := by
  unfold take at h
  split at h
  · exact inPlace_of_takeQuantity h before after
  · split at h
    · exact inPlace_of_takeName h before hafter
    · exact inPlace_of_takeSign h after

/-! ### All tokens -/

/-- Every token is in its place, the first of them behind `previous`. -/
theorem inPlace_of_scanFrom {text : String} (previous : Option Token) (cs : List Char)
    {tokens : List Token} (h : scanFrom text (previous.all expectsOperand) cs = .ok tokens)
    {before behind : List Token} {token : Token} (hsplit : tokens = before ++ token :: behind) :
    token.InPlace (before.getLast?.or previous) behind.head? := by
  match cs with
  | [] =>
    rw [scanFrom] at h
    cases h
    simp at hsplit
  | c :: rest =>
    cases hc : Character.isBlank c with
    | true =>
      rw [scanFrom_blank hc] at h
      exact inPlace_of_scanFrom previous rest h hsplit
    | false =>
      obtain ⟨first, tail, more, htake, hmore, rfl⟩ := scanFrom_cons_eq_ok hc h
      have hlt := length_lt_of_take htake
      cases before with
      | nil =>
        cases hsplit
        exact inPlace_of_take htake fun hopens => head?_of_opensNext hopens hmore
      | cons first' before =>
        -- What stands before the token is behind the first one, or is the first one itself.
        cases hsplit
        have hrest := inPlace_of_scanFrom (some first) tail hmore rfl
        rwa [List.getLast?_cons, Option.some_or, ← Option.or_some]
termination_by cs.length
decreasing_by
  · exact hlt
  · exact Nat.lt_succ_self _

/-- Every token of a text is in its place. -/
theorem inPlace_of_scan {text : String} {tokens before behind : List Token} {token : Token}
    (h : scan text = .ok tokens) (hsplit : tokens = before ++ token :: behind) :
    token.InPlace before.getLast? behind.head? := by
  have hplace := inPlace_of_scanFrom none text.toList h hsplit
  rwa [Option.or_none] at hplace

end Token

end Dimensional.Formula
