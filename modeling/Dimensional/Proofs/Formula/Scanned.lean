import Dimensional.Formula.Scan
import Dimensional.Proofs.Fallible

/-!
# What texts are cut into

Properties of all token lists that come out of a text.  So far: the name of a function is a call
only where a parenthesis follows, so that every call stands right in front of one
(`callsOpen_of_scan`).
-/

namespace Dimensional.Formula.Token

def CallsOpen : List Token → Prop
  | [] => True
  | .call _ _ :: rest => rest.head? = some .leftParen ∧ CallsOpen rest
  | _ :: rest => CallsOpen rest

/-! ### Single tokens -/

/-- The first token of a text that is not blank, and the tokens of what it leaves. -/
theorem scanFrom_cons_eq_ok {text : String} {operandExpected : Bool} {c : Char} {rest : List Char}
    {tokens : List Token} (hc : Character.isBlank c = false)
    (h : scanFrom text operandExpected (c :: rest) = .ok tokens) :
    ∃ token tail more, take operandExpected c rest = .ok (token, tail) ∧
      scanFrom text token.expectsOperand tail = .ok more ∧ tokens = token :: more := by
  rw [scanFrom, if_neg (by simp [hc])] at h
  split at h
  · cases h
  · next token tail htake =>
    obtain ⟨more, hmore, rfl⟩ := Fallible.map_eq_ok_iff.1 h
    exact ⟨token, tail, more, htake, hmore, rfl⟩

theorem scanFrom_blank {text : String} {operandExpected : Bool} {c : Char} {rest : List Char}
    (hc : Character.isBlank c = true) :
    scanFrom text operandExpected (c :: rest) = scanFrom text operandExpected rest := by
  rw [scanFrom, if_pos hc]

/-- What begins neither a number nor a name is taken as a sign. -/
theorem take_eq_takeSign {c : Char} (h : (isNumberStart c || isNameStart c) = false)
    (operandExpected : Bool) (rest : List Char) :
    take operandExpected c rest = takeSign operandExpected c rest := by
  rw [Bool.or_eq_false_iff] at h
  rw [take, h.1, h.2]
  rfl

theorem take_leftParen (operandExpected : Bool) (rest : List Char) :
    take operandExpected '(' rest = .ok (.leftParen, rest) :=
  take_eq_takeSign (by decide +kernel) operandExpected rest

theorem take_rightParen (operandExpected : Bool) (rest : List Char) :
    take operandExpected ')' rest = .ok (.rightParen, rest) :=
  take_eq_takeSign (by decide +kernel) operandExpected rest

theorem take_comma (operandExpected : Bool) (rest : List Char) :
    take operandExpected ',' rest = .ok (.comma, rest) :=
  take_eq_takeSign (by decide +kernel) operandExpected rest

/-- Where a parenthesis is opened next, it is the next token. -/
theorem head?_of_opensNext {text : String} {operandExpected : Bool} {cs : List Char}
    {tokens : List Token} (hopens : opensNext cs = true)
    (h : scanFrom text operandExpected cs = .ok tokens) : tokens.head? = some .leftParen := by
  induction cs with
  | nil => cases hopens
  | cons c rest ih =>
    cases hc : Character.isBlank c with
    | true =>
      rw [scanFrom_blank hc] at h
      refine ih ?_ h
      simpa [opensNext, List.dropWhile_cons_of_pos hc] using hopens
    | false =>
      have heq : c = '(' := by simpa [opensNext, List.dropWhile_cons, hc] using hopens
      obtain ⟨token, tail, more, htake, _, rfl⟩ := scanFrom_cons_eq_ok hc h
      rw [heq, take_leftParen] at htake
      cases htake
      rfl

/-- A call is taken only where a parenthesis is opened next. -/
theorem opensNext_of_take {operandExpected : Bool} {c : Char} {rest tail : List Char}
    {callee : Callee} {arity : Int}
    (h : take operandExpected c rest = .ok (.call callee arity, tail)) : opensNext tail = true := by
  unfold take at h
  split at h
  · unfold takeQuantity at h
    simp only at h
    split at h
    · cases h
    · split at h
      · obtain ⟨_, _, heq⟩ := Fallible.map_eq_ok_iff.1 h
        cases heq
      · cases h
  · split at h
    -- The only tokens that are calls are names of functions, and these are taken with the check
    -- in hand.
    · unfold takeName at h
      simp only at h
      split at h
      · next hopens =>
        cases h
        exact hopens
      · obtain ⟨_, _, heq⟩ := Fallible.map_eq_ok_iff.1 h
        cases heq
    · unfold takeSign at h
      split at h <;> cases h

/-! ### All tokens

The induction follows the scan, which goes on behind each token; it is therefore on the length
of what is left and not on the text. -/

theorem callsOpen_of_scanFrom {text : String} (operandExpected : Bool) (cs : List Char)
    {tokens : List Token} (h : scanFrom text operandExpected cs = .ok tokens) :
    CallsOpen tokens := by
  match cs with
  | [] =>
    rw [scanFrom] at h
    cases h
    trivial
  | c :: rest =>
    cases hc : Character.isBlank c with
    | true =>
      rw [scanFrom_blank hc] at h
      exact callsOpen_of_scanFrom operandExpected rest h
    | false =>
      obtain ⟨token, tail, more, htake, hmore, rfl⟩ := scanFrom_cons_eq_ok hc h
      have hlt := length_lt_of_take htake
      have hrest := callsOpen_of_scanFrom token.expectsOperand tail hmore
      -- Only behind a call does it matter what comes next.
      cases token with
      | call callee arity => exact ⟨head?_of_opensNext (opensNext_of_take htake) hmore, hrest⟩
      | number | name | operator | leftParen | rightParen | comma | foreign => exact hrest
termination_by cs.length
decreasing_by
  · exact hlt
  · exact Nat.lt_succ_self _

/-- Every call in a text stands right in front of a parenthesis. -/
theorem callsOpen_of_scan {text : String} {tokens : List Token} (h : scan text = .ok tokens) :
    CallsOpen tokens := callsOpen_of_scanFrom true text.toList h

end Dimensional.Formula.Token
