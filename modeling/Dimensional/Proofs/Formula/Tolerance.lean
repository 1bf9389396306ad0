import Dimensional.Proofs.Decimal.Order
import Dimensional.Proofs.Formula.Lockstep
import Dimensional.Proofs.Formula.Unwritable

/-!
# Evaluations under a looser tolerance

Whether dimensions agree is asked in order to refuse those that do not, and for nothing else.  So a
token does the same under a looser tolerance, unless the stricter one refuses its quantities
(`agreesUnless_step`).

Main statement: `evaluate_of_tolerance_le` — a looser tolerance only takes away errors of dimensions
that do not fit.
-/

namespace Dimensional

open Fallible

/-! ### Dimensions -/

namespace Dimension

variable {t t' : Float} {a b : Dimension}

/-- Dimensions that agree do so within a looser tolerance. -/
theorem agree_of_le (ht : t ≤ t') (h : a.agree t b = true) : a.agree t' b = true := by
  rw [agree, Exponents.agree, List.all_eq_true] at h ⊢
  intro pair hpair
  exact decide_eq_true (Decimal.lt_of_lt_of_le (of_decide_eq_true (h pair hpair)) ht)

/-- A pure number is one within a looser tolerance. -/
theorem isOne_of_le (ht : t ≤ t') (h : a.isOne t = true) : a.isOne t' = true := by
  rw [isOne, Exponents.isZero, List.all_eq_true] at h ⊢
  intro x hx
  exact decide_eq_true (Decimal.lt_of_lt_of_le (of_decide_eq_true (h x hx)) ht)

end Dimension

/-! ### Refusals

A refusal shows the dimensions that do not fit, and showing them may fail in turn.  Either way it
is the stricter tolerance that brought the program there, so both count as the same refusal. -/

/-- An error of dimensions that do not fit, or of putting such an error into words: that is met by
showing the dimension of one of these quantities. -/
inductive IsMismatch (shown : List Quantity) : Error → Prop where
  | mismatch (operation detail : String) : IsMismatch shown (.unitMismatch operation detail)
  | unwritable {q : Quantity} {e : Error} :
      q ∈ shown → q.dims.unitText = .error e → IsMismatch shown e

theorem IsMismatch.kind_eq_or {shown : List Quantity} {e : Error} (h : IsMismatch shown e) :
    e.kind = .unitMismatch ∨ e.IsConversion := by
  cases h with
  | mismatch => exact .inl rfl
  | unwritable _ htext => exact .inr (raises_unitText _ e htext)

/-- Showing the dimension of one of the quantities may fail. -/
theorem raises_unitText_of_mem {shown : List Quantity} {q : Quantity} (h : q ∈ shown) :
    Raises (IsMismatch shown) q.dims.unitText :=
  fun _ => .unwritable h

namespace Rule

variable {t t' : Float} {shown : List Quantity} {a b : Quantity}

/-- A looser tolerance lets quantities pass that a stricter one refuses, and no others.  What
both let pass is left as it is, since a check has no other effect. -/
theorem agreesUnless_requireSame (ht : t ≤ t') (operation what : String) (ha : a ∈ shown)
    (hb : b ∈ shown) :
    AgreesUnless (IsMismatch shown) (requireSame t operation what a b)
      (requireSame t' operation what a b) := by
  refine agreesUnless_ite (Dimension.agree_of_le ht) ?_
  refine (raises_unitText_of_mem ha).meets.bind fun _ _ _ => ?_
  exact (raises_unitText_of_mem hb).meets.bind fun _ _ _ => .mismatch _ _

/-- A looser tolerance takes more quantities for pure numbers, and the same as the stricter one
where that takes them. -/
theorem agreesUnless_requireOne (ht : t ≤ t') (operation : String) (ha : a ∈ shown) :
    AgreesUnless (IsMismatch shown) (requireOne t operation a) (requireOne t' operation a) := by
  refine agreesUnless_ite (Dimension.isOne_of_le ht) ?_
  exact (raises_unitText_of_mem ha).meets.bind fun _ _ _ => .mismatch _ _

/-! ### Rules -/

/-- The second rule does what the first one does, but for operands that the first one refuses for
their dimensions. -/
inductive Loosens : Rule → Rule → Prop where
  | one {f f' : Quantity → Except Error Quantity} :
      (∀ a, AgreesUnless (IsMismatch [a]) (f a) (f' a)) → Loosens (.one f) (.one f')
  | two {f f' : Quantity → Quantity → Except Error Quantity} :
      (∀ a b, AgreesUnless (IsMismatch [b, a]) (f a b) (f' a b)) → Loosens (.two f) (.two f')
  | three {f f' : Quantity → Quantity → Quantity → Except Error Quantity} :
      (∀ a b c, AgreesUnless (IsMismatch [c, b, a]) (f a b c) (f' a b c)) →
        Loosens (.three f) (.three f')

theorem Loosens.refl (rule : Rule) : Loosens rule rule := by
  cases rule with
  | one f => exact .one fun _ => .inl rfl
  | two f => exact .two fun _ _ => .inl rfl
  | three f => exact .three fun _ _ _ => .inl rfl

theorem Loosens.applyTop {rule rule' : Rule} (h : Loosens rule rule') (name : String)
    (stack : List Quantity) :
    AgreesUnless (IsMismatch (stack.take rule.arity)) (rule.applyTop name stack)
      (rule'.applyTop name stack) := by
  cases h with
  -- Without enough operands neither rule is asked.
  | one h =>
    obtain _ | ⟨a, rest⟩ := stack
    · exact .inl rfl
    · exact (h a).map
  | two h =>
    obtain _ | ⟨b, _ | ⟨a, rest⟩⟩ := stack
    · exact .inl rfl
    · exact .inl rfl
    · exact (h a b).map
  | three h =>
    obtain _ | ⟨c, _ | ⟨b, _ | ⟨a, rest⟩⟩⟩ := stack
    · exact .inl rfl
    · exact .inl rfl
    · exact .inl rfl
    · exact (h a b c).map

theorem loosens_sameDimension (ht : t ≤ t') (operation : String) (f : Float → Float → Float) :
    Loosens (sameDimension t operation f) (sameDimension t' operation f) :=
  .two fun _ _ => (agreesUnless_requireSame ht _ _ (by simp) (by simp)).bind fun _ _ => .inl rfl

theorem loosens_comparison (ht : t ≤ t') (operation : String) (f : Float → Float → Bool) :
    Loosens (comparison t operation f) (comparison t' operation f) :=
  .two fun _ _ => (agreesUnless_requireSame ht _ _ (by simp) (by simp)).bind fun _ _ => .inl rfl

theorem loosens_connective (ht : t ≤ t') (operation : String) (f : Bool → Bool → Bool) :
    Loosens (connective t operation f) (connective t' operation f) :=
  .two fun _ _ => (agreesUnless_requireOne ht _ (by simp)).bind fun _ _ =>
    (agreesUnless_requireOne ht _ (by simp)).bind fun _ _ => .inl rfl

theorem loosens_numeric (ht : t ≤ t') (name : String) (f : Float → Float) :
    Loosens (numeric t name f) (numeric t' name f) :=
  .one fun _ => (agreesUnless_requireOne ht _ (by simp)).bind fun _ _ => .inl rfl

theorem loosens_powers (ht : t ≤ t') : Loosens (powers t) (powers t') :=
  .two fun _ _ => (agreesUnless_requireOne ht _ (by simp)).bind fun _ _ => .inl rfl

/-- A choice asks twice, about the condition and about the branches.  The looser tolerance may
pass the first and refuse the second, which the stricter one has not come to. -/
theorem loosens_choice (ht : t ≤ t') : Loosens (choice t) (choice t') :=
  .three fun _ _ _ => (agreesUnless_requireOne ht _ (by simp)).bind fun _ _ =>
    (agreesUnless_requireSame ht _ _ (by simp) (by simp)).bind fun _ _ => .inl rfl

theorem loosens_unary (ht : t ≤ t') (op : UnaryOp) : Loosens (op.rule t) (op.rule t') := by
  cases op with
  | minus => exact .refl _
  | not => exact .one fun _ => (agreesUnless_requireOne ht _ (by simp)).bind fun _ _ => .inl rfl

theorem loosens_binary (ht : t ≤ t') (op : BinaryOp) : Loosens (op.rule t) (op.rule t') := by
  unfold BinaryOp.rule
  cases op with
  | add | sub => exact loosens_sameDimension ht _ _
  | mul | div => exact .refl _
  | pow => exact loosens_powers ht
  | lt | le | gt | ge | eq | ne => exact loosens_comparison ht _ _
  | and | or => exact loosens_connective ht _ _

theorem loosens_builtin (ht : t ≤ t') (f : Builtin) : Loosens (f.rule t) (f.rule t') := by
  unfold Builtin.rule
  cases f with
  | cond => exact loosens_choice ht
  | min | max => exact loosens_sameDimension ht _ _
  | abs | sqrt => exact .refl _
  | log | log10 | exp => exact loosens_numeric ht _ _

end Rule

namespace Formula

/-! ### Single tokens -/

section

variable {t t' : Float} {lookup : Lookup}

theorem agreesUnless_checkDeclared (ht : t ≤ t') (path unitText : String) (q : Quantity) :
    AgreesUnless (IsMismatch [q]) (checkDeclared t path unitText q)
      (checkDeclared t' path unitText q) := by
  unfold checkDeclared
  split
  · refine AgreesUnless.bind (.inl rfl) fun unit _ => ?_
    -- What the stricter side does once the dimensions do not agree, whatever that comes to.
    have hrefuses : Meets (fun _ => False) (IsMismatch [q]) (do
        let text ← q.dims.unitText
        throw (.unitMismatch path
          ("declared [" ++ unitText ++ "] but value has [" ++ text ++ "]")) :
        Except Error PUnit) :=
      (raises_unitText_of_mem (List.mem_singleton_self q)).meets.bind fun _ _ _ => .mismatch _ _
    cases hagree : q.dims.agree t unit.dims with
    | false => exact .inr hrefuses
    | true =>
      rw [Dimension.agree_of_le ht hagree]
      exact .inl rfl
  · exact .inl rfl

/-- A name is looked up alike on both sides, and its quantity is then checked against its
declaration. -/
theorem agreesUnless_reference (ht : t ≤ t') (path unitText : String) :
    AgreesUnless (IsMismatch (lookup path >>= Item.toQuantity).toOption.toList)
      (reference t lookup path unitText) (reference t' lookup path unitText) := by
  rw [reference_eq_bind, reference_eq_bind]
  refine AgreesUnless.bind (.inl rfl) fun q hq => ?_
  rw [hq]
  exact (agreesUnless_checkDeclared ht path unitText q).bind fun _ _ => .inl rfl

/-- **One token under a looser tolerance** does what it does under the stricter one, unless that
refuses it for the dimensions of the quantities it works with. -/
theorem agreesUnless_step (ht : t ≤ t') (token : Token) (stack : List Quantity) :
    AgreesUnless (IsMismatch (token.operands lookup stack)) (step t lookup stack token)
      (step t' lookup stack token) := by
  obtain ⟨value, unitText⟩ | ⟨path, unitText⟩ | (op | op | symbol) | ⟨f | shown, arity⟩ | _ | _ |
    _ | shown := token
  · exact .inl rfl
  · exact (agreesUnless_reference ht path unitText).map
  · have happly := (Rule.loosens_unary ht op).applyTop op.symbol stack
    rwa [UnaryOp.arity_rule] at happly
  · have happly := (Rule.loosens_binary ht op).applyTop op.symbol stack
    rwa [BinaryOp.arity_rule] at happly
  · exact .inl rfl
  · have happly := (Rule.loosens_builtin ht f).applyTop (f.name ++ "()") stack
    rw [Builtin.arity_rule] at happly
    rw [step, step]
    split
    · exact happly
    · exact .inl rfl
  all_goals exact .inl rfl

end

/-! ### Evaluations

The tolerance is read from the settings once and used at every token.  The two runs go together
up to the first token that the stricter one refuses; after that nothing is said about the looser
one. -/

/-- An evaluation fails at this place because dimensions do not fit.  Its error is the mismatch,
or what came of showing the dimensions that do not fit. -/
def MismatchAt (settings : Settings) (f : Formula) (context : Context) (place : Nat) (e : Error) :
    Prop :=
  evaluatePlaced (.ok settings) f context = .error (some place, e) ∧
    ∃ lookup stack token, context.lookup? = some lookup ∧
      Arrives settings.tolerance lookup f.program place stack token ∧
      IsMismatch (token.operands lookup stack) e

/-- **A looser tolerance only takes away errors of dimensions that do not fit.**  An evaluation that
has a result under the stricter one has the same under the looser one, after the same look-ups.  One
that fails for another reason does so under the looser one, with the same error at the same place.
And where the looser one meets dimensions that do not fit, the stricter one does so there or
before. -/
theorem evaluate_of_tolerance_le {settings settings' : Settings}
    (ht : settings.tolerance ≤ settings'.tolerance) (f : Formula) (context : Context) :
    (∀ q, (evaluate (.ok settings) f context).result = .ok q →
      evaluate (.ok settings') f context = evaluate (.ok settings) f context) ∧
    (∀ place e, evaluatePlaced (.ok settings) f context = .error (place, e) →
      (∀ n, place = some n → ¬MismatchAt settings f context n e) →
      evaluatePlaced (.ok settings') f context = .error (place, e)) ∧
    ∀ place e, MismatchAt settings' f context place e →
      ∃ place' e', place' ≤ place ∧ MismatchAt settings f context place' e' := by
  cases hlookup : context.lookup? with
  | none =>
    -- Without a look-up both fail before any token, for a reason that is no mismatch.
    have hnone : ∀ settings : Settings,
        evaluate (.ok settings) f context = .ofExcept (.error (.evaluation .noLookup)) ∧
        evaluatePlaced (.ok settings) f context = .error (none, .evaluation .noLookup) := by
      intro settings
      unfold evaluate evaluatePlaced
      rw [hlookup]
      exact ⟨rfl, rfl⟩
    refine ⟨fun _ _ => ?_, fun place e he _ => ?_, ?_⟩
    · rw [(hnone settings).1, (hnone settings').1]
    · rw [(hnone settings').2, ← (hnone settings).2, he]
    · rintro place e ⟨_, lookup, _, _, hsome, _⟩
      rw [hlookup] at hsome
      cases hsome
  | some lookup =>
    rcases @evaluate_agrees_or_stops lookup id _ settings settings' context f f hlookup rfl
        (List.map_id _).symm (fun _ => rfl) (agreesUnless_step ht) with
      ⟨hrun, hplaced, hbefore⟩ | ⟨place, token, stack, e, harrives, harrives', hfail, hmismatch⟩
    -- Nothing is refused: the two evaluations are the same, and so are their mismatches.
    · refine ⟨fun _ _ => hrun.symm, fun place e he _ => hplaced ▸ he, fun place e he => ?_⟩
      obtain ⟨he, _, stack, token, hsome, ⟨htoken, hstack⟩, hmismatch⟩ := he
      cases hlookup.symm.trans hsome
      exact ⟨place, e, Nat.le_refl _, hplaced.trans he, lookup, stack, token, hlookup,
        ⟨htoken, (congrArg Outcome.result (hbefore place)).trans hstack⟩, hmismatch⟩
    -- The stricter one refuses a token that the looser one gets to with the same stack.
    · have hstrict : MismatchAt settings f context place e :=
        ⟨hfail, lookup, stack, token, hlookup, harrives, hmismatch⟩
      refine ⟨fun q hq => ?_, fun place' e' he' hno => ?_, fun place' e' he' => ?_⟩
      · rw [result_evaluate, hfail] at hq
        cases hq
      · cases hfail.symm.trans he'
        exact absurd hstrict (hno place rfl)
      · exact ⟨place, e, harrives'.le_of_evaluatePlaced hlookup he'.1, hstrict⟩

/-! ### A sum of three -/

/-- A sum of quantities that agree. -/
theorem step_add_of_agree {tolerance : Float} {a b : Quantity}
    (h : a.dims.agree tolerance b.dims = true) (lookup : Lookup) (rest : List Quantity) :
    step tolerance lookup (b :: a :: rest) (.operator (.binary .add)) =
      .ok (⟨a.value + b.value, a.dims⟩ :: rest) := by
  have hsame : Rule.requireSame tolerance BinaryOp.add.symbol Rule.matching a b = .ok ⟨⟩ := if_pos h
  show ((Rule.requireSame tolerance BinaryOp.add.symbol Rule.matching a b >>= _).map _) = _
  rw [hsame]
  rfl

/-- A sum of quantities that do not agree. -/
theorem step_add_of_not_agree {tolerance : Float} {a b : Quantity} {left right : String}
    (h : a.dims.agree tolerance b.dims = false) (hleft : a.dims.unitText = .ok left)
    (hright : b.dims.unitText = .ok right) (lookup : Lookup) (rest : List Quantity) :
    step tolerance lookup (b :: a :: rest) (.operator (.binary .add)) =
      .error (.unitMismatch "+"
        ("requires " ++ Rule.matching ++ ", got [" ++ left ++ "] and [" ++ right ++ "]")) := by
  have hsame : Rule.requireSame tolerance BinaryOp.add.symbol Rule.matching a b =
      .error (.unitMismatch "+"
        ("requires " ++ Rule.matching ++ ", got [" ++ left ++ "] and [" ++ right ++ "]")) := by
    rw [Rule.requireSame, h, hleft, hright]
    rfl
  show ((Rule.requireSame tolerance BinaryOp.add.symbol Rule.matching a b >>= _).map _) = _
  rw [hsame]
  rfl

/-- For a number `x`, a `y` that is nearly one, and a length `z`, within a billionth and within a
thousandth: `x*y` has the same result, `x+u` fails alike for want of a `u`, and where `x+y+z` is
refused within a thousandth because of `z`, it is within a billionth as well, there or before. -/
theorem evaluate_with_nearly_pure :
    let y : Quantity := ⟨2, ⟨[1e-6, 0, 0, 0, 0, 0, 0, 0], rfl⟩⟩
    let context : Context := .table ⟨[("x", .scalar 1), ("y", y), ("z", ⟨3, .length⟩)]⟩
    let product : Formula :=
      ⟨"x*y", [.name "x" "", .name "y" "", .operator (.binary .mul)], ["x", "y"]⟩
    let unbound : Formula :=
      ⟨"x+u", [.name "x" "", .name "u" "", .operator (.binary .add)], ["x", "u"]⟩
    let sum : Formula :=
      ⟨"x+y+z", [.name "x" "", .name "y" "", .operator (.binary .add), .name "z" "",
        .operator (.binary .add)], ["x", "y", "z"]⟩
    let loose : Settings := ⟨1e-3, .ignore, by decide⟩
    (1e-9 : Float) ≤ 1e-3 ∧
      (∃ q, (evaluate (.ok {}) product context).result = .ok q ∧
        (evaluate (.ok loose) product context).result = .ok q) ∧
      evaluatePlaced (.ok loose) unbound context = .error (some 1, .unknownSymbol "u") ∧
      MismatchAt loose sum context 4
        (.unitMismatch "+" "requires matching units, got [1] and [m]") ∧
      ∃ place e, place ≤ 4 ∧ MismatchAt {} sum context place e := by
  intro y context product unbound sum loose
  have ht : (1e-9 : Float) ≤ 1e-3 := by decide
  have hbound : context.lookup? = some (tableLookup ⟨[("x", .scalar 1), ("y", y),
    ("z", ⟨3, .length⟩)]⟩) := rfl
  obtain ⟨hresult, _⟩ := @evaluate_of_tolerance_le {} loose ht product context
  obtain ⟨_, hother, _⟩ := @evaluate_of_tolerance_le {} loose ht unbound context
  obtain ⟨_, _, hbefore⟩ := @evaluate_of_tolerance_le {} loose ht sum context
  -- Within a thousandth the first sum passes, and the second is refused.
  have hagree : Dimension.one.agree 1e-3 y.dims = true := by decide +kernel
  have hrefused : Dimension.one.agree 1e-3 .length = false := by decide +kernel
  have hone : Dimension.one.unitText = .ok "1" := rfl
  have hlength : Dimension.length.unitText = .ok "m" := rfl
  have harrives : Arrives loose.tolerance
      (tableLookup ⟨[("x", .scalar 1), ("y", y), ("z", ⟨3, .length⟩)]⟩)
      sum.program 4 [⟨3, .length⟩, ⟨1 + 2, .one⟩] (.operator (.binary .add)) := by
    refine ⟨rfl, ?_⟩
    show (run loose.tolerance _ [] [.name "x" "", .name "y" "", .operator (.binary .add),
      .name "z" ""]).result = _
    rw [result_run_of_step (step_plain_name rfl _ _), result_run_of_step (step_plain_name rfl _ _),
      result_run_of_step (@step_add_of_agree _ (.scalar 1) y hagree _ _),
      result_run_of_step (step_plain_name rfl _ _)]
    rfl
  have hmismatch : MismatchAt loose sum context 4
      (.unitMismatch "+" "requires matching units, got [1] and [m]") := by
    refine ⟨?_, _, _, _, hbound, harrives, .mismatch _ _⟩
    exact harrives.evaluatePlaced_eq_error hbound
      (@step_add_of_not_agree _ ⟨1 + 2, .one⟩ ⟨3, .length⟩ _ _ hrefused hone hlength _ [])
  refine ⟨ht, ⟨_, rfl, ?_⟩, hother _ _ rfl ?_, hmismatch, hbefore 4 _ hmismatch⟩
  · rw [hresult _ rfl]
    rfl
  -- A name that is not bound is neither a mismatch nor a failure to show one.
  · rintro n - ⟨_, _, _, _, _, _, hfits⟩
    rcases hfits.kind_eq_or with hkind | hconversion
    · cases hkind
    · cases hconversion

end Formula

end Dimensional
