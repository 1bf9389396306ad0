import Dimensional.Proofs.Formula.Lockstep
import Dimensional.Proofs.Formula.Value

/-!
# Dimensions do not hang on values

What dimension a tree has, and whether its dimensions fit, may hang on the numbers that names stand
for in two ways only: a choice takes one of two branches, and an exponent is a number.  A tree
without choices whose exponents name nothing is steady (`Tree.Steady`).

* `related_step` — two runs whose stacks have the same dimensions, and the same numbers where trees
  name nothing, take a step of a steady tree alike.
* `evaluate_dims_of_steady` — in bindings of the same names to the same dimensions a steady tree has
  the same dimension, or fails at the same token with the same error.
-/

namespace Dimensional

open Fallible

/-! ### Rules

Most rules look at the dimensions of their operands and at nothing else of them when they decide
whether to apply and what dimension comes out (`ReadsDims`).  Two do not: a choice takes the
dimension of one of its branches, and a power multiplies by a number that is an operand. -/

namespace Rule

def SameDims {n : Nat} (xs ys : Fin n → Quantity) : Prop := ∀ i, (xs i).dims = (ys i).dims

def SameDim (x y : Quantity) : Prop := x.dims = y.dims

/-- The rule fails, and finds the dimension of its result, by the dimensions of its operands
alone. -/
def ReadsDims (rule : Rule) : Prop :=
  ∀ xs ys : Fin rule.arity → Quantity, SameDims xs ys →
    Related SameDim (rule.on xs) (rule.on ys)

/-- Truth values are pure numbers. -/
theorem sameDim_ofBool (b c : Bool) : SameDim (ofBool b) (ofBool c) := rfl

variable (tolerance : Float)

theorem requireSame_congr {a a' b b' : Quantity} (ha : a.dims = a'.dims) (hb : b.dims = b'.dims)
    (operation what : String) :
    requireSame tolerance operation what a b = requireSame tolerance operation what a' b' := by
  unfold requireSame
  rw [ha, hb]

theorem requireOne_congr {a a' : Quantity} (ha : a.dims = a'.dims) (operation : String) :
    requireOne tolerance operation a = requireOne tolerance operation a' := by
  unfold requireOne
  rw [ha]

/-- What is done after a condition on dimensions that holds of both operands or of neither. -/
theorem related_require {x y : Except Error PUnit} {f g : Except Error Quantity} (h : x = y)
    (hfg : Related SameDim f g) : Related SameDim (x >>= fun _ => f) (y >>= fun _ => g) :=
  Related.bind (related_of_eq h fun _ _ => trivial) fun _ _ (_ : True) => hfg

theorem readsDims_sameDimension (operation : String) (f : Float → Float → Float) :
    ReadsDims (sameDimension tolerance operation f) := by
  intro xs ys h
  have h0 := h (0 : Fin 2)
  exact related_require (requireSame_congr tolerance h0 (h (1 : Fin 2)) _ _) (.ok h0)

theorem readsDims_comparison (operation : String) (f : Float → Float → Bool) :
    ReadsDims (comparison tolerance operation f) := by
  intro xs ys h
  exact related_require
    (requireSame_congr tolerance (h (0 : Fin 2)) (h (1 : Fin 2)) _ _) (.ok (sameDim_ofBool _ _))

theorem readsDims_connective (operation : String) (f : Bool → Bool → Bool) :
    ReadsDims (connective tolerance operation f) := by
  intro xs ys h
  exact related_require (requireOne_congr tolerance (h (0 : Fin 2)) _)
    (related_require (requireOne_congr tolerance (h (1 : Fin 2)) _) (.ok (sameDim_ofBool _ _)))

theorem readsDims_numeric (name : String) (f : Float → Float) :
    ReadsDims (numeric tolerance name f) := by
  intro xs ys h
  exact related_require (requireOne_congr tolerance (h (0 : Fin 1)) _) (.ok rfl)

/-- A power also reads the number that is its exponent, so that has to be the same on both
sides.  Of the base it is the dimension alone. -/
theorem related_powers {xs ys : Fin (powers tolerance).arity → Quantity} (h : SameDims xs ys)
    (hexponent : xs (1 : Fin 2) = ys (1 : Fin 2)) :
    Related SameDim ((powers tolerance).on xs) ((powers tolerance).on ys) := by
  refine related_require (requireOne_congr tolerance (h (1 : Fin 2)) _) ?_
  show Related SameDim (ite _ _ _) (ite _ _ _)
  rw [hexponent]
  split
  · exact .ok (congrArg (Dimension.pow · _) (h (0 : Fin 2)))
  · exact .error

theorem readsDims_unary (op : UnaryOp) : ReadsDims (op.rule tolerance) := by
  intro xs ys h
  cases op with
  -- The negative has the dimension of its operand; a negation asks for a pure number.
  | minus => exact .ok (h (0 : Fin 1))
  | not =>
    exact related_require (requireOne_congr tolerance (h (0 : Fin 1)) _) (.ok (sameDim_ofBool _ _))

theorem readsDims_binary {op : BinaryOp} (hop : op ≠ .pow) : ReadsDims (op.rule tolerance) := by
  cases op with
  -- Products and quotients ask for nothing; all others check their operands first.
  | add | sub => exact readsDims_sameDimension tolerance _ _
  | mul =>
    intro xs ys h
    refine .ok ?_
    show (xs (0 : Fin 2)).dims * (xs (1 : Fin 2)).dims = _
    rw [h (0 : Fin 2), h (1 : Fin 2)]
  | div =>
    intro xs ys h
    refine .ok ?_
    show (xs (0 : Fin 2)).dims / (xs (1 : Fin 2)).dims = _
    rw [h (0 : Fin 2), h (1 : Fin 2)]
  | pow => exact absurd rfl hop
  | lt | le | gt | ge | eq | ne =>
    unfold BinaryOp.rule
    exact readsDims_comparison tolerance _ _
  | and | or => exact readsDims_connective tolerance _ _

theorem readsDims_builtin {f : Builtin} (hf : f ≠ .cond) : ReadsDims (f.rule tolerance) := by
  cases f with
  | cond => exact absurd rfl hf
  | min | max => exact readsDims_sameDimension tolerance _ _
  | abs => exact fun _ _ h => .ok (h (0 : Fin 1))
  -- A root halves the exponents, whatever the value is.
  | sqrt => exact fun _ _ h => .ok (congrArg (Dimension.pow · 0.5) (h (0 : Fin 1)))
  | log | log10 | exp => exact readsDims_numeric tolerance _ _

end Rule

def Bindings.SameDims (b c : Bindings) : Prop :=
  ∀ name, (b.find? name).map Quantity.dims = (c.find? name).map Quantity.dims

namespace Formula

namespace Tree

/-! ### Steady trees -/

/-- The tree names nothing. -/
def IsClosed : Tree → Prop
  | .number _ _ => True
  | .name _ _ => False
  | .unary _ a => a.IsClosed
  | .binary _ a b => a.IsClosed ∧ b.IsClosed
  | .call _ args => ∀ i, (args i).IsClosed

/-- The tree makes no choice, and the exponents in it name nothing. -/
def Steady : Tree → Prop
  | .number _ _ => True
  | .name _ _ => True
  | .unary _ a => a.Steady
  | .binary op a b => a.Steady ∧ b.Steady ∧ (op = .pow → b.IsClosed)
  | .call f args => f ≠ .cond ∧ ∀ i, (args i).Steady

/-- What holds of all arguments of a call holds of the top of the stack that they come from. -/
theorem forall_mem_take {P : Tree → Prop} {n : Nat} {args : Fin n → Tree} {stack : List Tree}
    (hargs : List.ofFn args = (stack.take n).reverse) (h : ∀ i, P (args i)) :
    ∀ t ∈ stack.take n, P t := by
  intro t ht
  rw [← List.mem_reverse, ← hargs, List.mem_ofFn] at ht
  obtain ⟨i, rfl⟩ := ht
  exact h i

/-- What is put together to steady trees is steady. -/
theorem steady_of_push {stack stack' : List Tree} {token : Token}
    (h : push stack token = some stack') (hsteady : ∀ t ∈ stack', t.Steady) :
    ∀ t ∈ stack, t.Steady := by
  unfold push at h
  split at h
  · cases h
    exact fun t ht => hsteady t (List.mem_cons_of_mem _ ht)
  · cases h
    exact fun t ht => hsteady t (List.mem_cons_of_mem _ ht)
  · split at h
    · cases h
      rw [List.forall_mem_cons] at hsteady ⊢
      exact hsteady
    · cases h
  · split at h
    · cases h
      rw [List.forall_mem_cons] at hsteady
      rw [List.forall_mem_cons, List.forall_mem_cons]
      exact ⟨hsteady.1.2.1, hsteady.1.1, hsteady.2⟩
    · cases h
  -- A call takes its arguments from the top of the stack and leaves what is below.
  · next f arity =>
    split at h
    · next hlen =>
      split at h
      · cases h
        rw [List.forall_mem_cons] at hsteady
        intro t ht
        rw [← List.take_append_drop f.arity stack, List.mem_append] at ht
        exact ht.elim (forall_mem_take (ofFn_getElem_top hlen) hsteady.1.2 t) (hsteady.2 t)
      · cases h
    · cases h
  · cases h

/-- What is put together to steady trees is steady, token by token from the end. -/
theorem steady_of_assemble {stack stack' : List Tree} {program : List Token}
    (h : assemble stack program = some stack') (hsteady : ∀ t ∈ stack', t.Steady) :
    ∀ t ∈ stack, t.Steady := by
  induction program generalizing stack with
  | nil =>
    cases h
    exact hsteady
  | cons token rest ih =>
    obtain ⟨next, hpush, hrest⟩ := Option.bind_eq_some_iff.1 h
    exact steady_of_push hpush (ih hrest)

end Tree

/-! ### Two runs of a steady tree

Next to the two stacks of quantities stands a third one with the trees that the quantities come
from.  It tells which of them name nothing: those are equal in both runs, and exponents are among
them. -/

open Rule (SameDim SameDims)

/-- What two runs make of one tree: the same dimension, and the same number if the tree names
nothing. -/
def Tree.Matches (t : Tree) (x y : Quantity) : Prop := SameDim x y ∧ (t.IsClosed → x = y)

/-- The stacks of two runs that have put the same trees together.  Beside each tree stand the two
quantities that the runs have made of it. -/
inductive Alike : List Tree → List Quantity → List Quantity → Prop where
  | nil : Alike [] [] []
  | cons {t : Tree} {ts : List Tree} {x y : Quantity} {xs ys : List Quantity} :
      t.Matches x y → Alike ts xs ys → Alike (t :: ts) (x :: xs) (y :: ys)

namespace Alike

variable {ts : List Tree} {xs ys : List Quantity}

theorem length_left (h : Alike ts xs ys) : xs.length = ts.length := by
  induction h with
  | nil => rfl
  | cons _ _ ih => simp [ih]

theorem length_right (h : Alike ts xs ys) : ys.length = ts.length := by
  induction h with
  | nil => rfl
  | cons _ _ ih => simp [ih]

theorem getElem (h : Alike ts xs ys) (i : Nat) (hts : i < ts.length) (hxs : i < xs.length)
    (hys : i < ys.length) : ts[i].Matches xs[i] ys[i] := by
  induction h generalizing i with
  | nil => cases hts
  | cons hmatch _ ih =>
    cases i with
    | zero => exact hmatch
    | succ i => exact ih i _ _ _

theorem drop (h : Alike ts xs ys) (n : Nat) : Alike (ts.drop n) (xs.drop n) (ys.drop n) := by
  induction h generalizing n with
  | nil => simpa using .nil
  | cons hmatch h ih =>
    cases n with
    | zero => exact .cons hmatch h
    | succ n => exact ih n

end Alike

theorem related_matches {t : Tree} {x y : Except Error Quantity} (h : Related SameDim x y)
    (hclosed : t.IsClosed → x = y) : Related t.Matches x y := by
  cases h with
  | ok hdim => exact .ok ⟨hdim, fun ht => Except.ok.inj (hclosed ht)⟩
  | error => exact .error

/-- A rule takes two stacks alike to stacks alike, if on such operands it has results of the
same dimension.  The tree that comes out may name nothing only if none of the operands does. -/
theorem related_applyTop {rule : Rule} {t : Tree} {ts : List Tree} {xs ys : List Quantity}
    (h : Alike ts xs ys) (hlen : rule.arity ≤ ts.length) (name : String)
    (hrule : ∀ operands operands' : Fin rule.arity → Quantity,
      (∀ i : Fin rule.arity, ts[rule.arity - 1 - i].Matches (operands i) (operands' i)) →
        Related SameDim (rule.on operands) (rule.on operands'))
    (hclosed : t.IsClosed → ∀ u ∈ ts.take rule.arity, u.IsClosed) :
    Related (Alike (t :: ts.drop rule.arity)) (rule.applyTop name xs) (rule.applyTop name ys) := by
  have hxs : rule.arity ≤ xs.length := h.length_left ▸ hlen
  have hys : rule.arity ≤ ys.length := h.length_right ▸ hlen
  have hoperands : ∀ i : Fin rule.arity,
      ts[rule.arity - 1 - i].Matches xs[rule.arity - 1 - i] ys[rule.arity - 1 - i] :=
    fun i => h.getElem _ _ _ _
  rw [Rule.applyTop_getElem hxs, Rule.applyTop_getElem hys]
  refine Related.map (related_matches (hrule _ _ hoperands) ?_) fun _ _ hq => .cons hq (h.drop _)
  -- Operands that name nothing are the same in both runs.
  intro ht
  congr 1
  funext i
  refine (hoperands i).2 (hclosed ht _ ?_)
  exact List.mem_take_iff_getElem.2 ⟨rule.arity - 1 - i, by omega, rfl⟩

section

variable (tolerance : Float) {ts ts' : List Tree} {xs ys : List Quantity}

theorem related_unary (op : UnaryOp) (t : Tree) (h : Alike (t :: ts) xs ys) (name : String) :
    Related (Alike (.unary op t :: ts)) ((op.rule tolerance).applyTop name xs)
      ((op.rule tolerance).applyTop name ys) := by
  have harity := UnaryOp.arity_rule tolerance op
  have happly := related_applyTop (t := .unary op t) h (by simp) name
    (fun _ _ hmatch => Rule.readsDims_unary tolerance op _ _ fun i => (hmatch i).1)
    (by simp [harity, Tree.IsClosed])
  rwa [harity] at happly

theorem related_binary (op : BinaryOp) (t u : Tree) (hop : op = .pow → u.IsClosed)
    (h : Alike (u :: t :: ts) xs ys) (name : String) :
    Related (Alike (.binary op t u :: ts)) ((op.rule tolerance).applyTop name xs)
      ((op.rule tolerance).applyTop name ys) := by
  have harity := BinaryOp.arity_rule tolerance op
  have happly := @related_applyTop (op.rule tolerance) (.binary op t u) _ _ _ h (by simp) name ?_
    (by simp +contextual [harity, Tree.IsClosed])
  · rwa [harity] at happly
  · intro operands operands' hmatch
    by_cases hpow : op = .pow
    · -- The exponent names nothing, so it is the same number in both runs.
      subst hpow
      exact Rule.related_powers tolerance (fun i => (hmatch i).1)
        ((hmatch (1 : Fin 2)).2 (hop rfl))
    · exact Rule.readsDims_binary tolerance hpow _ _ fun i => (hmatch i).1

theorem related_builtin {f : Builtin} (hf : f ≠ .cond) (hlen : f.arity ≤ ts.length)
    (h : Alike ts xs ys) (name : String) :
    Related (Alike (Tree.callTop f ts hlen :: ts.drop f.arity))
      ((f.rule tolerance).applyTop name xs) ((f.rule tolerance).applyTop name ys) := by
  have harity := Builtin.arity_rule tolerance f
  have happly := related_applyTop (t := Tree.callTop f ts hlen) h (harity ▸ hlen) name
    (fun _ _ hmatch => Rule.readsDims_builtin tolerance hf _ _ fun i => (hmatch i).1)
    (fun hclosed => harity.symm ▸ Tree.forall_mem_take (Tree.ofFn_getElem_top hlen) hclosed)
  rwa [harity] at happly

/-- The two runs find quantities of the same dimension under a name, or fail alike.  The declared
unit is compared with the dimension alone, so both pass the check or neither does. -/
theorem related_reference {b c : Bindings} (hdims : b.SameDims c) (path unitText : String) :
    Related SameDim (reference tolerance (tableLookup b) path unitText)
      (reference tolerance (tableLookup c) path unitText) := by
  have h := hdims path
  unfold reference tableLookup Bindings.lookup
  -- Both tables have the name, or neither has.
  cases hb : b.find? path with
  | none =>
    have hc : c.find? path = none := by simpa [hb] using h.symm
    rw [hc]
    exact .error
  | some x =>
    obtain ⟨y, hc, hxy⟩ : ∃ y, c.find? path = some y ∧ y.dims = x.dims := by
      simpa [hb] using h.symm
    rw [hc]
    -- The declared unit is checked against the dimension only.
    have hcheck : checkDeclared tolerance path unitText x =
        checkDeclared tolerance path unitText y := by
      unfold checkDeclared
      rw [hxy]
    show Related SameDim (checkDeclared tolerance path unitText x >>= fun _ => .ok x)
      (checkDeclared tolerance path unitText y >>= fun _ => .ok y)
    exact Rule.related_require hcheck (.ok hxy.symm)

/-- **One token of a steady tree**: two runs that are alike before it are alike after it, or fail at
it alike. -/
theorem related_step {b c : Bindings} (hdims : b.SameDims c) {token : Token}
    (hpush : Tree.push ts token = some ts') (hsteady : ∀ t ∈ ts', t.Steady) (h : Alike ts xs ys) :
    Related (Alike ts') (step tolerance (tableLookup b) xs token)
      (step tolerance (tableLookup c) ys token) := by
  unfold Tree.push at hpush
  split at hpush
  · next value unitText =>
    cases hpush
    exact Related.map (related_of_eq rfl fun q _ => ⟨rfl, fun _ => rfl⟩) fun _ _ hq => .cons hq h
  · next path unitText =>
    cases hpush
    exact Related.map (related_matches (related_reference tolerance hdims path unitText) False.elim)
      fun _ _ hq => .cons hq h
  · next op =>
    split at hpush
    · cases hpush
      exact related_unary tolerance op _ h _
    · cases hpush
  · next op =>
    split at hpush
    · cases hpush
      exact related_binary tolerance op _ _ (hsteady _ List.mem_cons_self).2.2 h _
    · cases hpush
  · next f arity =>
    split at hpush
    · next hlen =>
      split at hpush
      · next harity =>
        cases hpush
        rw [step, step, if_pos harity, if_pos harity]
        exact related_builtin tolerance (hsteady _ List.mem_cons_self).1 hlen h _
      · cases hpush
    · cases hpush
  · cases hpush

/-- Two runs of a steady tree end with quantities of the same dimension, or fail at the same token
with the same error. -/
theorem related_run_of_steady {t : Tree} (ht : t.Steady) {b c : Bindings} (hdims : b.SameDims c) :
    Related (Alike [t]) (runPlaced tolerance (tableLookup b) 0 [] t.postorder)
      (runPlaced tolerance (tableLookup c) 0 [] t.postorder) := by
  -- Both runs put together the same trees, all of which end up inside the steady one.
  refine Related.mono (R := fun xs ys => ∃ ts, Alike ts xs ys ∧ Tree.assemble ts [] = some [t])
    (runPlaced_related (R := fun rest xs ys =>
      ∃ ts, Alike ts xs ys ∧ Tree.assemble ts rest = some [t]) ?_ ?_ 0) ?_
  · rintro token rest xs ys ⟨ts, hts, hassemble⟩
    obtain ⟨next, hpush, hrest⟩ := Option.bind_eq_some_iff.1 hassemble
    have hsteady : ∀ u ∈ next, u.Steady :=
      Tree.steady_of_assemble hrest (List.forall_mem_singleton.2 ht)
    exact (related_step tolerance hdims hpush hsteady hts).mono
      fun _ _ hnext => ⟨next, hnext, hrest⟩
  · have hassemble := Tree.assemble_postorder t [] []
    rw [List.append_nil] at hassemble
    exact ⟨[], .nil, hassemble⟩
  · rintro xs ys ⟨ts, hts, hassemble⟩
    cases hassemble
    exact hts

end

/-- Two evaluations of a steady tree give quantities of the same dimension, or fail at the same
token with the same error. -/
theorem related_evaluate_of_steady {t : Tree} (ht : t.Steady) {b c : Bindings}
    (hdims : b.SameDims c) (settings : Except Error Settings) (source : String)
    (names : List String) :
    Related SameDim (evaluatePlaced settings ⟨source, t.postorder, names⟩ (.table b))
      (evaluatePlaced settings ⟨source, t.postorder, names⟩ (.table c)) := by
  cases settings with
  | error e => exact .error
  | ok settings =>
    refine ((related_run_of_steady settings.tolerance ht hdims).mapError _).bind fun xs ys h => ?_
    obtain ⟨⟩ | ⟨hmatch, ⟨⟩⟩ := h
    exact .ok hmatch.1

/-- **Dimensions do not hang on values**: where two tables bind the same names to quantities of the
same dimensions, a steady tree evaluates to the same dimension in both, or fails in both at the same
token with the same error. -/
theorem evaluate_dims_of_steady {t : Tree} (ht : t.Steady) {b c : Bindings} (hdims : b.SameDims c)
    (settings : Except Error Settings) (source : String) (names : List String) :
    (evaluate settings ⟨source, t.postorder, names⟩ (.table b)).result.map Quantity.dims =
        (evaluate settings ⟨source, t.postorder, names⟩ (.table c)).result.map Quantity.dims ∧
      (evaluatePlaced settings ⟨source, t.postorder, names⟩ (.table b)).map Quantity.dims =
        (evaluatePlaced settings ⟨source, t.postorder, names⟩ (.table c)).map Quantity.dims := by
  have h := related_evaluate_of_steady ht hdims settings source names
  rw [result_evaluate, result_evaluate]
  exact ⟨(h.mapError Prod.snd).map_eq fun _ _ hq => hq, h.map_eq fun _ _ hq => hq⟩

/-- `x^2 * y` for lengths `x` and `y`, one of which is no number at all in one of the tables: in
both it is a volume. -/
theorem evaluate_dims_of_cuboid :
    let t : Tree := .binary .mul (.binary .pow (.name "x" "") (.number 2 "")) (.name "y" "")
    let b : Bindings := ⟨[("x", ⟨3, .length⟩), ("y", ⟨9, .length⟩)]⟩
    let c : Bindings := ⟨[("x", ⟨0.0 / 0.0, .length⟩), ("y", ⟨-1, .length⟩)]⟩
    let f : Formula := ⟨"x^2 * y", t.postorder, ["x", "y"]⟩
    t.Steady ∧ b.SameDims c ∧
      (evaluate (.ok {}) f (.table b)).result.map Quantity.dims =
        (evaluate (.ok {}) f (.table c)).result.map Quantity.dims ∧
      (evaluatePlaced (.ok {}) f (.table b)).map Quantity.dims =
        (evaluatePlaced (.ok {}) f (.table c)).map Quantity.dims ∧
      (evaluate (.ok {}) f (.table c)).result.map Quantity.dims =
        .ok (Dimension.area * Dimension.length) := by
  intro t b c f
  have ht : t.Steady := ⟨⟨trivial, trivial, fun _ => trivial⟩, trivial, nofun⟩
  -- One name after another: `x`, `y`, and any that is bound in neither table.
  have hdims : b.SameDims c := by
    intro name
    simp only [Table.find?, b, c, Table.lookup_cons_eq_ite, List.lookup_nil]
    split
    · rfl
    · split <;> rfl
  obtain ⟨hresult, hplaced⟩ := evaluate_dims_of_steady ht hdims (.ok {}) "x^2 * y" ["x", "y"]
  exact ⟨ht, hdims, hresult, hplaced, rfl⟩

end Formula

end Dimensional
