import Dimensional.Proofs.MeasureUnit.Composed
import Dimensional.Proofs.MeasureUnit.Multiple

/-!
# Units with exponents that are not finite

A text is parsed into a unit only if the scale is finite, but nobody looks at the exponents.  The
exponents of the known units are finite (`isFinite_dims_of_ofName`); sums, differences and multiples
of finite exponents may be beyond the range of the floats, or the factor of a multiple may not be
finite itself (`Operation.Overflows`).  What is not finite never becomes finite again
(`isFinite_of_dims`).

Main statement: `exponents_of_parse` — the unit of a text has a finite scale above zero and eight
exponents, and these are finite if and only if no operation of the text overflows.
-/

namespace Dimensional

open Fallible

/-! ### Finite exponents -/

def Dimension.IsFinite (d : Dimension) : Prop := ∀ e ∈ d.exponents, e.isFinite = true

instance (d : Dimension) : Decidable d.IsFinite :=
  inferInstanceAs (Decidable (∀ e ∈ d.exponents, e.isFinite = true))

theorem forall_isFinite_of_zipWith {f : Float → Float → Float}
    (hf : ∀ x y, (f x y).isFinite = true → x.isFinite = true ∧ y.isFinite = true)
    {xs ys : List Float} (hlen : xs.length = ys.length)
    (h : ∀ e ∈ xs.zipWith f ys, e.isFinite = true) :
    (∀ e ∈ xs, e.isFinite = true) ∧ ∀ e ∈ ys, e.isFinite = true := by
  induction xs generalizing ys with
  | nil =>
    cases ys with
    | nil => exact ⟨nofun, nofun⟩
    | cons => cases hlen
  | cons x xs ih =>
    cases ys with
    | nil => cases hlen
    | cons y ys =>
      rw [List.zipWith_cons_cons, List.forall_mem_cons] at h
      obtain ⟨hx, hy⟩ := hf x y h.1
      obtain ⟨hxs, hys⟩ := ih (Nat.succ.inj hlen) h.2
      exact ⟨List.forall_mem_cons.2 ⟨hx, hxs⟩, List.forall_mem_cons.2 ⟨hy, hys⟩⟩

namespace Dimension

variable {a b : Dimension}

theorem IsFinite.of_mul (h : (a * b).IsFinite) : a.IsFinite ∧ b.IsFinite :=
  forall_isFinite_of_zipWith (fun _ _ => Decimal.isFinite_of_add)
    (a.length_eq.trans b.length_eq.symm) h

theorem IsFinite.of_div (h : (a / b).IsFinite) : a.IsFinite ∧ b.IsFinite :=
  forall_isFinite_of_zipWith (fun _ _ => Decimal.isFinite_of_sub)
    (a.length_eq.trans b.length_eq.symm) h

theorem IsFinite.of_pow {y : Float} (h : (a.pow y).IsFinite) : a.IsFinite :=
  fun _ he => (Decimal.isFinite_of_mul (h _ (List.mem_map_of_mem he))).1

theorem isFinite_one : one.IsFinite := by decide +kernel

end Dimension

namespace MeasureUnit

/-! ### Exponents of names -/

section

variable {P : Dimension → Prop}

theorem dims_of_listed (h : ∀ entry ∈ catalogue, P entry.2.dims) {name : String}
    {u : MeasureUnit} (hu : listed? name = some u) : P u.dims := by
  obtain ⟨entry, hentry, _, rfl⟩ := exists_of_listed? hu
  exact h entry hentry

/-- What holds of the dimensions of all known units holds of those that names stand for. -/
theorem dims_of_ofName (h : ∀ entry ∈ catalogue, P entry.2.dims) {name : String}
    {u : MeasureUnit} (hu : ofName name = .ok u) : P u.dims := by
  unfold ofName at hu
  split at hu
  · next hfound =>
    cases hu
    obtain hlisted | ⟨_, hmultiple⟩ := Option.or_eq_some_iff.1 hfound
    · exact dims_of_listed h hlisted
    · obtain ⟨⟨pre, factor⟩, _, hprefixed⟩ := List.exists_of_findSome?_eq_some hmultiple
      obtain ⟨v, hv, rfl⟩ := Option.map_eq_some_iff.1 hprefixed
      obtain ⟨_, _, _, hv⟩ := base?_eq_some_iff.1 hv
      show P v.dims
      exact dims_of_listed h hv
  · cases hu

end

theorem isFinite_dims_of_ofName {name : String} {u : MeasureUnit} (h : ofName name = .ok u) :
    u.dims.IsFinite :=
  dims_of_ofName (by decide +kernel) h

/-! ### Operations -/

/-- The dimension of an operand; plain numbers have none. -/
def Operand.dims : Operand → Dimension
  | .scalar _ => .one
  | .unit u => u.dims

theorem Operand.dims_of_toUnit {a : Operand} {u : MeasureUnit} (h : a.toUnit = .ok u) :
    u.dims = a.dims := by
  obtain (x | z) | v := a
  · cases h
    rfl
  · cases h
  · cases h
    rfl

namespace Operation

/-- The dimension of the result of an operation.  The powers of numbers are numbers. -/
def dims : Operation → Operand → Operand → Dimension
  | .product, a, b => a.dims * b.dims
  | .quotient, a, b => a.dims / b.dims
  | .power, .unit u, .scalar (.real y) => u.dims.pow y
  | .power, _, _ => .one

/-- Out of finite exponents the operation makes one that is not finite. -/
def Overflows (op : Operation) (a b : Operand) : Prop :=
  a.dims.IsFinite ∧ b.dims.IsFinite ∧ ¬(op.dims a b).IsFinite

variable {text : String} {position : Nat} {a b c : Operand}

theorem dims_of_mul (h : a.mul b = .ok c) : c.dims = a.dims * b.dims := by
  unfold Operand.mul at h
  split at h
  · cases h
    rfl
  · obtain ⟨u, hu, h⟩ := bind_eq_ok_iff.1 h
    obtain ⟨v, hv, h⟩ := bind_eq_ok_iff.1 h
    cases h
    rw [← Operand.dims_of_toUnit hu, ← Operand.dims_of_toUnit hv]
    rfl

theorem dims_of_div (h : a.div b = .ok c) : c.dims = a.dims / b.dims := by
  unfold Operand.div at h
  split at h
  · obtain ⟨x, _, h⟩ := bind_eq_ok_iff.1 h
    cases h
    rfl
  · obtain ⟨u, hu, h⟩ := bind_eq_ok_iff.1 h
    obtain ⟨v, hv, h⟩ := bind_eq_ok_iff.1 h
    obtain ⟨w, hw, h⟩ := bind_eq_ok_iff.1 h
    obtain ⟨scale, _, hw⟩ := bind_eq_ok_iff.1 hw
    cases hw
    cases h
    rw [← Operand.dims_of_toUnit hu, ← Operand.dims_of_toUnit hv]
    rfl

/-- An operation that has a result has the dimension that is computed from its operands. -/
theorem dims_of_apply (op : Operation) (h : op.apply text position a b = .ok c) :
    c.dims = op.dims a b := by
  cases op with
  | product => exact dims_of_mul (Operand.locate_eq_ok_iff.1 h)
  | quotient => exact dims_of_div (Operand.locate_eq_ok_iff.1 h)
  | power =>
    obtain (y | z) | v := b
    -- The exponent is a number: a base that is one as well has a power without a dimension.
    · have hpow := Operand.locate_eq_ok_iff.1 h
      obtain s | u := a
      · obtain ⟨s', _, hpow⟩ := bind_eq_ok_iff.1 hpow
        cases hpow
        rfl
      · obtain ⟨w, hw, hpow⟩ := bind_eq_ok_iff.1 hpow
        obtain ⟨s, _, hw⟩ := bind_eq_ok_iff.1 hw
        obtain ⟨scale, _, hw⟩ := bind_eq_ok_iff.1 hw
        cases hw
        cases hpow
        rfl
    · cases h
    · cases h

/-- Only operands with finite exponents have a result with finite exponents. -/
theorem isFinite_of_dims (op : Operation) (h : op.apply text position a b = .ok c)
    (hc : c.dims.IsFinite) : a.dims.IsFinite ∧ b.dims.IsFinite := by
  rw [dims_of_apply op h] at hc
  cases op with
  | product => exact hc.of_mul
  | quotient => exact hc.of_div
  | power =>
    obtain (y | z) | v := b
    · obtain s | u := a
      · exact ⟨Dimension.isFinite_one, Dimension.isFinite_one⟩
      · exact ⟨Dimension.IsFinite.of_pow hc, Dimension.isFinite_one⟩
    · cases h
    · cases h

end Operation

/-! ### Trees and texts

Where a result is not finite there is a first operation that made it so: its operands were
finite still.  That is what overflows, and it is found by going down the tree. -/

namespace Tree

def Overflows : Tree → Prop
  | .name _ | .number _ => False
  | .apply op a b =>
    a.Overflows ∨ b.Overflows ∨
      ∃ x y, a.eval = .ok x ∧ b.eval = .ok y ∧ op.Overflows x y

/-- What a tree comes to has finite exponents if and only if no operation overflows. -/
theorem isFinite_dims_iff {t : Tree} {z : Operand} (h : t.eval = .ok z) :
    z.dims.IsFinite ↔ ¬t.Overflows := by
  induction t generalizing z with
  | name s =>
    obtain ⟨u, hu, h⟩ := bind_eq_ok_iff.1 h
    cases h
    exact iff_of_true (isFinite_dims_of_ofName hu) id
  | number x =>
    cases h
    exact iff_of_true Dimension.isFinite_one id
  | apply op a b iha ihb =>
    obtain ⟨x, hx, h⟩ := bind_eq_ok_iff.1 h
    obtain ⟨y, hy, h⟩ := bind_eq_ok_iff.1 h
    constructor
    · intro hz
      obtain ⟨hxfin, hyfin⟩ := op.isFinite_of_dims h hz
      rintro (ha | hb | ⟨x', y', hx', hy', _, _, hover⟩)
      · exact (iha hx).1 hxfin ha
      · exact (ihb hy).1 hyfin hb
      · rw [hx] at hx'
        rw [hy] at hy'
        cases hx'
        cases hy'
        rw [op.dims_of_apply h] at hz
        exact hover hz
    -- Both operands are finite by induction, so the result is, or else this operation overflows.
    · intro hnot
      rw [Overflows, not_or, not_or] at hnot
      obtain ⟨ha, hb, hhere⟩ := hnot
      rw [op.dims_of_apply h]
      exact Classical.byContradiction fun hover =>
        hhere ⟨x, y, hx, hy, (iha hx).2 ha, (ihb hy).2 hb, hover⟩

end Tree

/-- Somewhere in the tree of the text an operation overflows. -/
def TextOverflows (given : String) : Prop := ∃ t : Tree, HasTree given t ∧ t.Overflows

/-- **What is checked of a unit, and what is not**: a text that is parsed into a unit has a finite
scale above zero and eight exponents.  The exponents are finite if and only if no operation of the
text overflows: no sum, difference or multiple of finite exponents comes out infinite or as no
number. -/
theorem exponents_of_parse {given : String} {unit : MeasureUnit} (h : parse given = .ok unit) :
    unit.scale.isFinite = true ∧ 0 < unit.scale ∧ unit.dims.exponents.length = 8 ∧
      ((∀ e ∈ unit.dims.exponents, e.isFinite = true) ↔ ¬TextOverflows given) := by
  by_cases hblank : Spelling.IsBlankText given.toList
  · have hnormal := Spelling.normalize_eq_nil_iff.2 hblank
    have hone : parse given = .ok .one := by
      unfold parse
      rw [hnormal]
      rfl
    rw [hone] at h
    cases h
    refine ⟨rfl, by decide, rfl, iff_of_true Dimension.isFinite_one ?_⟩
    rintro ⟨t, ht, _⟩
    exact ht.normalize_ne_nil hnormal
  · obtain ⟨operand, u, ⟨t, ht, heval⟩, hu, husable, rfl⟩ := comesTo_of_parse hblank h
    obtain ⟨hfinite, hpos⟩ := isUsableScale_iff.1 husable
    -- The tree of a text is unique, so it is this one that overflows or not.
    have hoverflows : TextOverflows given ↔ t.Overflows := by
      constructor
      · rintro ⟨t', ht', hover⟩
        rwa [ht.unique ht']
      · exact fun hover => ⟨t, ht, hover⟩
    refine ⟨hfinite, hpos, u.dims.length_eq, ?_⟩
    rw [hoverflows, ← Tree.isFinite_dims_iff heval, ← Operand.dims_of_toUnit hu]
    rfl

/-- `m/s` has finite exponents, and its quotient does not overflow. -/
theorem exponents_of_m_per_s :
    ∃ unit, parse "m/s" = .ok unit ∧ (∀ e ∈ unit.dims.exponents, e.isFinite = true) ∧
      ¬TextOverflows "m/s" := by
  have hnormal : Spelling.normalize "m/s".toList = ['m', '/', 's'] := by cbv
  obtain ⟨unit, hunit, hfinite⟩ : ∃ unit, parse "m/s" = .ok unit ∧ unit.dims.IsFinite := by
    open Token in
    rw [parse_of_toPostfix hnormal (List.cons_ne_nil _ _)
      (scanFrom_cons rfl (scanFrom_cons rfl (scanFrom_cons rfl (scanFrom_nil _ _ _)))) rfl]
    exact ⟨_, rfl, by decide +kernel⟩
  exact ⟨unit, hunit, hfinite, (exponents_of_parse hunit).2.2.2.1 hfinite⟩

/-- A metre with an exponent of four hundred digits is a unit all the same: its scale is one, as any
power of one, but its exponents are infinite or no numbers. -/
theorem parse_exponent_beyond_range :
    ∃ unit, parse (String.ofList ('m' :: List.replicate 400 '9')) = .ok unit ∧
      unit.scale = 1.0 ∧ ¬∀ e ∈ unit.dims.exponents, e.isFinite = true := by
  have hnormal : Spelling.normalize (String.ofList ('m' :: List.replicate 400 '9')).toList =
      'm' :: List.replicate 400 '9' := by
    rw [String.toList_ofList]
    decide +kernel
  -- Four hundred nines are beyond the range of the floats.
  have hinfinite : (Token.numeral false (List.replicate 400 '9') []).toFloat = 1.0 / 0.0 := by
    decide +kernel
  have htake : Token.take .elsewhere 'm' (List.replicate 400 '9') =
      .ok ([(.name "m", 1), (.power, 0), (.number (1.0 / 0.0), 400)], []) := by
    have hdigits : ∀ c ∈ List.replicate 400 '9', Character.isDecimalDigit c = true := by
      intro c hc
      rw [List.eq_of_mem_replicate hc]
      decide
    have hm : Token.IsName ['m'] :=
      ⟨List.cons_ne_nil _ _, List.forall_mem_singleton.2 (by decide)⟩
    have hname := @Token.takeName_append ['m'] _ [] hm hdigits nofun
    rw [List.append_nil] at hname
    rw [Token.take_of_isNameChar (by decide)]
    refine (congrArg Except.ok hname).trans ?_
    rw [hinfinite, List.length_replicate]
    rfl
  open Token in
  rw [parse_of_toPostfix hnormal (List.cons_ne_nil _ _)
    (scanFrom_cons htake (scanFrom_nil _ _ _)) rfl]
  exact ⟨_, rfl, by decide +kernel, by decide +kernel⟩

end MeasureUnit

end Dimensional
