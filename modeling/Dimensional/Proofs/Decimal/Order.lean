import Mathlib.Order.Defs.LinearOrder

/-!
# The order of floats

Floats that are numbers are compared by sign and size, then by exponent and mantissa (`rank`).  So
they are ordered, and comparisons can be put together.

Main statement: `lt_of_lt_of_le`.
-/

namespace Dimensional.Decimal

open Float.Model

/-- Where a float that is a number stands among the others.  Negative numbers are ranked by
exponent and mantissa with the signs turned, because the greater of two sizes is the lesser
number; NaN has no place and gets that of zero only to make the function total. -/
def rank : UnpackedFloat → Int × Int × Int
  | .infinity .negative => (-2, 0, 0)
  | .finite .negative m e _ => (-1, -e, -m)
  | .zero _ | .notANumber => (0, 0, 0)
  | .finite .positive m e _ => (1, e, m)
  | .infinity .positive => (2, 0, 0)

def compareRanks : Int × Int × Int → Int × Int × Int → Ordering :=
  compareLex (compareOn (·.1)) (compareLex (compareOn (·.2.1)) (compareOn (·.2.2)))

instance : Std.TransCmp compareRanks := inferInstanceAs (Std.TransCmp (compareLex _ _))

theorem compare_neg (a b : Int) : compare (-a) (-b) = (compare a b).swap := by
  rw [Int.compare_swap, Int.compare_eq_ite_lt, Int.compare_eq_ite_lt]
  simp only [Int.neg_lt_neg_iff]

theorem compare_natCast (m n : Nat) : compare (m : Int) (n : Int) = compare m n := by
  rw [Int.compare_eq_ite_lt, Nat.compare_eq_ite_lt]
  simp only [Int.ofNat_lt]

/-- Comparing floats is comparing their ranks, if neither is NaN. Only two finite numbers of the
same sign are compared by their parts; in all other cases the first entry of the rank decides.
-/
theorem compare_eq_compareRanks {a b : UnpackedFloat} (ha : a ≠ .notANumber)
    (hb : b ≠ .notANumber) : a.compare b = some (compareRanks (rank a) (rank b)) := by
  cases a with
  | notANumber => exact absurd rfl ha
  | zero s =>
    cases b with
    | notANumber => exact absurd rfl hb
    | zero t => rfl
    | infinity t | finite t => cases t <;> rfl
  | infinity s =>
    cases b with
    | notANumber => exact absurd rfl hb
    | zero t => cases s <;> rfl
    | infinity t | finite t => cases s <;> cases t <;> rfl
  | finite s m e =>
    cases b with
    | notANumber => exact absurd rfl hb
    | zero t => cases s <;> rfl
    | infinity t => cases s <;> cases t <;> rfl
    | finite t n f =>
      cases s <;> cases t
      -- Both are negative, so the comparison is turned round twice: by the signs, and by the
      -- swap.
      · show _ = some ((compare (-e) (-f)).then (compare (-m : Int) (-n : Int)))
        rw [compare_neg, compare_neg, ← Ordering.swap_then, compare_natCast]
        rfl
      · rfl
      · rfl
      · show _ = some ((compare e f).then (compare (m : Int) (n : Int)))
        rw [compare_natCast]
        rfl

theorem ne_notANumber_of_compare {a b : UnpackedFloat} {o : Ordering}
    (h : a.compare b = some o) : a ≠ .notANumber ∧ b ≠ .notANumber := by
  constructor
  · rintro rfl
    cases h
  · rintro rfl
    cases a <;> cases h

/-- What is below a float is below every float that is no less. -/
theorem lt_of_lt_of_le {x y z : Float} (hxy : x < y) (hyz : y ≤ z) : x < z := by
  replace hxy : x.toModel.unpack.compare y.toModel.unpack = some .lt :=
    eq_of_beq (of_decide_eq_true hxy)
  replace hyz : y.toModel.unpack.le z.toModel.unpack = true := of_decide_eq_true hyz
  obtain ⟨o, hyz, ho⟩ := (Option.any_eq_true _ _).1 hyz
  obtain ⟨hx, hy⟩ := ne_notANumber_of_compare hxy
  obtain ⟨_, hz⟩ := ne_notANumber_of_compare hyz
  rw [compare_eq_compareRanks hx hy, Option.some.injEq] at hxy
  rw [compare_eq_compareRanks hy hz, Option.some.injEq] at hyz
  have hxz := Std.TransCmp.lt_of_lt_of_isLE hxy (hyz ▸ ho)
  have hlt : x.toModel.unpack.lt z.toModel.unpack = true := by
    rw [UnpackedFloat.lt, compare_eq_compareRanks hx hz, hxz]
    rfl
  exact decide_eq_true hlt

end Dimensional.Decimal
