import Dimensional.Decimal.Magnitude

/-!
# Finite floats

A float is finite if the bits of its exponent are not all set (`isFinite_unpack_iff`).  That is what
`Decimal.magnitude?` asks for (`isSome_magnitude?`), and it does not hang on the sign
(`status_abs`).  A float that is not finite is not below any other without its sign (`not_abs_lt`),
and arithmetic makes nothing finite of it again (`isFinite_of_add`, `isFinite_of_mul`).
-/

namespace Dimensional.Decimal

open Float.Model

abbrev Bits := BitVec Format.binary64.numBits

theorem exponentBias_eq : Format.binary64.exponentBias = 1023 := rfl

theorem mantissaBitsWithoutImplicit_eq : Format.binary64.mantissaBitsWithoutImplicit = 52 := rfl

theorem toNat_exponent_lt {b : Bits} (h : UnpackedFloat.unpackExponent b ≠ -1#11) :
    (UnpackedFloat.unpackExponent b).toNat < 2047 := by
  have hlt : (UnpackedFloat.unpackExponent b).toNat < 2048 := (UnpackedFloat.unpackExponent b).isLt
  have hne : (UnpackedFloat.unpackExponent b).toNat ≠ 2047 := fun heq =>
    h (BitVec.eq_of_toNat_eq heq)
  omega

theorem isFinite_unpack_iff (b : Bits) :
    (UnpackedFloat.unpack .binary64 b).isFinite = true ↔
      UnpackedFloat.unpackExponent b ≠ -1#11 := by
  unfold UnpackedFloat.unpack
  dsimp only
  by_cases hfull : UnpackedFloat.unpackExponent b = -1#11
  · rw [if_pos hfull]
    refine iff_of_false ?_ (not_not_intro hfull)
    split
    · exact Bool.false_ne_true
    · exact Bool.false_ne_true
  · rw [if_neg hfull]
    refine iff_of_true ?_ hfull
    by_cases hzero : UnpackedFloat.unpackExponent b = 0#11
    · rw [if_pos hzero]
      by_cases hmantissa : UnpackedFloat.unpackMantissa b = 0#52
      · rw [dif_pos hmantissa]
        rfl
      · rw [dif_neg hmantissa]
        rfl
    · rw [if_neg hzero]
      rfl

/-- The exponent of a float that was taken apart fits into its bits. -/
theorem exponent_lt_of_unpack {b : Bits} {s : UnpackedFloat.Sign} {m : Nat} {e : Int} {hm : 0 < m}
    (h : UnpackedFloat.unpack .binary64 b = .finite s m e hm) : e + 1075 < 2047 := by
  have hfull := (isFinite_unpack_iff b).1 (by rw [h]; rfl)
  have hlt := toNat_exponent_lt hfull
  have hbias := exponentBias_eq
  have hmantissa := mantissaBitsWithoutImplicit_eq
  revert h
  unfold UnpackedFloat.unpack
  dsimp only
  rw [if_neg hfull]
  by_cases hzero : UnpackedFloat.unpackExponent b = 0#11
  · have hnone : (UnpackedFloat.unpackExponent b).toNat = 0 := congrArg BitVec.toNat hzero
    rw [if_pos hzero]
    by_cases hempty : UnpackedFloat.unpackMantissa b = 0#52
    · rw [dif_pos hempty]
      intro h
      cases h
    · rw [dif_neg hempty]
      intro h
      cases h
      omega
  · rw [if_neg hzero]
    intro h
    cases h
    omega

/-- A float whose exponent fits into its bits stays finite when it is put together. -/
theorem isFinite_unpack_pack {s : UnpackedFloat.Sign} {m : Nat} {e : Int} {hm : 0 < m}
    (h : e + 1075 < 2047) :
    (UnpackedFloat.unpack .binary64
      (UnpackedFloat.pack .binary64 (.finite s m e hm))).isFinite = true := by
  have hbits : 2 ^ Format.binary64.exponentBits = 2048 := rfl
  have hbias := exponentBias_eq
  have hmantissa := mantissaBitsWithoutImplicit_eq
  rw [isFinite_unpack_iff]
  unfold UnpackedFloat.pack
  dsimp only
  -- An exponent that fits never packs to infinity; then the field is that of a normal float, or
  -- zero.
  split
  · omega
  · split
    · rw [UnpackedFloat.unpackExponent_packComponents]
      intro heq
      have hfield : (e + Format.binary64.exponentBias +
          Format.binary64.mantissaBitsWithoutImplicit).toNat % 2048 = 2047 :=
        congrArg BitVec.toNat heq
      omega
    · rw [UnpackedFloat.unpackExponent_packComponents]
      decide

/-! ### Floats without their sign -/

theorem unpack_abs (x : Float) :
    x.abs.toModel.unpack =
      UnpackedFloat.unpack .binary64 (UnpackedFloat.pack .binary64 x.toModel.unpack.abs) := rfl

theorem unpack_abs_of_infinity {x : Float} {s : UnpackedFloat.Sign}
    (h : x.toModel.unpack = .infinity s) : x.abs.toModel.unpack = .infinity .positive := by
  rw [unpack_abs, h]
  show UnpackedFloat.unpack .binary64 (UnpackedFloat.packedInfinity .binary64 .positive) = _
  rfl

theorem unpack_abs_of_notANumber {x : Float} (h : x.toModel.unpack = .notANumber) :
    x.abs.toModel.unpack = .notANumber := by
  rw [unpack_abs, h]
  rfl

theorem isFinite_unpack_abs {x : Float} (h : x.toModel.unpack.isFinite = true) :
    x.abs.toModel.unpack.isFinite = true := by
  rw [unpack_abs]
  cases hx : x.toModel.unpack with
  | zero s =>
    show (UnpackedFloat.unpack .binary64 (UnpackedFloat.packedZero .binary64 .positive)).isFinite =
      true
    rfl
  | finite s m e hm => exact isFinite_unpack_pack (exponent_lt_of_unpack hx)
  | infinity | notANumber =>
    rw [hx] at h
    cases h

theorem isNaN_eq_false_of_isFinite {u : UnpackedFloat} (h : u.isFinite = true) :
    u.isNaN = false := by
  cases u with
  | notANumber => cases h
  | infinity | zero | finite => rfl

/-- The sign has no part in whether a float is finite, or no number. -/
theorem status_abs (x : Float) : x.abs.isFinite = x.isFinite ∧ x.abs.isNaN = x.isNaN := by
  show x.abs.toModel.unpack.isFinite = x.toModel.unpack.isFinite ∧
    x.abs.toModel.unpack.isNaN = x.toModel.unpack.isNaN
  -- A finite float stays finite, and is no NaN either way; the others keep their sort.
  by_cases hfinite : x.toModel.unpack.isFinite = true
  · have habs := isFinite_unpack_abs hfinite
    exact ⟨habs.trans hfinite.symm,
      (isNaN_eq_false_of_isFinite habs).trans (isNaN_eq_false_of_isFinite hfinite).symm⟩
  · cases hx : x.toModel.unpack with
    | infinity s =>
      rw [unpack_abs_of_infinity hx]
      exact ⟨rfl, rfl⟩
    | notANumber =>
      rw [unpack_abs_of_notANumber hx]
      exact ⟨rfl, rfl⟩
    | zero | finite =>
      rw [hx] at hfinite
      exact absurd rfl hfinite

/-- Without its sign, a float that is not finite is not below any other. -/
theorem not_abs_lt {x : Float} (h : x.isFinite = false) (y : Float) : ¬x.abs < y := by
  intro hlt
  replace hlt : x.abs.toModel.unpack.lt y.toModel.unpack = true := of_decide_eq_true hlt
  replace h : x.toModel.unpack.isFinite = false := h
  generalize y.toModel.unpack = other at hlt
  cases hx : x.toModel.unpack with
  | infinity s =>
    rw [unpack_abs_of_infinity hx] at hlt
    cases other with
    | infinity t => cases t <;> cases hlt
    | notANumber | zero | finite => cases hlt
  | notANumber =>
    rw [unpack_abs_of_notANumber hx] at hlt
    cases hlt
  | zero | finite =>
    rw [hx] at h
    cases h

/-- What is above zero is not zero. -/
theorem beq_zero_of_pos {x : Float} (h : x > 0) : (x == 0.0) = false := by
  replace h : (UnpackedFloat.zero .positive).lt x.toModel.unpack = true := of_decide_eq_true h
  show x.toModel.unpack.beq (.zero .positive) = false
  cases hx : x.toModel.unpack with
  | infinity s | finite s _ _ _ => cases s <;> rfl
  | notANumber => rfl
  | zero s =>
    rw [hx] at h
    cases h

/-! ### Arithmetic

The three operations are taken apart by the sort of their operands.  Packing a result that is not
finite leaves it so (`isFinite_of_unpack_pack`); whether a finite result overflows when it is
rounded does not matter, because only the other direction is claimed. -/

/-- What is put together from no finite number is none. -/
theorem isFinite_of_unpack_pack {u : UnpackedFloat}
    (h : (UnpackedFloat.unpack .binary64 (UnpackedFloat.pack .binary64 u)).isFinite = true) :
    u.isFinite = true := by
  cases u with
  | zero | finite => rfl
  | infinity s => cases s <;> cases h
  | notANumber => cases h

/-- Only finite floats have a finite sum. -/
theorem isFinite_of_add {x y : Float} (h : (x + y).isFinite = true) :
    x.isFinite = true ∧ y.isFinite = true := by
  replace h : (x.toModel.unpack.add .binary64 y.toModel.unpack).isFinite = true :=
    isFinite_of_unpack_pack h
  show x.toModel.unpack.isFinite = true ∧ y.toModel.unpack.isFinite = true
  generalize x.toModel.unpack = u at h ⊢
  generalize y.toModel.unpack = v at h ⊢
  cases u with
  | notANumber => cases h
  -- Infinities of the same sign add up to one, those of different signs to NaN.
  | infinity s =>
    cases v with
    | infinity t => cases s <;> cases t <;> cases h
    | notANumber | zero | finite => cases h
  | zero | finite =>
    cases v with
    | zero | finite => exact ⟨rfl, rfl⟩
    | notANumber | infinity => cases h

/-- Only finite floats have a finite difference. -/
theorem isFinite_of_sub {x y : Float} (h : (x - y).isFinite = true) :
    x.isFinite = true ∧ y.isFinite = true := by
  replace h : (x.toModel.unpack.sub .binary64 y.toModel.unpack).isFinite = true :=
    isFinite_of_unpack_pack h
  show x.toModel.unpack.isFinite = true ∧ y.toModel.unpack.isFinite = true
  generalize x.toModel.unpack = u at h ⊢
  generalize y.toModel.unpack = v at h ⊢
  cases u with
  | notANumber => cases h
  | infinity s =>
    cases v with
    | infinity t => cases s <;> cases t <;> cases h
    | notANumber | zero | finite => cases h
  | zero | finite =>
    cases v with
    | zero | finite => exact ⟨rfl, rfl⟩
    | notANumber | infinity => cases h

/-- Only finite floats have a finite product: zero times infinity is no number. -/
theorem isFinite_of_mul {x y : Float} (h : (x * y).isFinite = true) :
    x.isFinite = true ∧ y.isFinite = true := by
  replace h : (x.toModel.unpack.mul .binary64 y.toModel.unpack).isFinite = true :=
    isFinite_of_unpack_pack h
  show x.toModel.unpack.isFinite = true ∧ y.toModel.unpack.isFinite = true
  generalize x.toModel.unpack = u at h ⊢
  generalize y.toModel.unpack = v at h ⊢
  cases u with
  | notANumber => cases h
  | infinity s => cases v <;> cases h
  | zero | finite =>
    cases v with
    | zero | finite => exact ⟨rfl, rfl⟩
    | notANumber | infinity => cases h

/-! ### Exact values

`magnitude?` works on the bits as a natural number, and the float on bit vectors.  The two agree
on the field of the exponent, which alone decides whether there is an exact value. -/

/-- The exponent of a float among its bits. -/
theorem toNat_unpackExponent (x : Float) :
    (@UnpackedFloat.unpackExponent .binary64 x.toModel.toBits.toBitVec).toNat =
      x.toBits.toNat % Nat.pow 2 63 / Nat.pow 2 52 := by
  have hbits : x.toBits.toNat = x.toModel.toBits.toBitVec.toNat := rfl
  rw [hbits, UnpackedFloat.unpackExponent, BitVec.toNat_cast, BitVec.extractLsb,
    BitVec.extractLsb'_toNat]
  generalize x.toModel.toBits.toBitVec.toNat = n
  show n >>> 52 % 2 ^ 11 = n % 2 ^ 63 / 2 ^ 52
  rw [Nat.shiftRight_eq_div_pow]
  omega

/-- A float has an exact value if it is finite. -/
theorem isSome_magnitude? (x : Float) : (magnitude? x).isSome = x.isFinite := by
  have hfinite : x.isFinite = true ↔
      @UnpackedFloat.unpackExponent .binary64 x.toModel.toBits.toBitVec ≠ -1#11 :=
    isFinite_unpack_iff _
  unfold magnitude?
  simp only [← toNat_unpackExponent]
  split
  · next hfull =>
    have hexponent : @UnpackedFloat.unpackExponent .binary64 x.toModel.toBits.toBitVec = -1#11 :=
      BitVec.eq_of_toNat_eq hfull
    exact (Bool.eq_false_iff.2 fun h => hfinite.1 h hexponent).symm
  · next hfull =>
    have hx : x.isFinite = true := hfinite.2 fun h => hfull (congrArg BitVec.toNat h)
    rw [hx]
    split <;> rfl

end Dimensional.Decimal
