import Dimensional.Proofs.Decimal.Finite

/-!
# Arithmetic that is exact

A float whose mantissa has its full length and whose exponent leaves room (`Fits`) stays what it is
when it is rounded (`roundWithAccuracy_exact`, `round_exact`) and when it is put together and taken
apart again (`unpack_pack`).  So floats can be given by their parts (`ofParts`), and multiplying
them by one, or adding or taking away a zero, changes nothing.
-/

namespace Dimensional.Decimal

open Float.Model
open Float.Model.UnpackedFloat (ExtendedMantissa roundWithAccuracy shiftToTargetExponent)

/-! ### Rounding

Rounding shifts the mantissa to the exponent at which a number of its size is held, rounds off
what was shifted out, and shifts once more, in case the rounding carried.  If only zeros are
shifted out, nothing is rounded off, and the second shift is none. -/

/-- The mantissa has its full length, and there is room for the exponent.  These are the normal
floats: the mantissa lies between `2 ^ 52` and `2 ^ 53`, and the exponents are those that the
format has for it. -/
structure Fits (m : Nat) (e : Int) : Prop where
  lower : 4503599627370496 ≤ m
  upper : m < 9007199254740992
  least : -1074 ≤ e
  greatest : e ≤ 971

namespace Fits

variable {m : Nat} {e : Int}

theorem pos (h : Fits m e) : 0 < m := Nat.lt_of_lt_of_le (by decide) h.lower

theorem log2_eq (h : Fits m e) : m.log2 = 52 :=
  (Nat.log2_eq_iff (Nat.ne_of_gt h.pos)).2 ⟨h.lower, h.upper⟩

end Fits

theorem log2_mul_two_pow {n : Nat} (h : n ≠ 0) (k : Nat) :
    (n * Nat.pow 2 k).log2 = n.log2 + k := by
  induction k with
  | zero =>
    show (n * 1).log2 = n.log2
    rw [Nat.mul_one]
  | succ k ih =>
    have hne : n * Nat.pow 2 k ≠ 0 := Nat.mul_ne_zero h (Nat.ne_of_gt (Nat.two_pow_pos k))
    have hdouble : n * Nat.pow 2 (k + 1) = 2 * (n * Nat.pow 2 k) := by
      show n * (Nat.pow 2 k * 2) = _
      rw [← Nat.mul_assoc, Nat.mul_comm]
    rw [hdouble, Nat.log2_two_mul hne, ih, Nat.add_assoc]

/-- The exponent at which a number of this size is rounded. -/
theorem targetExponent_eq {m : Nat} {e : Int} (h : Fits m e) {n : Nat} {e' : Int}
    (hsize : n.log2 + e' = 52 + e) :
    Format.binary64.targetExponent (totalExponent n e') = e := by
  have hmin : Format.binary64.minExponent = -1074 := rfl
  have hbits : Format.binary64.mantissaBits = 53 := rfl
  have hleast := h.least
  -- The least exponent would win only for numbers beneath the normal ones.
  rw [Format.targetExponent, totalExponent, hmin, hbits]
  omega

/-- Zeros are shifted off without a trace. -/
theorem shiftRight_exact (m k : Nat) :
    ExtendedMantissa.ofMantissaAndAccuracy (m * Nat.pow 2 k) .exact >>> k =
      ExtendedMantissa.ofMantissaAndAccuracy m .exact := by
  show k.repeat ExtendedMantissa.shiftRightOne _ = _
  -- The shift is `k` single steps, and the first of them takes off the last zero.
  induction k generalizing m with
  | zero =>
    show ExtendedMantissa.ofMantissaAndAccuracy (m * 1) .exact = _
    rw [Nat.mul_one]
  | succ k ih =>
    have hdouble : m * Nat.pow 2 (k + 1) = m * 2 * Nat.pow 2 k := by
      show m * (Nat.pow 2 k * 2) = _
      rw [Nat.mul_comm (Nat.pow 2 k) 2, Nat.mul_assoc]
    rw [hdouble, Nat.repeat, ih]
    simp [ExtendedMantissa.ofMantissaAndAccuracy, ExtendedMantissa.shiftRightOne]

theorem shiftToTargetExponent_exact {m : Nat} {e : Int} (h : Fits m e) (k : Nat) :
    shiftToTargetExponent .binary64 (m * Nat.pow 2 k) (e - k) .exact =
      (ExtendedMantissa.ofMantissaAndAccuracy m .exact, e) := by
  have htarget := @targetExponent_eq m e h (m * Nat.pow 2 k) (e - k) (by
    rw [log2_mul_two_pow (Nat.ne_of_gt h.pos), h.log2_eq]
    omega)
  have hshift : (e - (e - k)).toNat = k := by omega
  have hexponent : e - k + k = e := by omega
  rw [shiftToTargetExponent, htarget]
  unfold UnpackedFloat.shiftToExponent
  simp only [hshift, shiftRight_exact, hexponent]

/-- What rounding comes to by way of its two shifts. -/
theorem roundWithAccuracy_of_shifts {s : UnpackedFloat.Sign} {m : Nat} {e e₁ e₂ : Int}
    {accuracy : UnpackedFloat.Accuracy} {em₁ em₂ : ExtendedMantissa}
    (h₁ : shiftToTargetExponent .binary64 m e accuracy = (em₁, e₁))
    (h₂ : shiftToTargetExponent .binary64 em₁.roundedMantissa e₁ .exact = (em₂, e₂))
    (hpos : 0 < em₂.mantissa) :
    roundWithAccuracy .binary64 s m e accuracy = .finite s em₂.mantissa e₂ hpos := by
  unfold roundWithAccuracy
  rw [h₁]
  dsimp only
  rw [h₂]
  exact dif_neg (Nat.ne_of_gt hpos)

/-- A number that only has zeros behind a full mantissa loses nothing when it is rounded. -/
theorem roundWithAccuracy_exact {m : Nat} {e : Int} (h : Fits m e) (k : Nat)
    (s : UnpackedFloat.Sign) :
    roundWithAccuracy .binary64 s (m * Nat.pow 2 k) (e - k) .exact = .finite s m e h.pos := by
  -- The second shift has nothing left to do.
  have hagain := shiftToTargetExponent_exact h 0
  have hm : m * Nat.pow 2 0 = m := Nat.mul_one m
  have he : e - (0 : Nat) = e := by omega
  rw [hm, he] at hagain
  exact roundWithAccuracy_of_shifts (shiftToTargetExponent_exact h k) hagain h.pos

/-- A number that only lacks zeros at the end of a full mantissa gets these when it is rounded. -/
theorem round_exact {n j : Nat} {e : Int} (h : Fits (n * Nat.pow 2 j) e)
    (s : UnpackedFloat.Sign) :
    UnpackedFloat.round .binary64 s n (e + j) = .finite s (n * Nat.pow 2 j) e h.pos := by
  have hn : n ≠ 0 := by
    rintro rfl
    have hpos := h.pos
    rw [Nat.zero_mul] at hpos
    cases hpos
  have hlog := log2_mul_two_pow hn j
  rw [h.log2_eq] at hlog
  have htarget := @targetExponent_eq _ e h n (e + j) (by omega)
  have hshift : (e + j - e).toNat = j := by omega
  have hexponent : e + j - (j : Int) = e - (0 : Nat) := by omega
  have hmantissa : n <<< j = n * Nat.pow 2 j * Nat.pow 2 0 := by
    rw [Nat.shiftLeft_eq]
    exact (Nat.mul_one _).symm
  rw [← roundWithAccuracy_exact h 0 s]
  unfold UnpackedFloat.round
  simp only [htarget, UnpackedFloat.decreaseExponent, hshift, hexponent, hmantissa]

/-! ### Putting floats together

A float is packed into a sign, a field for the exponent and one for the mantissa without its
leading bit.  Unpacking reads the three fields, and each is what was packed. -/

/-- The bit in front of a full mantissa goes without saying. -/
theorem toNat_one_append {m : Nat} {e : Int} (h : Fits m e) :
    (1#1 ++ BitVec.ofNat 52 m).toNat = m := by
  have hlower := h.lower
  have hupper := h.upper
  rw [BitVec.toNat_append, BitVec.toNat_ofNat]
  show 1 <<< 52 ||| m % 4503599627370496 = m
  rw [← Nat.shiftLeft_add_eq_or_of_lt (Nat.mod_lt _ (by decide))]
  show 4503599627370496 + m % 4503599627370496 = m
  omega

/-- The sign is found where it was packed, in front of everything else. -/
theorem sign_packComponents {spec : Format} (s : UnpackedFloat.Sign)
    (e : BitVec spec.exponentBits) (m : BitVec spec.mantissaBitsWithoutImplicit) :
    UnpackedFloat.Sign.ofBitVec
      (UnpackedFloat.unpackSign (UnpackedFloat.packComponents spec s e m)) = s := by
  have hsign : UnpackedFloat.unpackSign (UnpackedFloat.packComponents spec s e m) =
      s.toBitVec := by
    apply BitVec.eq_of_getElem_eq
    intro i hi
    obtain rfl : i = 0 := by omega
    show (BitVec.cast _ (BitVec.extractLsb _ _ (s.toBitVec ++ e ++ m)))[0] = _
    simp +arith [BitVec.getElem_append]
  rw [hsign]
  cases s <;> rfl

theorem finite_eq_finite {s s' : UnpackedFloat.Sign} {m m' : Nat} {e e' : Int} {hm : 0 < m}
    {hm' : 0 < m'} (hs : s = s') (hmantissa : m = m') (he : e = e') :
    UnpackedFloat.finite s m e hm = UnpackedFloat.finite s' m' e' hm' := by
  subst hs hmantissa he
  rfl

theorem unpack_pack {m : Nat} {e : Int} (h : Fits m e) (s : UnpackedFloat.Sign) :
    UnpackedFloat.unpack .binary64 (UnpackedFloat.pack .binary64 (.finite s m e h.pos)) =
      .finite s m e h.pos := by
  have hleast := h.least
  have hgreatest := h.greatest
  have hbits : 2 ^ Format.binary64.exponentBits = 2048 := rfl
  have hbias := exponentBias_eq
  have hfraction := mantissaBitsWithoutImplicit_eq
  have hfull : m.log2 + 1 = Format.binary64.mantissaBits := by
    rw [h.log2_eq]
    rfl
  generalize hfield : (e + Format.binary64.exponentBias +
    Format.binary64.mantissaBitsWithoutImplicit).toNat = field
  have hfield_toNat : (BitVec.ofNat 11 field).toNat = field := by
    rw [BitVec.toNat_ofNat]
    apply Nat.mod_eq_of_lt
    omega
  have hexponent : (field : Int) -
      (Format.binary64.exponentBias + Format.binary64.mantissaBitsWithoutImplicit) = e := by
    omega
  have hpack : UnpackedFloat.pack .binary64 (.finite s m e h.pos) =
      UnpackedFloat.packComponents .binary64 s (BitVec.ofNat 11 field) (BitVec.ofNat 52 m) := by
    unfold UnpackedFloat.pack
    simp only [hfield, hbits, hfull]
    rw [if_neg (by omega), if_pos trivial]
  rw [hpack]
  unfold UnpackedFloat.unpack
  dsimp only
  -- The field is neither that of infinities nor that of floats beneath the normal ones.
  rw [if_neg, if_neg]
  · refine finite_eq_finite (sign_packComponents s _ _) ?_ ?_
    · rw [UnpackedFloat.unpackMantissa_packComponents]
      exact toNat_one_append h
    · rw [UnpackedFloat.unpackExponent_packComponents, hfield_toNat, hexponent]
  · rw [UnpackedFloat.unpackExponent_packComponents]
    intro heq
    have hzero : (BitVec.ofNat 11 field).toNat = 0 := congrArg BitVec.toNat heq
    omega
  · rw [UnpackedFloat.unpackExponent_packComponents]
    intro heq
    have hones : (BitVec.ofNat 11 field).toNat = 2047 := congrArg BitVec.toNat heq
    omega

/-! ### Floats by their parts -/

def ofParts (s : UnpackedFloat.Sign) {m : Nat} {e : Int} (h : Fits m e) : Float :=
  .ofModel (.pack (.finite s m e h.pos))

section

variable {m : Nat} {e : Int} (h : Fits m e) (s : UnpackedFloat.Sign)

@[simp] theorem unpack_ofParts : (ofParts s h).toModel.unpack = .finite s m e h.pos :=
  unpack_pack h s

theorem unpack_one : (1 : Float).toModel.unpack =
    .finite .positive 4503599627370496 (-52) (by decide) := by
  rfl

theorem unpack_zero : (0 : Float).toModel.unpack = .zero .positive := by
  rfl

theorem neg_ofParts : -ofParts s h = ofParts (-s) h := by
  show Float.ofModel (.pack (ofParts s h).toModel.unpack.neg) = _
  rw [unpack_ofParts]
  rfl

theorem abs_eq_ofParts {x : Float} {s : UnpackedFloat.Sign}
    (hx : x.toModel.unpack = .finite s m e h.pos) : x.abs = ofParts .positive h := by
  show Float.ofModel (.pack x.toModel.unpack.abs) = _
  rw [hx]
  rfl

/-- Floats with the same parts are equal. -/
theorem ofParts_beq {x : Float} {s : UnpackedFloat.Sign}
    (hx : x.toModel.unpack = .finite s m e h.pos) : (ofParts s h == x) = true := by
  show (ofParts s h).toModel.unpack.beq x.toModel.unpack = true
  rw [unpack_ofParts, hx]
  have hparts : (compare e e).then (compare m m) = .eq := by
    rw [Int.compare_eq_eq.2 rfl, Nat.compare_eq_eq.2 rfl]
    rfl
  cases s with
  | positive =>
    show (some ((compare e e).then (compare m m)) == some .eq) = true
    rw [hparts]
    rfl
  | negative =>
    show (some ((compare e e).then (compare m m)).swap == some .eq) = true
    rw [hparts]
    rfl

/-! ### One and zero

Reading the text of a dimension back multiplies by ones and adds zeros, and neither may change
anything.  The mantissa of one is a power of two, so a product with it shifts by as many places
as that has zeros (`roundWithAccuracy_exact`). -/

theorem one_mul_ofParts : 1 * ofParts s h = ofParts s h := by
  have hround := roundWithAccuracy_exact h 52 s
  have hm : 4503599627370496 * m = m * Nat.pow 2 52 := Nat.mul_comm _ _
  have he : -52 + e = e - (52 : Nat) := by omega
  have hs : UnpackedFloat.Sign.positive * s = s := by cases s <;> rfl
  show Float.ofModel (.pack ((1 : Float).toModel.unpack.mul .binary64
    (ofParts s h).toModel.unpack)) = _
  rw [unpack_one, unpack_ofParts]
  show Float.ofModel (.pack (roundWithAccuracy .binary64 (.positive * s)
    (4503599627370496 * m) (-52 + e) .exact)) = _
  rw [hm, he, hs, hround]
  rfl

theorem ofParts_mul_one : ofParts s h * 1 = ofParts s h := by
  have hround := roundWithAccuracy_exact h 52 s
  have hs : s * UnpackedFloat.Sign.positive = s := by cases s <;> rfl
  show Float.ofModel (.pack ((ofParts s h).toModel.unpack.mul .binary64
    (1 : Float).toModel.unpack)) = _
  rw [unpack_one, unpack_ofParts]
  show Float.ofModel (.pack (roundWithAccuracy .binary64 (s * .positive)
    (m * Nat.pow 2 52) (e - (52 : Nat)) .exact)) = _
  rw [hs, hround]
  rfl

theorem zero_mul_ofParts : 0 * ofParts .positive h = 0 := by
  show Float.ofModel (.pack ((0 : Float).toModel.unpack.mul .binary64
    (ofParts .positive h).toModel.unpack)) = _
  rw [unpack_zero, unpack_ofParts]
  rfl

theorem zero_add_ofParts : 0 + ofParts s h = ofParts s h := by
  show Float.ofModel (.pack ((0 : Float).toModel.unpack.add .binary64
    (ofParts s h).toModel.unpack)) = _
  rw [unpack_zero, unpack_ofParts]
  rfl

theorem ofParts_add_zero : ofParts s h + 0 = ofParts s h := by
  show Float.ofModel (.pack ((ofParts s h).toModel.unpack.add .binary64
    (0 : Float).toModel.unpack)) = _
  rw [unpack_zero, unpack_ofParts]
  rfl

theorem zero_sub_ofParts : 0 - ofParts s h = -ofParts s h := by
  rw [neg_ofParts]
  show Float.ofModel (.pack ((0 : Float).toModel.unpack.sub .binary64
    (ofParts s h).toModel.unpack)) = _
  rw [unpack_zero, unpack_ofParts]
  rfl

theorem ofParts_sub_zero : ofParts s h - 0 = ofParts s h := by
  show Float.ofModel (.pack ((ofParts s h).toModel.unpack.sub .binary64
    (0 : Float).toModel.unpack)) = _
  rw [unpack_zero, unpack_ofParts]
  rfl

end

end Dimensional.Decimal
