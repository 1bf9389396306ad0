import Dimensional.Power.Basic
import Dimensional.Proofs.Decimal.Exact

/-!
# Floats that are whole numbers

Natural numbers up to `2 ^ 53` are floats (`ofNat_eq_ofParts`), and their sums and differences with
zero are exact (`ofNat_add_ofNat`, `ofNat_sub_ofNat`).  The other way round, `IsInt x k` says that
the float `x` is the integer `k`, be it a zero of either sign.

Main statement: `exists_isInt` — a whole float that is no larger than `2 ^ 53` is an integer.  The
proof reads the exact value off the bits of the float (`magnitude?_of_unpack`).
-/

namespace Dimensional.Decimal

open Float.Model

/-! ### The exact value of a float

Both the float and `magnitude?` read the same 64 bits, one as bit vectors and one as a natural
number.  Field by field the two readings are equal, and `fields_of_unpack` says once what the
fields have to do with the parts of a float. -/

theorem toNat_unpackMantissa (x : Float) :
    (@UnpackedFloat.unpackMantissa .binary64 x.toModel.toBits.toBitVec).toNat =
      x.toBits.toNat % Nat.pow 2 63 % Nat.pow 2 52 := by
  rw [UnpackedFloat.unpackMantissa, BitVec.toNat_cast, BitVec.extractLsb_toNat]
  show x.toBits.toNat >>> 0 % 4503599627370496 =
    x.toBits.toNat % 9223372036854775808 % 4503599627370496
  rw [Nat.shiftRight_zero]
  omega

theorem toNat_unpackSign (x : Float) :
    (@UnpackedFloat.unpackSign .binary64 x.toModel.toBits.toBitVec).toNat =
      x.toBits.toNat / Nat.pow 2 63 := by
  have hlt : x.toBits.toNat < 18446744073709551616 := x.toBits.toBitVec.isLt
  show (BitVec.cast _ (BitVec.extractLsb _ _ _)).toNat = _
  rw [BitVec.toNat_cast, BitVec.extractLsb_toNat]
  show x.toBits.toNat >>> 63 % 2 = x.toBits.toNat / 9223372036854775808
  rw [Nat.shiftRight_eq_div_pow]
  omega

/-- The bit in front of the mantissa of a float that is not too small. -/
theorem toNat_one_append_bits (b : BitVec 52) :
    (1#1 ++ b).toNat = 4503599627370496 + b.toNat := by
  rw [BitVec.toNat_append]
  show 1 <<< 52 ||| b.toNat = _
  rw [← Nat.shiftLeft_add_eq_or_of_lt b.isLt]
  rfl

/-- The parts of a finite float other than zero are read off its three fields.  Where the field of
the exponent is zero the mantissa is taken as it stands, and otherwise with a bit in front. -/
theorem fields_of_unpack {x : Float} {s : UnpackedFloat.Sign} {m : Nat} {e : Int} {hm : 0 < m}
    (h : x.toModel.unpack = .finite s m e hm) :
    @UnpackedFloat.unpackExponent .binary64 x.toModel.toBits.toBitVec ≠ -1#11 ∧
      UnpackedFloat.Sign.ofBitVec
        (@UnpackedFloat.unpackSign .binary64 x.toModel.toBits.toBitVec) = s ∧
      ((@UnpackedFloat.unpackExponent .binary64 x.toModel.toBits.toBitVec).toNat = 0 ∧
          m = (@UnpackedFloat.unpackMantissa .binary64 x.toModel.toBits.toBitVec).toNat ∧
          e = -1074 ∨
        (@UnpackedFloat.unpackExponent .binary64 x.toModel.toBits.toBitVec).toNat ≠ 0 ∧
          m = 4503599627370496 +
            (@UnpackedFloat.unpackMantissa .binary64 x.toModel.toBits.toBitVec).toNat ∧
          e = (@UnpackedFloat.unpackExponent .binary64 x.toModel.toBits.toBitVec).toNat -
            1075) := by
  have hfinite : @UnpackedFloat.unpackExponent .binary64 x.toModel.toBits.toBitVec ≠ -1#11 :=
    (isFinite_unpack_iff _).1 (show x.toModel.unpack.isFinite = true by rw [h]; rfl)
  have hbias := exponentBias_eq
  have hfraction := mantissaBitsWithoutImplicit_eq
  refine ⟨hfinite, ?_⟩
  unfold Float.Model.unpack UnpackedFloat.unpack at h
  dsimp only at h
  rw [if_neg hfinite] at h
  -- A zero in the field of the exponent means that there is no bit in front of the mantissa.
  by_cases hzero : @UnpackedFloat.unpackExponent .binary64 x.toModel.toBits.toBitVec = 0#11
  · have hfield : (@UnpackedFloat.unpackExponent .binary64 x.toModel.toBits.toBitVec).toNat = 0 :=
      congrArg BitVec.toNat hzero
    rw [if_pos hzero] at h
    by_cases hnone : @UnpackedFloat.unpackMantissa .binary64 x.toModel.toBits.toBitVec = 0#52
    · rw [dif_pos hnone] at h
      cases h
    · rw [dif_neg hnone] at h
      obtain ⟨hs, hmantissa, he⟩ := UnpackedFloat.finite.inj h
      exact ⟨hs, .inl ⟨hfield, hmantissa.symm, by omega⟩⟩
  · have hfield : (@UnpackedFloat.unpackExponent .binary64 x.toModel.toBits.toBitVec).toNat ≠ 0 :=
      fun heq => hzero (BitVec.eq_of_toNat_eq heq)
    rw [if_neg hzero] at h
    obtain ⟨hs, hmantissa, he⟩ := UnpackedFloat.finite.inj h
    exact ⟨hs, .inr ⟨hfield, (hmantissa.symm.trans (toNat_one_append_bits _)), by omega⟩⟩

/-- The exact value of a float is made up of its mantissa and its exponent. -/
theorem magnitude?_of_unpack {x : Float} {s : UnpackedFloat.Sign} {m : Nat} {e : Int} {hm : 0 < m}
    (h : x.toModel.unpack = .finite s m e hm) : magnitude? x = some ⟨m, e⟩ := by
  obtain ⟨hfinite, _, hparts⟩ := fields_of_unpack h
  unfold magnitude?
  simp only [← toNat_unpackExponent, ← toNat_unpackMantissa]
  rw [if_neg (Nat.ne_of_lt (toNat_exponent_lt hfinite))]
  obtain ⟨hfield, rfl, rfl⟩ | ⟨hfield, rfl, rfl⟩ := hparts
  · rw [if_pos hfield]
  · rw [if_neg hfield]

/-- How large mantissa and exponent can be: unless it is too small for that, the mantissa of a float
has its full length. -/
theorem bounds_of_magnitude? {x : Float} {m : Nat} {e : Int} (h : magnitude? x = some ⟨m, e⟩) :
    m < 9007199254740992 ∧ e ≤ 971 ∧ (e = -1074 ∨ Fits m e) := by
  unfold magnitude? at h
  dsimp only at h
  have hbits : x.toBits.toNat % Nat.pow 2 63 < 9223372036854775808 := Nat.mod_lt _ (by decide)
  generalize x.toBits.toNat % Nat.pow 2 63 = bits at h hbits
  have hfraction : bits % Nat.pow 2 52 < 4503599627370496 := Nat.mod_lt _ (by decide)
  have hfield : bits / Nat.pow 2 52 < 2048 := Nat.div_lt_of_lt_mul hbits
  generalize bits % Nat.pow 2 52 = fraction at h hfraction
  generalize bits / Nat.pow 2 52 = field at h hfield
  have hone : Nat.pow 2 52 = 4503599627370496 := rfl
  split at h
  · cases h
  · split at h
    · cases h
      refine ⟨?_, ?_, .inl rfl⟩ <;> omega
    · cases h
      refine ⟨?_, ?_, .inr ?_⟩
      · omega
      · omega
      · constructor <;> omega

/-- A float above zero has no sign. -/
theorem isNegative_of_unpack {x : Float} {m : Nat} {e : Int} {hm : 0 < m}
    (h : x.toModel.unpack = .finite .positive m e hm) : isNegative x = false := by
  have hsign := (fields_of_unpack h).2.1
  have hzero : @UnpackedFloat.unpackSign .binary64 x.toModel.toBits.toBitVec = 0#1 := by
    unfold UnpackedFloat.Sign.ofBitVec at hsign
    split at hsign
    · assumption
    · cases hsign
  have hbits : x.toBits.toNat / 9223372036854775808 = 0 :=
    (toNat_unpackSign x).symm.trans (congrArg BitVec.toNat hzero)
  apply decide_eq_false
  show ¬9223372036854775808 ≤ x.toBits.toNat
  omega

/-! ### Whole numbers

Natural numbers below `2 ^ 53` become floats by way of the machine integers.  They are shifted to
a full mantissa on the way and so are floats by their parts; zero and `2 ^ 53` itself are looked
at one by one. -/

/-- Natural numbers that fit into a mantissa are floats. -/
theorem ofNat_eq_ofParts {n j m : Nat} {e : Int} (hm : m = n * Nat.pow 2 j) (he : e = -j)
    (h : Fits m e) : Float.ofNat n = ofParts .positive h := by
  subst hm he
  have hlt : n < 9007199254740992 :=
    Nat.lt_of_le_of_lt (Nat.le_mul_of_pos_right n (Nat.two_pow_pos j)) h.upper
  have hpos : 0 < n := Nat.pos_of_mul_pos_right h.pos
  have hbits : n.toUInt64.toNat = n := by
    show n % 18446744073709551616 = n
    omega
  have hcompare : compare (n : Int) 0 = .gt := Int.compare_eq_gt.2 (Int.ofNat_lt.2 hpos)
  have hround := round_exact h .positive
  have hzero : -(j : Int) + j = 0 := by omega
  rw [hzero] at hround
  have hfloat : n.toUInt64.toFloat = ofParts .positive h := by
    show Float.ofModel (.pack (UnpackedFloat.ofNat .binary64 n.toUInt64.toNat)) = _
    rw [hbits, UnpackedFloat.ofNat, UnpackedFloat.ofInt, UnpackedFloat.normalize, hcompare]
    show Float.ofModel (.pack (UnpackedFloat.round .binary64 .positive n 0)) = _
    rw [hround]
    rfl
  -- Reading a natural number multiplies by ten to the power zero.
  show Float.ofScientific n false 0 = _
  rw [Float.ofScientific, dif_pos ⟨hlt, by decide⟩, hfloat]
  exact ofParts_mul_one h .positive

/-- Every other natural number but zero gets a full mantissa. -/
theorem ofNat_cases {n : Nat} (hn : n ≤ 9007199254740992) :
    n = 0 ∨ 0 < n ∧ ∃ m e, ∃ h : Fits m e, Float.ofNat n = ofParts .positive h := by
  by_cases hzero : n = 0
  · exact .inl hzero
  refine .inr ⟨Nat.pos_of_ne_zero hzero, ?_⟩
  -- Two to the fifty-third has 54 bits, but its last one is a zero.
  obtain rfl | hlt : n = 9007199254740992 ∨ n < 9007199254740992 := by omega
  · have h : Fits 4503599627370496 1 := by constructor <;> decide
    exact ⟨4503599627370496, 1, h, by rfl⟩
  · have hshort : n.log2 < 53 := (Nat.log2_lt hzero).2 hlt
    have hlog : (n * Nat.pow 2 (52 - n.log2)).log2 = 52 := by
      rw [log2_mul_two_pow hzero]
      omega
    have hne : n * Nat.pow 2 (52 - n.log2) ≠ 0 :=
      Nat.mul_ne_zero hzero (Nat.ne_of_gt (Nat.two_pow_pos _))
    obtain ⟨hlower, hupper⟩ := (Nat.log2_eq_iff hne).1 hlog
    have h : Fits (n * Nat.pow 2 (52 - n.log2)) (-(52 - n.log2 : Nat)) := by
      refine ⟨hlower, hupper, ?_, ?_⟩ <;> omega
    exact ⟨_, _, h, ofNat_eq_ofParts rfl rfl h⟩

theorem ofInt_neg_natCast {n : Nat} (hpos : 0 < n) : Float.ofInt (-n) = -Float.ofNat n := by
  obtain ⟨n, rfl⟩ := Nat.exists_eq_succ_of_ne_zero (Nat.ne_of_gt hpos)
  rfl

theorem ofNat_beq_self {n : Nat} (hn : n ≤ 9007199254740992) :
    (Float.ofNat n == Float.ofNat n) = true := by
  obtain rfl | ⟨hpos, m, e, h, heq⟩ := ofNat_cases hn
  · decide +kernel
  · rw [heq]
    exact ofParts_beq h (unpack_ofParts h .positive)

theorem one_mul_ofNat {n : Nat} (hn : n ≤ 9007199254740992) :
    1 * Float.ofNat n = Float.ofNat n := by
  obtain rfl | ⟨hpos, m, e, h, heq⟩ := ofNat_cases hn
  · decide +kernel
  · rw [heq]
    exact one_mul_ofParts h .positive

theorem zero_mul_ofNat {n : Nat} (hn : n ≤ 9007199254740992) : 0 * Float.ofNat n = 0 := by
  obtain rfl | ⟨hpos, m, e, h, heq⟩ := ofNat_cases hn
  · decide +kernel
  · rw [heq]
    exact zero_mul_ofParts h

/-- Nothing is rounded in a sum with a zero. -/
theorem ofNat_add_ofNat {a b : Nat} (ha : a ≤ 9007199254740992) (hb : b ≤ 9007199254740992)
    (hzero : a = 0 ∨ b = 0) : Float.ofNat a + Float.ofNat b = Float.ofNat (a + b) := by
  obtain rfl | rfl := hzero
  · rw [Nat.zero_add]
    obtain rfl | ⟨hpos, m, e, h, heq⟩ := ofNat_cases hb
    · decide +kernel
    · rw [heq]
      exact zero_add_ofParts h .positive
  · rw [Nat.add_zero]
    obtain rfl | ⟨hpos, m, e, h, heq⟩ := ofNat_cases ha
    · decide +kernel
    · rw [heq]
      exact ofParts_add_zero h .positive

/-- Nor is anything in a difference. -/
theorem ofNat_sub_ofNat {a b : Nat} (ha : a ≤ 9007199254740992) (hb : b ≤ 9007199254740992)
    (hzero : a = 0 ∨ b = 0) : Float.ofNat a - Float.ofNat b = Float.ofInt (a - b) := by
  obtain rfl | rfl := hzero
  · have hneg : ((0 : Nat) : Int) - b = -b := Int.zero_sub _
    rw [hneg]
    obtain rfl | ⟨hpos, m, e, h, heq⟩ := ofNat_cases hb
    · decide +kernel
    · rw [ofInt_neg_natCast hpos, heq]
      exact zero_sub_ofParts h .positive
  · have hsame : (a : Int) - (0 : Nat) = a := Int.sub_zero _
    rw [hsame]
    obtain rfl | ⟨hpos, m, e, h, heq⟩ := ofNat_cases ha
    · decide +kernel
    · show _ = Float.ofNat a
      rw [heq]
      exact ofParts_sub_zero h .positive

theorem roundHalfEven_of_mod_eq_zero {num den : Nat} (hden : 0 < den) (h : num % den = 0) :
    roundHalfEven num den = num / den := by
  rw [roundHalfEven, h]
  exact if_pos hden

/-- Of a whole number no more bits can be behind the point than there are. -/
theorem lt_of_isWhole {m q : Nat} (hpos : 0 < m) (hm : m < 9007199254740992)
    (h : Magnitude.isWhole ⟨m, .negSucc q⟩ = true) : q < 53 := by
  have hmod : m % Nat.pow 2 (q + 1) = 0 := of_decide_eq_true h
  apply Nat.lt_of_not_le
  intro hq
  have hle : 9007199254740992 ≤ Nat.pow 2 (q + 1) :=
    Nat.pow_le_pow_right Nat.two_pos (Nat.le_succ_of_le hq)
  rw [Nat.mod_eq_of_lt (Nat.lt_of_lt_of_le hm hle)] at hmod
  omega

/-- A whole number of at most 53 bits is the float of a natural number. -/
theorem exists_natural {m : Nat} {e : Int} (h : Fits m e)
    (hwhole : Magnitude.isWhole ⟨m, e⟩ = true) (hle : e < 1 ∨ e = 1 ∧ m ≤ 4503599627370496) :
    -53 ≤ e ∧ ∃ n, 0 < n ∧ n ≤ 9007199254740992 ∧ Float.ofNat n = ofParts .positive h ∧
      roundHalfEven (Magnitude.ratio ⟨m, e⟩).1 (Magnitude.ratio ⟨m, e⟩).2 = n := by
  have hmod := of_decide_eq_true hwhole
  have hround := roundHalfEven_of_mod_eq_zero (Magnitude.ratio_den_pos ⟨m, e⟩) hmod
  rw [hround]
  have hupper := h.upper
  have hlower := h.lower
  have hpos := h.pos
  -- Without bits behind the point the mantissa is the number, or half of it in the one case with
  -- a greater exponent.
  obtain q | q := e
  · have hq : q = 0 ∨ q = 1 ∧ m = 4503599627370496 := by
      have hcast : Int.ofNat q = (q : Int) := rfl
      omega
    obtain rfl | ⟨rfl, rfl⟩ := hq
    · have hfloat : Float.ofNat m = ofParts .positive h :=
        ofNat_eq_ofParts (j := 0) (Nat.mul_one m).symm rfl h
      refine ⟨by decide, m, hpos, Nat.le_of_lt hupper, hfloat, ?_⟩
      show m * 1 / 1 = m
      rw [Nat.mul_one, Nat.div_one]
    · exact ⟨by decide, 9007199254740992, by decide, by decide, by rfl, rfl⟩
  · -- The bits behind the point are zeros.
    have hm : m = m / Nat.pow 2 (q + 1) * Nat.pow 2 (q + 1) :=
      (Nat.div_mul_cancel (Nat.dvd_of_mod_eq_zero hmod)).symm
    have hq := lt_of_isWhole hpos hupper hwhole
    refine ⟨by omega, m / Nat.pow 2 (q + 1), ?_, ?_, ofNat_eq_ofParts (j := q + 1) hm rfl h, rfl⟩
    · apply Nat.pos_of_ne_zero
      intro hzero
      rw [hzero, Nat.zero_mul] at hm
      omega
    · exact Nat.le_trans (Nat.div_le_self _ _) (Nat.le_of_lt hupper)

/-- The float is this whole number, which takes at most 53 bits.  For a number other than zero
this lists all that the text of an exponent asks of a float: its parts, the natural number that
makes the same float, and that rounding gives this number. -/
inductive IsInt (x : Float) : Int → Prop where
  | zero {s : UnpackedFloat.Sign} : x.toModel.unpack = .zero s → IsInt x 0
  | signed {s : UnpackedFloat.Sign} {m n : Nat} {e : Int} (h : Fits m e) :
      x.toModel.unpack = .finite s m e h.pos → -53 ≤ e → 0 < n → n ≤ 9007199254740992 →
      Float.ofNat n = ofParts .positive h → nearestInt? x.abs = some (n : Int) →
      IsInt x (s.apply n)

theorem lt_iff_compare {x y : Float} :
    x < y ↔ x.toModel.unpack.compare y.toModel.unpack = some .lt := by
  constructor
  · intro h
    exact eq_of_beq (of_decide_eq_true h)
  · intro h
    have hlt : x.toModel.unpack.lt y.toModel.unpack = true := by
      rw [UnpackedFloat.lt, h]
      rfl
    exact decide_eq_true hlt

/-- What is no more than two to the fifty-third has an exponent of at most one. -/
theorem exponent_of_ofParts_le {m : Nat} {e : Int} {h : Fits m e}
    (hle : ofParts .positive h ≤ 9007199254740992) : e < 1 ∨ e = 1 ∧ m ≤ 4503599627370496 := by
  replace hle : (ofParts .positive h).toModel.unpack.le
      (9007199254740992 : Float).toModel.unpack = true := of_decide_eq_true hle
  have hlimit : (9007199254740992 : Float).toModel.unpack =
      .finite .positive 4503599627370496 1 (by decide) := by
    rfl
  rw [unpack_ofParts, hlimit] at hle
  replace hle : ((compare e 1).then (compare m 4503599627370496)).isLE = true := hle
  rcases Ordering.isLE_then_iff_or.1 hle with hlt | ⟨heq, hle⟩
  · exact .inl (Int.compare_eq_lt.1 hlt)
  · exact .inr ⟨Int.compare_eq_eq.1 heq, Nat.isLE_compare.1 hle⟩

/-- Whole floats up to two to the fifty-third are whole numbers.  A whole float has an exact
value and is finite; a zero is zero, and of the others those beneath the normal ones are never
whole. -/
theorem exists_isInt {x : Float} (hwhole : Power.isWhole x = true)
    (hle : x.abs ≤ 9007199254740992) : ∃ k, IsInt x k := by
  obtain ⟨v, hv, hvwhole⟩ := (Option.any_eq_true _ _).1 hwhole
  have hfinite : x.toModel.unpack.isFinite = true := by
    show x.isFinite = true
    rw [← isSome_magnitude?, hv]
    rfl
  cases hx : x.toModel.unpack with
  | infinity | notANumber =>
    rw [hx] at hfinite
    cases hfinite
  | zero s => exact ⟨0, .zero hx⟩
  | finite s m e hm =>
    have hmagnitude := magnitude?_of_unpack hx
    rw [hv] at hmagnitude
    cases hmagnitude
    obtain ⟨hupper, _, rfl | h⟩ := bounds_of_magnitude? hv
    · -- The least floats are no whole numbers.
      have hshort : 1073 < 53 := lt_of_isWhole hm hupper hvwhole
      omega
    · have habs := abs_eq_ofParts h hx
      rw [habs] at hle
      obtain ⟨hleast, n, hpos, hn, hfloat, hround⟩ :=
        exists_natural h hvwhole (exponent_of_ofParts_le hle)
      refine ⟨s.apply n, .signed h hx hleast hpos hn hfloat ?_⟩
      have hunpack := unpack_ofParts h .positive
      rw [habs, nearestInt?, magnitude?_of_unpack hunpack, isNegative_of_unpack hunpack]
      simp only [Option.map_some, hround]
      rfl

namespace IsInt

variable {x : Float} {k : Int}

theorem natAbs_apply (s : UnpackedFloat.Sign) (n : Nat) : (s.apply n).natAbs = n := by
  cases s with
  | positive => exact Int.natAbs_natCast n
  | negative => exact Int.natAbs_neg n

theorem natAbs_le (h : IsInt x k) : k.natAbs ≤ 9007199254740992 := by
  cases h with
  | zero => decide
  | signed _ _ _ _ hn =>
    rw [natAbs_apply]
    exact hn

/-- A whole number is equal to the float of that number, be it zero of either sign. -/
theorem beq (h : IsInt x k) : (Float.ofInt k == x) = true := by
  cases h with
  | @zero s hx =>
    show (UnpackedFloat.zero .positive).beq x.toModel.unpack = true
    rw [hx]
    cases s <;> rfl
  | @signed s m n e hfits hx _ hpos _ hfloat _ =>
    cases s with
    | positive =>
      show (Float.ofNat n == x) = true
      rw [hfloat]
      exact ofParts_beq hfits hx
    | negative =>
      show (Float.ofInt (-n) == x) = true
      rw [ofInt_neg_natCast hpos, hfloat, neg_ofParts]
      exact ofParts_beq hfits hx

theorem pos_iff (h : IsInt x k) : x > 0 ↔ 0 < k := by
  show 0 < x ↔ _
  rw [lt_iff_compare, unpack_zero]
  cases h with
  | zero hx =>
    rw [hx]
    exact iff_of_false nofun (Int.lt_irrefl 0)
  | @signed s m n e hfits hx _ hpos =>
    rw [hx]
    cases s with
    | positive => exact iff_of_true rfl (Int.ofNat_lt.2 hpos)
    | negative =>
      apply iff_of_false
      · intro hlt
        cases hlt
      · show ¬0 < -(n : Int)
        omega

/-- Without its sign, a whole number is the float of a natural number. -/
theorem abs_eq (h : IsInt x k) (hk : k ≠ 0) :
    x.abs = Float.ofNat k.natAbs ∧ nearestInt? x.abs = some (k.natAbs : Int) := by
  cases h with
  | zero => exact absurd rfl hk
  | @signed s m n e hfits hx _ _ _ hfloat hround =>
    rw [natAbs_apply]
    exact ⟨(abs_eq_ofParts hfits hx).trans hfloat.symm, hround⟩

end IsInt

end Dimensional.Decimal
