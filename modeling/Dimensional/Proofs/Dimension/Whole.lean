import Dimensional.Dimension.Text
import Dimensional.Proofs.Decimal.Whole

/-!
# The text of whole exponents

Exponents that are whole numbers are written with all their digits: those above zero stand above the
line, those below zero below it, and zeros are left out (`factors_of_isInt`).
-/

namespace Dimensional.Exponents

open Decimal Float.Model

/-- The only integer that is left out is zero. -/
theorem abs_lt_negligible_iff {x : Float} {k : Int} (h : IsInt x k) :
    x.abs < negligible ↔ k = 0 := by
  have hsmall : negligible.toModel.unpack =
      .finite .positive 4951760157141521 (-92) (by decide) := by
    rfl
  rw [lt_iff_compare, hsmall]
  cases h with
  | zero hx =>
    have habs : x.abs.toModel.unpack = .zero .positive := by
      rw [unpack_abs, hx]
      show UnpackedFloat.unpack .binary64 (UnpackedFloat.packedZero .binary64 .positive) = _
      rfl
    rw [habs]
    exact iff_of_true rfl rfl
  | @signed s m n e hfits hx hleast hpos =>
    have hk : (s.apply n).natAbs ≠ 0 := by
      rw [IsInt.natAbs_apply]
      exact Nat.ne_of_gt hpos
    -- Any whole number but zero has an exponent of at least -53, far above that of the limit.
    have hexponent : compare e (-92) = .gt := Int.compare_eq_gt.2 (by omega)
    rw [abs_eq_ofParts hfits hx, unpack_ofParts]
    apply iff_of_false
    · show ¬some ((compare e (-92)).then (compare m 4951760157141521)) = some .lt
      rw [hexponent]
      intro h
      cases h
    · intro hzero
      exact hk (Int.natAbs_eq_zero.2 hzero)

/-- The base unit with an exponent behind it, unless that is one. -/
def powerOf (symbol : String) (n : Nat) : String :=
  if n = 1 then symbol else symbol ++ "^" ++ natural n

theorem natural_eq_one_iff (n : Nat) : natural n = "1" ↔ n = 1 := by
  constructor
  · intro h
    have hdigits : Nat.toDigits 10 n = ['1'] := by
      have hlist := congrArg String.toList h
      rw [natural, String.toList_ofList] at hlist
      exact hlist
    -- Reading the digits again gives the number.
    have hread := @Nat.ofDigitChars_ten_toDigits n
    rw [hdigits] at hread
    exact hread.symm
  · rintro rfl
    rfl

/-- A whole number is written with all its digits. -/
theorem exponentText_abs {x : Float} {k : Int} (h : IsInt x k) (hk : k ≠ 0) :
    exponentText x.abs = .ok (natural k.natAbs) := by
  obtain ⟨habs, hnearest⟩ := h.abs_eq hk
  have hclose : isClose x.abs (Float.ofInt (k.natAbs : Int)) = true := by
    show isClose x.abs (Float.ofNat k.natAbs) = true
    rw [habs, isClose, if_pos (ofNat_beq_self h.natAbs_le)]
  rw [exponentText, hnearest]
  simp only [hclose, if_true]
  rfl

theorem factorText_abs {x : Float} {k : Int} (h : IsInt x k) (hk : k ≠ 0) (symbol : String) :
    factorText symbol x.abs = .ok (powerOf symbol k.natAbs) := by
  rw [factorText, exponentText_abs h hk, powerOf]
  show Except.ok (if natural k.natAbs = "1" then symbol else _) = _
  simp only [natural_eq_one_iff]

/-- Which of the symbols have an exponent above zero. -/
def above (exponent : String → Int) (symbols : List String) : List String :=
  symbols.filter fun symbol => 0 < exponent symbol

def below (exponent : String → Int) (symbols : List String) : List String :=
  symbols.filter fun symbol => exponent symbol < 0

section

variable {exponent : String → Int} {symbols : List String} {symbol : String}

@[simp] theorem mem_above_iff :
    symbol ∈ above exponent symbols ↔ symbol ∈ symbols ∧ 0 < exponent symbol := by
  simp [above]

@[simp] theorem mem_below_iff :
    symbol ∈ below exponent symbols ↔ symbol ∈ symbols ∧ exponent symbol < 0 := by
  simp [below]

/-- No symbol stands above and below the line. -/
theorem nodup_above_below (h : symbols.Nodup) :
    (above exponent symbols ++ below exponent symbols).Nodup := by
  refine List.nodup_append.2 ⟨h.filter _, h.filter _, ?_⟩
  rintro symbol habove _ hbelow rfl
  have hpos := (mem_above_iff.1 habove).2
  have hneg := (mem_below_iff.1 hbelow).2
  omega

end

/-- The factors of whole exponents, each above or below the line. -/
theorem factors_of_isInt {exponent : String → Int} {axes : List (String × Float)}
    (h : ∀ axis ∈ axes, IsInt axis.2 (exponent axis.1)) :
    factors axes = .ok
      ((above exponent (axes.map Prod.fst)).map fun s => powerOf s (exponent s).natAbs,
        (below exponent (axes.map Prod.fst)).map fun s => powerOf s (exponent s).natAbs) := by
  induction axes with
  | nil => rfl
  | cons axis axes ih =>
    obtain ⟨symbol, x⟩ := axis
    obtain ⟨hx, hrest⟩ := List.forall_mem_cons.1 h
    have ih := ih hrest
    rw [factors]
    -- Zeros are left out; otherwise the sign says on which side of the line the factor stands.
    by_cases hzero : exponent symbol = 0
    · rw [if_pos ((abs_lt_negligible_iff hx).2 hzero), ih]
      simp [above, below, hzero]
    · have hkept : ¬x.abs < negligible := fun hsmall => hzero ((abs_lt_negligible_iff hx).1 hsmall)
      rw [if_neg hkept, factorText_abs hx hzero, ih]
      show Except.ok (if x > 0 then _ else _) = _
      simp only [hx.pos_iff]
      by_cases hpos : 0 < exponent symbol
      · have hneg : ¬exponent symbol < 0 := by omega
        simp [above, below, hpos, hneg]
      · have hneg : exponent symbol < 0 := by omega
        simp [above, below, hpos, hneg]

end Dimensional.Exponents
