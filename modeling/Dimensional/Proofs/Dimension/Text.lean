import Dimensional.Dimension.Text
import Dimensional.Proofs.Decimal.Finite
import Dimensional.Proofs.Fallible

/-!
# Which dimensions have a text

The text of a dimension is put together from those of its exponents, and an exponent has one if it
is finite.  So a dimension has a text if all of its exponents are finite, and else the first one
that is not is what it fails with (`unitText_eq_error_iff`).
-/

namespace Dimensional

open Fallible

namespace Exponents

/-- The error of an exponent that is not finite and has to be written. -/
def unwritable (x : Float) : Error :=
  .conversion (if x.isNaN then .nanToInteger else .infinityToInteger)

theorem exponentText_of_isFinite {x : Float} (h : x.isFinite = true) :
    ∃ text, exponentText x = .ok text := by
  rw [← Decimal.isSome_magnitude?] at h
  obtain ⟨v, hv⟩ := Option.isSome_iff_exists.1 h
  rw [exponentText, Decimal.nearestInt?, hv]
  exact ⟨_, rfl⟩

theorem exponentText_of_not_isFinite {x : Float} (h : x.isFinite = false) :
    exponentText x = .error (unwritable x) := by
  rw [← Decimal.isSome_magnitude?, Option.isSome_eq_false_iff, Option.isNone_iff_eq_none] at h
  rw [exponentText, Decimal.nearestInt?, h]
  rfl

/-- An exponent that is not finite is written without its sign, and is not left out.  That it is
not left out is a matter of comparison: neither infinity nor NaN is below the limit. -/
theorem factors_cons_of_not_isFinite {symbol : String} {x : Float} (h : x.isFinite = false)
    (rest : List (String × Float)) : factors ((symbol, x) :: rest) = .error (unwritable x) := by
  obtain ⟨hfinite, hnan⟩ := Decimal.status_abs x
  rw [factors, if_neg (Decimal.not_abs_lt h negligible), factorText,
    exponentText_of_not_isFinite (hfinite.trans h), unwritable, hnan]
  rfl

theorem factors_cases (axes : List (String × Float)) :
    (∃ parts, factors axes = .ok parts ∧ axes.find? (!·.2.isFinite) = none) ∨
      ∃ axis, axes.find? (!·.2.isFinite) = some axis ∧
        factors axes = .error (unwritable axis.2) := by
  induction axes with
  | nil => exact .inl ⟨_, rfl, rfl⟩
  | cons axis rest ih =>
    obtain ⟨symbol, x⟩ := axis
    -- The first exponent that is not finite ends the pass; a finite one has a text or is left
    -- out.
    cases hx : x.isFinite with
    | false =>
      refine .inr ⟨(symbol, x), ?_, factors_cons_of_not_isFinite hx rest⟩
      simp [hx]
    | true =>
      have hfind : ((symbol, x) :: rest).find? (!·.2.isFinite) = rest.find? (!·.2.isFinite) := by
        simp [hx]
      rw [hfind, factors]
      split
      · exact ih
      · obtain ⟨text, htext⟩ := exponentText_of_isFinite ((Decimal.status_abs x).1.trans hx)
        rw [factorText, htext]
        rcases ih with ⟨⟨above, below⟩, hparts, hnone⟩ | ⟨axis, haxis, herror⟩
        · refine .inl ?_
          rw [hparts]
          exact ⟨_, rfl, hnone⟩
        · refine .inr ⟨axis, haxis, ?_⟩
          rw [herror]
          rfl

end Exponents

theorem find?_zip_baseUnits (d : Dimension) :
    ((Exponents.baseUnits.zip d.exponents).find? (!·.2.isFinite)).map Prod.snd =
      d.exponents.find? (!·.isFinite) := by
  have hexponents : (Exponents.baseUnits.zip d.exponents).map Prod.snd = d.exponents :=
    List.map_snd_zip (Nat.le_of_eq d.length_eq)
  calc ((Exponents.baseUnits.zip d.exponents).find? (!·.2.isFinite)).map Prod.snd
      = ((Exponents.baseUnits.zip d.exponents).map Prod.snd).find? (!·.isFinite) := by
        rw [List.find?_map]
        rfl
    _ = d.exponents.find? (!·.isFinite) := by rw [hexponents]

/-- **A dimension is written unless an exponent is not finite**, and it fails with the first of
these. -/
theorem unitText_eq_error_iff (d : Dimension) (e : Error) :
    d.unitText = .error e ↔
      ∃ x, d.exponents.find? (!·.isFinite) = some x ∧ e = Exponents.unwritable x := by
  rw [← find?_zip_baseUnits, Dimension.unitText, Exponents.unitText]
  rcases Exponents.factors_cases (Exponents.baseUnits.zip d.exponents) with
    ⟨⟨above, below⟩, hparts, hnone⟩ | ⟨axis, haxis, herror⟩
  · rw [hparts, hnone]
    simp [bind, Except.bind, pure, Except.pure]
  · rw [herror, haxis]
    simp [bind, Except.bind, eq_comm]

end Dimensional
