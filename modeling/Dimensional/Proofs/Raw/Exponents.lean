import Dimensional.Dimension.Basic
import Mathlib.Data.List.Zip

/-!
# Exponents of any number

The operations on exponents take lists of any length.  Two lists are gone through in pairs, so that
of lists of different length some exponents would be overlooked.  What then becomes of the others,
and what a quantity or a unit makes of more or fewer than eight exponents, is left open here
(`Handling`).  All that is asked for is that eight exponents are taken as they are (`Sound`).

On the exponents of dimensions every sound handling does what dimensions do (`add_exponents`,
`sub_exponents`, `agree_exponents`).
-/

namespace Dimensional.Exponents

/-- How exponents are dealt with that may be of any number. -/
structure Handling where
  /-- What a new quantity or unit makes of its exponents. -/
  accept : Exponents → Except Error Exponents
  /-- The pairs that a product, a quotient or a comparison goes through. -/
  pairs : Exponents → Exponents → Except Error (List (Float × Float))

namespace Handling

/-- Eight exponents are taken as they are, and paired one by one.  Nothing is asked of a handling
for other numbers of exponents: it may refuse, cut off, or make up what is missing. -/
structure Sound (h : Handling) : Prop where
  accept_eq {xs : Exponents} : xs.length = 8 → h.accept xs = .ok xs
  pairs_eq {xs ys : Exponents} : xs.length = 8 → ys.length = 8 → h.pairs xs ys = .ok (xs.zip ys)

/-- Other numbers of exponents than eight are refused, and pairs end with the shorter list. -/
def checked : Handling where
  accept xs := (Dimension.ofExponents xs).map (·.exponents)
  pairs xs ys := .ok (xs.zip ys)

/-- Any number of exponents is accepted, but pairs of lists of different length are refused.  So
an exponent that is left over would show. -/
def strict : Handling where
  accept xs := .ok xs
  pairs xs ys :=
    if xs.length = ys.length then .ok (xs.zip ys)
    else .error (.stated "exponents are left over")

theorem sound_checked : checked.Sound where
  accept_eq {xs} hxs := by
    show (Dimension.ofExponents xs).map (·.exponents) = .ok xs
    rw [Dimension.ofExponents, dif_pos hxs]
    rfl
  pairs_eq _ _ := rfl

theorem sound_strict : strict.Sound where
  accept_eq _ := rfl
  pairs_eq hxs hys := if_pos (hxs.trans hys.symm)

variable (h : Handling)

def add (a b : Exponents) : Except Error Exponents :=
  (h.pairs a b).map (·.map fun pair => pair.1 + pair.2)

def sub (a b : Exponents) : Except Error Exponents :=
  (h.pairs a b).map (·.map fun pair => pair.1 - pair.2)

def agree (tolerance : Float) (a b : Exponents) : Except Error Bool :=
  (h.pairs a b).map (·.all fun pair => decide ((pair.1 - pair.2).abs < tolerance))

variable {h}

theorem Sound.accept_exponents (hs : h.Sound) (d : Dimension) :
    h.accept d.exponents = .ok d.exponents :=
  hs.accept_eq d.length_eq

theorem Sound.pairs_exponents (hs : h.Sound) (a b : Dimension) :
    h.pairs a.exponents b.exponents = .ok (a.exponents.zip b.exponents) :=
  hs.pairs_eq a.length_eq b.length_eq

theorem Sound.add_exponents (hs : h.Sound) (a b : Dimension) :
    h.add a.exponents b.exponents = .ok (a * b).exponents := by
  rw [add, hs.pairs_exponents]
  exact congrArg Except.ok List.map_zip_eq_zipWith

theorem Sound.sub_exponents (hs : h.Sound) (a b : Dimension) :
    h.sub a.exponents b.exponents = .ok (a / b).exponents := by
  rw [sub, hs.pairs_exponents]
  exact congrArg Except.ok List.map_zip_eq_zipWith

theorem Sound.agree_exponents (hs : h.Sound) (tolerance : Float) (a b : Dimension) :
    h.agree tolerance a.exponents b.exponents = .ok (a.agree tolerance b) := by
  rw [agree, hs.pairs_exponents]
  rfl

end Handling

end Dimensional.Exponents
