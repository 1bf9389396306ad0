import Dimensional.Character.Blank
import Dimensional.Character.Digit

/-!
# Classes of characters side by side

A run of characters of one class ends where a character of another stands
(`takeWhile_dropWhile_append`).  Whether two tables of code points have one in common is decided by
a walk along both (`Intervals.apart`): letters are no digits, and blanks are neither letters nor
numerals.
-/

namespace Dimensional

/-! ### Runs of a class -/

section

variable {α : Type} {p : α → Bool} {ys : List α}

/-- What satisfies a condition from the start of a list on goes on behind the list only if the next
element satisfies it, too. -/
theorem takeWhile_dropWhile_append_stop (xs : List α) (hys : ∀ y ∈ ys.head?, p y = false) :
    (xs ++ ys).takeWhile p = xs.takeWhile p ∧ (xs ++ ys).dropWhile p = xs.dropWhile p ++ ys := by
  induction xs with
  | nil =>
    cases ys with
    | nil => exact ⟨rfl, rfl⟩
    | cons y ys => simp [hys y rfl]
  | cons x xs ih => cases hx : p x <;> simp [hx, ih]

/-- Where a list stops to satisfy a condition it falls into two.  The part in front is given, as
it is in a text that is put together from parts. -/
theorem takeWhile_dropWhile_append {xs : List α} (hxs : ∀ x ∈ xs, p x = true)
    (hys : ∀ y ∈ ys.head?, p y = false) :
    (xs ++ ys).takeWhile p = xs ∧ (xs ++ ys).dropWhile p = ys := by
  rw [List.takeWhile_append_of_pos hxs, List.dropWhile_append_of_pos hxs]
  simpa using takeWhile_dropWhile_append_stop [] hys

end

/-! ### Tables of code points

That two tables have no code point in common is decided once for the tables and not for each
character.  The walk along both is linear because the intervals of a table ascend. -/

namespace Intervals

/-- No interval of one table meets one of the other.  What ends before the next interval of `ys`
starts is left behind. -/
def apart (xs : Intervals) : Intervals → Bool
  | [] => true
  | j :: ys =>
    let rest := xs.dropWhile (·.2 < j.1)
    rest.head?.all (j.2 < ·.1) && apart rest ys

/-- A code point is not looked up in intervals that end before it. -/
theorem contains_dropWhile {xs : Intervals} {first n : Nat} (hn : first ≤ n)
    (h : xs.contains n = true) : Intervals.contains (xs.dropWhile (·.2 < first)) n = true := by
  induction xs with
  | nil => cases h
  | cons i xs ih =>
    rw [List.dropWhile_cons]
    -- What ends before `first` cannot hold `n`.
    split
    · next hlast =>
      have hlast : i.2 < first := of_decide_eq_true hlast
      rw [contains, if_neg (by omega : ¬n ≤ i.2)] at h
      split at h
      · cases h
      · exact ih h
    · exact h

/-- What is in one of two tables apart is not in the other. -/
theorem not_contains_of_apart {xs ys : Intervals} (hapart : xs.apart ys = true) {n : Nat}
    (h : xs.contains n = true) : ys.contains n = false := by
  -- The walk goes along `ys`; what is left of `xs` changes with it.
  induction ys generalizing xs with
  | nil => rfl
  | cons j ys ih =>
    rw [apart, Bool.and_eq_true] at hapart
    obtain ⟨hhead, hapart⟩ := hapart
    rw [contains]
    split
    · rfl
    · next hfirst =>
      have hrest := contains_dropWhile (Nat.le_of_not_lt hfirst) h
      split
      · next hlast =>
        -- The first interval that does not end before `j` starts behind it.
        generalize xs.dropWhile (·.2 < j.1) = rest at *
        cases rest with
        | nil => cases hrest
        | cons i rest =>
          have hi : j.2 < i.1 := of_decide_eq_true hhead
          rw [contains, if_pos (by omega)] at hrest
          cases hrest
      · exact ih hapart hrest

end Intervals

namespace Character

/-- Decimal digits lie in runs of ten. -/
theorem isSome_placeValue? (zeros : List Nat) (n : Nat) :
    (placeValue? zeros n).isSome =
      Intervals.contains (zeros.map fun first => (first, first + 9)) n := by
  induction zeros with
  | nil => rfl
  | cons first rest ih =>
    rw [placeValue?, List.map_cons, Intervals.contains]
    split
    · rfl
    · split
      · rw [if_pos (by omega)]
        rfl
      · rw [if_neg (by omega), ih]

section

variable {table : Intervals} {c : Char}

/-- A table apart from both tables of digits has no digit in it. -/
theorem not_isDigit_of_contains
    (hdecimal : table.apart (decimalZeros.map fun first => (first, first + 9)) = true)
    (hsigns : table.apart digitSigns = true) (h : table.contains c.toNat = true) :
    isDigit c = false := by
  rw [isDigit, isDecimalDigit, decimalDigit?, isSome_placeValue?,
    Intervals.not_contains_of_apart hdecimal h, Intervals.not_contains_of_apart hsigns h]
  rfl

theorem not_isAlphanumeric_of_contains (hletters : table.apart letters = true)
    (hnumerals : table.apart numerals = true) (h : table.contains c.toNat = true) :
    isAlphanumeric c = false := by
  rw [isAlphanumeric, isLetter, Intervals.not_contains_of_apart hletters h,
    Intervals.not_contains_of_apart hnumerals h]
  rfl

end

variable {c : Char}

/-- Letters are no digits. -/
theorem not_isDigit_of_isLetter (h : isLetter c = true) : isDigit c = false :=
  not_isDigit_of_contains (by decide +kernel) (by decide +kernel) h

/-- The two tables that blanks are in. -/
theorem contains_of_isBlank (h : isBlank c = true) :
    spaces.contains c.toNat = true ∨ Intervals.contains [(0x1c, 0x1f)] c.toNat = true := by
  rw [isBlank, Bool.or_eq_true, Bool.and_eq_true, decide_eq_true_eq, decide_eq_true_eq] at h
  refine h.imp_right fun ⟨hfirst, hlast⟩ => ?_
  rw [Intervals.contains, if_neg (Nat.not_lt.2 hfirst), if_pos hlast]

/-- Blanks are no digits. -/
theorem not_isDigit_of_isBlank (h : isBlank c = true) : isDigit c = false := by
  rcases contains_of_isBlank h with h | h
  · exact not_isDigit_of_contains (by decide +kernel) (by decide +kernel) h
  · exact not_isDigit_of_contains (by decide +kernel) (by decide +kernel) h

/-- Blanks are neither letters nor numerals. -/
theorem not_isAlphanumeric_of_isBlank (h : isBlank c = true) : isAlphanumeric c = false := by
  rcases contains_of_isBlank h with h | h
  · exact not_isAlphanumeric_of_contains (by decide +kernel) (by decide +kernel) h
  · exact not_isAlphanumeric_of_contains (by decide +kernel) (by decide +kernel) h

end Character

end Dimensional
