import Dimensional.Decimal.Numeral
import Dimensional.Error

/-!
# The tokens of unit expressions

A unit expression in its normal spelling falls into operators, parentheses, numbers and names of
units.  Digits right after a name are an exponent: `m2` has the tokens of `m^2`.  A sign belongs to
a number, and is allowed only right after `^` or `^(`.
-/

namespace Dimensional.MeasureUnit

inductive Lexeme where
  | times
  | over
  | power
  | opens
  | closes
  | number (x : Float)
  | name (s : String)

/-- A part of a unit expression and the place where it starts. -/
structure Token where
  lexeme : Lexeme
  position : Nat

namespace Token

/-- Where a number may carry a sign: right behind a power sign, and right behind a parenthesis
that stands behind one. -/
inductive SignPlace where
  | afterPower
  | insidePower
  | elsewhere
  deriving DecidableEq

def SignPlace.next : SignPlace → Lexeme → SignPlace
  | _, .power => .afterPower
  | .afterPower, .opens => .insidePower
  | _, _ => .elsewhere

def mark? : Char → Option Lexeme
  | '*' => some .times
  | '/' => some .over
  | '^' => some .power
  | '(' => some .opens
  | ')' => some .closes
  | _ => none

def isNameChar (c : Char) : Bool :=
  c = '$' || (Character.isAlphanumeric c && !Character.isDecimalDigit c)

/-- The number that digits of any script spell, with a point after the first of them. -/
def numeral (negative : Bool) (whole fraction : List Char) : Decimal.Numeral :=
  ⟨negative, Decimal.ofPlaceValues ((whole ++ fraction).filterMap Character.decimalDigit?),
    -(fraction.length : Int)⟩

/-- A lexeme and the number of characters that spell it. -/
abbrev Part := Lexeme × Nat

def width : List Part → Nat
  | [] => 0
  | part :: rest => part.2 + width rest

/-- Takes a number without a sign off the front of a text. -/
def takeNumber? (negative : Bool) (cs : List Char) : Option (Part × List Char) :=
  let whole := cs.takeWhile Character.isDecimalDigit
  match cs.dropWhile Character.isDecimalDigit with
  | '.' :: rest =>
    let fraction := rest.takeWhile Character.isDecimalDigit
    if whole.isEmpty && fraction.isEmpty then none
    else
      some ((.number (numeral negative whole fraction).toFloat,
          whole.length + 1 + fraction.length),
        rest.dropWhile Character.isDecimalDigit)
  | rest =>
    if whole.isEmpty then none
    else some ((.number (numeral negative whole []).toFloat, whole.length), rest)

/-- Takes a name off the front of a text that starts with one: the name, and its exponent where
digits follow.  The power sign between them is not spelled out. -/
def takeName (cs : List Char) : List Part × List Char :=
  let name := cs.takeWhile isNameChar
  let rest := cs.dropWhile isNameChar
  let exponent := rest.takeWhile Character.isDecimalDigit
  let suffix : List Part :=
    if exponent.isEmpty then []
    else [(.power, 0), (.number (numeral false exponent []).toFloat, exponent.length)]
  ((.name (String.ofList name), name.length) :: suffix, rest.dropWhile Character.isDecimalDigit)

/-- Takes the first part off a text that is not empty; a name with an exponent is three. -/
def take (place : SignPlace) (c : Char) (rest : List Char) :
    Except ParseFault (List Part × List Char) :=
  match mark? c, takeNumber? false (c :: rest) with
  | some lexeme, _ => .ok ([(lexeme, 1)], rest)
  | none, some (number, rest) => .ok ([number], rest)
  | none, none =>
    -- No mark and no number, so a sign here is one that a number might carry.
    if c = '+' ∨ c = '-' then
      match takeNumber? (c = '-') rest with
      | some ((number, digits), rest) =>
        -- The number is taken before the place is checked: a sign without a number is a different
        -- error.
        if place = .elsewhere then .error (.unexpectedUnitSign c)
        else .ok ([(number, digits + 1)], rest)
      | none => .error (.unexpectedUnitCharacter c)
    else if isNameChar c then .ok (takeName (c :: rest))
    else .error (.unexpectedUnitCharacter c)

/-! ### Parts are as wide as what they are taken from

Positions of tokens are sums of widths, and the recursion of the scan is on what is left of the
text.  One fact serves both: the width of what was taken and the length of what is left add up to
the length of the text. -/

theorem length_takeWhile_add (p : Char → Bool) (cs : List Char) :
    (cs.takeWhile p).length + (cs.dropWhile p).length = cs.length := by
  rw [← List.length_append, List.takeWhile_append_dropWhile]

theorem width_of_takeNumber? {negative : Bool} {cs rest : List Char} {part : Part}
    (h : takeNumber? negative cs = some (part, rest)) :
    0 < part.2 ∧ part.2 + rest.length = cs.length := by
  have hcs := length_takeWhile_add Character.isDecimalDigit cs
  unfold takeNumber? at h
  simp only at h
  split at h
  · next tail heq =>
    have htail := length_takeWhile_add Character.isDecimalDigit tail
    rw [heq, List.length_cons] at hcs
    split at h
    · cases h
    · cases h
      simp only
      omega
  · split at h
    · cases h
    · next hne =>
      cases h
      exact ⟨List.length_pos_iff.2 (by simpa using hne), hcs⟩

theorem width_takeName {c : Char} {rest : List Char} (h : isNameChar c = true) :
    0 < width (takeName (c :: rest)).1 ∧
      width (takeName (c :: rest)).1 + (takeName (c :: rest)).2.length = (c :: rest).length := by
  have hname := length_takeWhile_add isNameChar (c :: rest)
  have hexp := length_takeWhile_add Character.isDecimalDigit ((c :: rest).dropWhile isNameChar)
  have hpos : 0 < ((c :: rest).takeWhile isNameChar).length := by simp [h]
  unfold takeName
  simp only [width]
  split
  · next hempty =>
    rw [List.isEmpty_iff] at hempty
    simp only [hempty, List.length_nil] at hexp
    simp only [width]
    omega
  · simp only [width]
    omega

/-- A part is at least one character wide, and with what is left it makes up the text. -/
theorem width_of_take {place : SignPlace} {c : Char} {rest tail : List Char} {parts : List Part}
    (h : take place c rest = .ok (parts, tail)) :
    0 < width parts ∧ width parts + tail.length = (c :: rest).length := by
  unfold take at h
  split at h
  · cases h
    simp only [width, List.length_cons]
    omega
  · next hnum =>
    cases h
    simpa [width] using width_of_takeNumber? hnum
  · split at h
    · split at h
      · next hnum =>
        have hwidth := width_of_takeNumber? hnum
        split at h <;> cases h
        simp only [width, List.length_cons] at hwidth ⊢
        omega
      · cases h
    · split at h
      · next hname =>
        cases h
        exact width_takeName hname
      · cases h

/-! ### The whole text -/

def placed (position : Nat) : List Part → List Token
  | [] => []
  | (lexeme, size) :: rest => ⟨lexeme, position⟩ :: placed (position + size) rest

/-- The tokens of a text of which a part is left, from `position` on. -/
def scanFrom (text : String) (place : SignPlace) (position : Nat) :
    List Char → Except Error (List Token)
  | [] => .ok []
  | c :: rest =>
    match h : take place c rest with
    | .error fault => .error (.parse fault text (some position))
    | .ok (parts, tail) =>
      -- A name with an exponent is three parts; the place behind it is that behind the last.
      let place := parts.foldl (fun place part => place.next part.1) place
      have := width_of_take h
      (scanFrom text place (position + width parts) tail).map (placed position parts ++ ·)
termination_by cs => cs.length
decreasing_by omega

def scan (cs : List Char) : Except Error (List Token) :=
  scanFrom (String.ofList cs) .elsewhere 0 cs

end Token

end Dimensional.MeasureUnit
