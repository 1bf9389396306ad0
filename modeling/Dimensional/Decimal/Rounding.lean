/-!
# Rounding a quotient

`roundHalfEven num den` is the natural number nearest to `num / den`; a quotient half-way between
two numbers goes to the even one.
-/

namespace Dimensional.Decimal

/-- The natural number nearest to `num / den`, the even one of two that are equally near. -/
def roundHalfEven (num den : Nat) : Nat :=
  let below := num / den
  let excess := 2 * (num % den)
  if excess < den then below
  else if excess > den then below + 1
  else if below % 2 = 0 then below
  else below + 1

/-- A number of base-ten digits is at least one; zero has one digit. -/
def digitCount (n : Nat) : Nat := (Nat.toDigits 10 n).length

/-- The greatest `k` with `10 ^ k ≤ num / den`, for positive `num` and `den`.  At or above one
the digits of the whole part are counted, below one those of the reciprocal; a reciprocal that
is itself a power of ten belongs to the next greater `k`. -/
def decade (num den : Nat) : Int :=
  if den ≤ num then digitCount (num / den) - 1
  else
    let k := digitCount (den / num)
    if den ≤ num * Nat.pow 10 (k - 1) then -(k - 1 : Nat) else -(k : Int)

def scaleDown (num den : Nat) : Int → Nat × Nat
  | .ofNat power => (num, den * Nat.pow 10 power)
  | .negSucc power => (num * Nat.pow 10 (power + 1), den)

end Dimensional.Decimal
