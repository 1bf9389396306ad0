import Dimensional.Datum.Number
import Dimensional.Error
import Dimensional.Table

/-!
# Dimensions

A dimension gives one exponent to each of eight base quantities: mass, length, time, temperature,
amount of substance, electric current, luminous intensity and currency.  Exponents are floats, so
that roots stay within the algebra; currency is kept apart so that money is never added to a
physical quantity.

The operations are defined on lists of exponents of any length, where pairs end with the shorter
list, and lifted to `Dimension`, whose lists all have eight entries.
-/

namespace Dimensional

/-! ### Lists of exponents -/

/-- One exponent per base quantity. -/
abbrev Exponents := List Float

namespace Exponents

def baseNames : List String :=
  ["mass", "length", "time", "temperature", "amount", "current", "luminous", "currency"]

def baseUnits : List String := ["kg", "m", "s", "K", "mol", "A", "cd", "USD"]

def baseSymbols : List String := ["M", "L", "T", "Θ", "N", "I", "J", "$"]

def add (a b : Exponents) : Exponents := a.zipWith (· + ·) b

def sub (a b : Exponents) : Exponents := a.zipWith (· - ·) b

def scale (a : Exponents) (factor : Float) : Exponents := a.map (· * factor)

/-- Do the exponents agree pairwise to less than `tolerance`? -/
def agree (tolerance : Float) (a b : Exponents) : Bool :=
  (a.zip b).all fun (x, y) => decide ((x - y).abs < tolerance)

def isZero (tolerance : Float) (a : Exponents) : Bool :=
  a.all fun x => decide (x.abs < tolerance)

@[simp] theorem length_add (a b : Exponents) : (a.add b).length = min a.length b.length := by
  simp [add]

@[simp] theorem length_sub (a b : Exponents) : (a.sub b).length = min a.length b.length := by
  simp [sub]

@[simp] theorem length_scale (a : Exponents) (x : Float) : (a.scale x).length = a.length := by
  simp [scale]

end Exponents

/-! ### Dimensions -/

/-- The exponents of the eight base quantities. -/
structure Dimension where
  exponents : Exponents
  length_eq : exponents.length = 8 := by rfl

namespace Dimension

@[ext] theorem ext {a b : Dimension} (h : a.exponents = b.exponents) : a = b := by
  obtain ⟨xs, hx⟩ := a
  obtain ⟨ys, hy⟩ := b
  cases h
  rfl

/-- A dimension from its exponents; there must be eight. -/
def ofExponents (xs : Exponents) : Except Error Dimension :=
  if h : xs.length = 8 then .ok ⟨xs, h⟩
  else .error (.evaluation (.exponentCount xs.length))

def ofData (items : List Datum) : Except Error Dimension := do
  ofExponents (← Datum.toFloats items)

/-- A dimension from a value that can be taken apart into its exponents. -/
def ofDatum (d : Datum) : Except Error Dimension :=
  match d.members? with
  | some items => ofData items
  | none => .error (.conversion (.notIterable d.sortName))

def one : Dimension := ⟨[0, 0, 0, 0, 0, 0, 0, 0], rfl⟩

def mul (a b : Dimension) : Dimension :=
  ⟨a.exponents.add b.exponents, by simp [a.length_eq, b.length_eq]⟩

def div (a b : Dimension) : Dimension :=
  ⟨a.exponents.sub b.exponents, by simp [a.length_eq, b.length_eq]⟩

def pow (a : Dimension) (x : Float) : Dimension :=
  ⟨a.exponents.scale x, by simp [a.length_eq]⟩

instance : Mul Dimension := ⟨mul⟩
instance : Div Dimension := ⟨div⟩

def agree (tolerance : Float) (a b : Dimension) : Bool := a.exponents.agree tolerance b.exponents

def isOne (tolerance : Float) (a : Dimension) : Bool := a.exponents.isZero tolerance

/-- Exponents make a dimension exactly if there are eight. -/
theorem ofExponents_eq_ok_iff {xs : Exponents} {d : Dimension} :
    ofExponents xs = .ok d ↔ d.exponents = xs := by
  unfold ofExponents
  split
  · simp only [Except.ok.injEq]
    constructor
    · rintro rfl; rfl
    · rintro rfl; rfl
  · next h =>
    simp only [reduceCtorEq, false_iff]
    rintro rfl
    exact h d.length_eq

/-- The values that are named for base quantities, all others zero; every name must be known. -/
def ofAxes (axes : Table Datum) : Except Error Dimension :=
  match axes.names.find? (· ∉ Exponents.baseNames) with
  | some name => .error (.conversion (.unknownAxis name))
  | none => ofData (Exponents.baseNames.map fun name => (axes.find? name).getD (.int 0))

/-! ### Named dimensions -/

def mass : Dimension := ⟨[1, 0, 0, 0, 0, 0, 0, 0], rfl⟩
def length : Dimension := ⟨[0, 1, 0, 0, 0, 0, 0, 0], rfl⟩
def time : Dimension := ⟨[0, 0, 1, 0, 0, 0, 0, 0], rfl⟩
def temperature : Dimension := ⟨[0, 0, 0, 1, 0, 0, 0, 0], rfl⟩
def amount : Dimension := ⟨[0, 0, 0, 0, 1, 0, 0, 0], rfl⟩
def current : Dimension := ⟨[0, 0, 0, 0, 0, 1, 0, 0], rfl⟩
def luminous : Dimension := ⟨[0, 0, 0, 0, 0, 0, 1, 0], rfl⟩
def currency : Dimension := ⟨[0, 0, 0, 0, 0, 0, 0, 1], rfl⟩

def area : Dimension := length.pow 2
def volume : Dimension := length.pow 3
def velocity : Dimension := length / time
def force : Dimension := ⟨[1, 1, -2, 0, 0, 0, 0, 0], rfl⟩
def pressure : Dimension := force / area
def energy : Dimension := force * length
def power : Dimension := energy / time
def massFlow : Dimension := mass / time

end Dimension

end Dimensional
