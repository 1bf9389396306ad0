import Dimensional.Decimal.Significant
import Dimensional.Dimension.Text

/-!
# Quantities

A quantity is a number in base units together with its dimension.  Bindings and look-ups may also
supply a pair of a value and exponents (`Item.toQuantity`).
-/

namespace Dimensional

/-- A number in base units and its dimension. -/
structure Quantity where
  value : Float
  dims : Dimension

namespace Quantity

def scalar (x : Float) : Quantity := ⟨x, .one⟩

def ofData (value : Datum) (exponents : List Datum) : Except Error Quantity := do
  return ⟨← value.toFloat, ← Dimension.ofData exponents⟩

/-- Are number and exponents equal as floats? -/
def equal (a b : Quantity) : Bool :=
  a.value == b.value && a.dims.exponents == b.dims.exponents

/-- The number with six significant digits and, unless it is a pure number, its dimension. -/
def text (tolerance : Float) (q : Quantity) : Except Error String := do
  let number := Decimal.general q.value
  if q.dims.isOne tolerance then return number
  else return number ++ " [" ++ (← q.dims.unitText) ++ "]"

end Quantity

/-! ### Items -/

/-- What a name may be bound to, and what a look-up may return. -/
inductive Item where
  | quantity (q : Quantity)
  | tuple (members : List Datum)
  | datum (d : Datum)

namespace Item

def sortName : Item → String
  | .quantity _ => "Quantity"
  | .tuple _ => "tuple"
  | .datum d => d.sortName

/-- Refuses a pair.  The message shows the pair, so a member that cannot be written out takes the
place of the refusal as an error of its own. -/
def refusePair (value dims : Datum) : Error :=
  if Datum.areWritable [value, dims] then .evaluation (.invalidPair value dims)
  else .conversion .tooLong

/-- A quantity from a value and exponents.  Values that are no numbers make the pair invalid, but a
number beyond the range of the floats is an error of its own. -/
def ofPair (value dims : Datum) (exponents : List Datum) : Except Error Quantity :=
  match Quantity.ofData value exponents with
  | .error (.conversion .tooLarge) => .error (.conversion .tooLarge)
  | .error (.conversion _) => .error (refusePair value dims)
  | result => result

def toQuantity : Item → Except Error Quantity
  | .quantity q => .ok q
  | .tuple [value, dims] =>
    match dims.members? with
    | some exponents => ofPair value dims exponents
    | none => .error (.evaluation (.notQuantity "tuple"))
  | item => .error (.evaluation (.notQuantity item.sortName))

@[simp] theorem toQuantity_quantity (q : Quantity) : (Item.quantity q).toQuantity = .ok q := rfl

end Item

end Dimensional
