import Dimensional.MeasureUnit.Parse
import Dimensional.Quantity
import Dimensional.Table

/-!
# Contexts

A formula is evaluated in a context, which supplies what its names stand for.  Most contexts hold a
table of bindings; others ask a function, which may answer with any item or fail with any error.
-/

namespace Dimensional

abbrev Bindings := Table Quantity

namespace Bindings

def lookup (b : Bindings) (name : String) : Except Error Quantity :=
  match b.find? name with
  | some q => .ok q
  | none => .error (.unknownSymbol name)

def ofItems (items : Table Item) : Except Error Bindings := do
  return ⟨← Table.mapEntries (fun _ item => item.toQuantity) items.entries⟩

def bind (b : Bindings) (name : String) (item : Item) : Except Error Bindings := do
  return b.insert name (← item.toQuantity)

/-- The quantity of `value` units. -/
def measured (value : Datum) (given : Option String) : Except Error Quantity := do
  let unit ← MeasureUnit.parseGiven given
  return ⟨(← value.toFloat) * unit.scale, unit.dims⟩

/-- The bindings of plain values that are measured in units.  A name without a unit is a pure
number; every name is bound with `qualifier` in front of it. -/
def ofValues (qualifier : String) (units : Table (Option String)) (values : Table Datum) :
    Except Error Bindings := do
  let entries ← Table.mapEntries (fun name value => measured value (units.find? name).join)
    values.entries
  return ⟨entries.map fun entry => (qualifier ++ entry.1, entry.2)⟩

@[simp] theorem lookup_insert (b : Bindings) (name other : String) (q : Quantity) :
    lookup (b.insert name q) other = if other = name then .ok q else b.lookup other := by
  by_cases h : other = name <;> simp [lookup, h]

end Bindings

/-- Where a formula's names are looked up.  Only a table is known to supply quantities; functions
may answer with anything, and those two sorts differ in when the answer is made a quantity. -/
inductive Context where
  /-- A table of quantities. -/
  | table (bindings : Bindings)
  /-- A function whose answers are made quantities as it gives them. -/
  | adapted (f : String → Except Error Item)
  /-- A function whose answers are taken as they come. -/
  | bare (f : String → Except Error Item)
  /-- Something in which nothing can be looked up. -/
  | unusable

namespace Context

def lookup? : Context → Option (String → Except Error Item)
  | .table b => some fun name => (b.lookup name).map .quantity
  | .adapted f => some fun name => do return .quantity (← (← f name).toQuantity)
  | .bare f => some f
  | .unusable => none

end Context

end Dimensional
