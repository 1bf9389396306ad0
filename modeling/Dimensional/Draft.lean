import Dimensional.Context

/-!
# Drafts

What callers describe before it is built: items, bindings and contexts.  Building may fail, and
drafts make it plain in which order things are built: all items first, then the quantities.
-/

namespace Dimensional

/-- An item that is still to be built. -/
inductive ItemDraft where
  | quantity (value : Datum) (exponents : List Datum)
  | tuple (members : List Datum)
  | datum (d : Datum)

def ItemDraft.build : ItemDraft → Except Error Item
  | .quantity value exponents => (Quantity.ofData value exponents).map .quantity
  | .tuple members => .ok (.tuple members)
  | .datum d => .ok (.datum d)

def ItemDraft.buildAll (drafts : List (String × ItemDraft)) : Except Error (Table Item) := do
  return Table.ofList (← Table.mapEntries (fun _ draft => draft.build) drafts)

inductive BindingsDraft where
  | items (drafts : List (String × ItemDraft))
  | values (qualifier : String) (units : List (String × Option String))
      (plain : List (String × Datum))

def BindingsDraft.build : BindingsDraft → Except Error Bindings
  | .items drafts => do Bindings.ofItems (← ItemDraft.buildAll drafts)
  | .values qualifier units plain =>
    Bindings.ofValues qualifier (Table.ofList units) (Table.ofList plain)

inductive ContextDraft where
  | table (bindings : BindingsDraft)
  | adapted (drafts : List (String × ItemDraft))
  | bare (drafts : List (String × ItemDraft))
  | unusable

/-- The function that answers with the items of a table, and with nothing for other names. -/
def answers (items : Table Item) (name : String) : Except Error Item :=
  .ok ((items.find? name).getD (.datum .null))

def ContextDraft.build : ContextDraft → Except Error Context
  | .table bindings => bindings.build.map .table
  | .adapted drafts => (ItemDraft.buildAll drafts).map fun items => .adapted (answers items)
  | .bare drafts => (ItemDraft.buildAll drafts).map fun items => .bare (answers items)
  | .unusable => .ok .unusable

end Dimensional
