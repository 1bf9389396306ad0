import Dimensional.Character.Case
import Dimensional.MeasureUnit.Catalogue

/-!
# Reading a unit's name

A name stands for the unit that is listed under it, or under it regardless of case, or else for a
multiple: a prefix followed by the name of a unit.
-/

namespace Dimensional.MeasureUnit

/-- A name as it is compared regardless of case.  Characters without a lower-case form in ASCII
stay. -/
def fold (name : String) : String := String.ofList (name.toList.map Character.lower)

def foldedCatalogue : List (String × MeasureUnit) :=
  catalogue.map fun entry => (fold entry.1, entry.2)

/-- The unit that is listed under a name, if need be regardless of case.  A name that is spelled
exactly wins, so names that differ only in case could both be listed. -/
def listed? (name : String) : Option MeasureUnit :=
  (catalogue.lookup name).or (foldedCatalogue.lookup (fold name))

/-- The unit of which the name is the multiple with this prefix; the prefix alone is no name. -/
def base? (pre name : String) : Option MeasureUnit :=
  match pre.toList.isPrefixOf? name.toList with
  | none | some [] => none
  | some rest => listed? (String.ofList rest)

def multiple? (name : String) : Option MeasureUnit :=
  multiples.findSome? fun (pre, factor) =>
    (base? pre name).map fun unit => ⟨unit.scale * factor, unit.dims, name⟩

def ofName (name : String) : Except Error MeasureUnit :=
  match (listed? name).or (multiple? name) with
  | some unit => .ok unit
  | none => .error (.unknownUnit name "")

end Dimensional.MeasureUnit
