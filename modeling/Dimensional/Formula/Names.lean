import Dimensional.Formula.Basic

/-!
# Names under prefixes

Names are kept apart by the prefixes they start with.  Before a formula is evaluated it can be
checked that it uses no other names, and asked which names under a prefix it needs.
-/

namespace Dimensional.Formula

/-- The prefixes that a formula may use unless others are given. -/
def defaultNamespaces : List String := ["x.", "param.", "result.", "derived."]

def startsWith (name pre : String) : Bool := pre.toList.isPrefixOf name.toList

/-- Checks that every name starts with one of the allowed prefixes. -/
def validateNames (f : Formula) (allowed : List String) (label : String) : Except Error PUnit :=
  match f.names.find? fun name => !allowed.any (startsWith name) with
  | some name => .error (.invalidIdentifier label name allowed)
  | none => .ok ⟨⟩

/-- What follows the prefix in the names that start with it, each once, in the order of code
points. -/
def namesUnder (f : Formula) (pre : String) : List String :=
  -- A name that equals the prefix leaves an empty rest.
  let rests := f.names.filterMap fun name =>
    (pre.toList.isPrefixOf? name.toList).map String.ofList
  rests.eraseDups.mergeSort fun a b => decide (a ≤ b)

/-- The names of a formula in the order of code points. -/
def sortedNames (f : Formula) : List String := f.names.mergeSort fun a b => decide (a ≤ b)

end Dimensional.Formula
