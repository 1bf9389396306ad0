import Dimensional.Decimal.Integer
import Dimensional.Decimal.Shortest
import Dimensional.Text.Quoted

/-!
# Values from outside

Callers hand over values of any sort where numbers are expected: settings, bindings, exponents.  A
`Datum` is such a value before anything is known about it.  It has a literal form, which messages
show, and a display form, in which a text stands for itself.  The literal form exists on paper for
every value, but it is made only when no integer in it is too long (`Datum.isWritable`); who puts a
value into a message has to ask first.
-/

namespace Dimensional

inductive Datum where
  | null
  | bool (b : Bool)
  | int (n : Int)
  | real (x : Float)
  | text (s : String)
  | list (items : List Datum)
  | object (fields : List (String × Datum))

namespace Datum

def sortName : Datum → String
  | .null => "NoneType"
  | .bool _ => "bool"
  | .int _ => "int"
  | .real _ => "float"
  | .text _ => "str"
  | .list _ => "list"
  | .object _ => "dict"

mutual

/-- A value as it is written in a program. -/
def literal : Datum → String
  | .null => "None"
  | .bool true => "True"
  | .bool false => "False"
  | .int n => Decimal.integer n
  | .real x => Decimal.shortest x
  | .text s => quote s
  | .list items => "[" ++ ", ".intercalate (literals items) ++ "]"
  | .object fields => "\x7b" ++ ", ".intercalate (fieldLiterals fields) ++ "\x7d"

def literals : List Datum → List String
  | [] => []
  | d :: rest => d.literal :: literals rest

def fieldLiterals : List (String × Datum) → List String
  | [] => []
  | (name, d) :: rest => (quote name ++ ": " ++ d.literal) :: fieldLiterals rest

end

mutual

/-- Can a value be written in a program?  That takes that every integer in it can be, however deep
in lists and objects it stands. -/
def isWritable : Datum → Bool
  | .int n => Decimal.isWritable n
  | .list items => areWritable items
  | .object fields => fieldsAreWritable fields
  | _ => true

def areWritable : List Datum → Bool
  | [] => true
  | d :: rest => d.isWritable && areWritable rest

def fieldsAreWritable : List (String × Datum) → Bool
  | [] => true
  | (_, d) :: rest => d.isWritable && fieldsAreWritable rest

end

/-- A value as it is shown to people: a text stands for itself. -/
def display : Datum → String
  | .text s => s
  | d => d.literal

def display? : Datum → Option String
  | .null => none
  | d => some d.display

/-- What a value runs through when it is taken apart: the characters of a text, the members of a
list, the names in an object.  Other values cannot be taken apart. -/
def members? : Datum → Option (List Datum)
  | .text s => some (s.toList.map fun c => .text (String.singleton c))
  | .list items => some items
  | .object fields => some (fields.map fun field => .text field.1)
  | _ => none

end Datum

def tupleLiteral : List Datum → String
  | [d] => "(" ++ d.literal ++ ",)"
  | items => "(" ++ ", ".intercalate (Datum.literals items) ++ ")"

end Dimensional
