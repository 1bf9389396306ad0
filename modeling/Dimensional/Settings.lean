import Dimensional.Character.Blank
import Dimensional.Character.Case
import Dimensional.Datum.Number
import Dimensional.Table

/-!
# Settings

Two settings govern evaluation: the tolerance within which exponents of dimensions agree, and
whether floating-point exceptions are worth a warning.  They are read from named fields or from two
environment variables; what is not given keeps its default.
-/

namespace Dimensional

/-- What to do about floating-point exceptions. -/
inductive FloatErrors where
  | ignore
  | warn
  deriving Repr, DecidableEq

def FloatErrors.name : FloatErrors → String
  | .ignore => "ignore"
  | .warn => "warn"

structure Settings where
  /-- Exponents that differ by less than this agree. -/
  tolerance : Float := 1e-9
  floatErrors : FloatErrors := .ignore
  tolerance_pos : 0 < tolerance := by decide

/-! ### Fields -/

inductive FieldFault where
  | unreadableNumber
  | notNumber
  | notPositive
  | notListed
  | unknownField
  deriving Repr, DecidableEq

def FieldFault.message : FieldFault → String
  | .unreadableNumber => "Input should be a valid number, unable to parse string as a number"
  | .notNumber => "Input should be a valid number"
  | .notPositive => "Input should be greater than 0"
  | .notListed => "Input should be 'ignore' or 'warn'"
  | .unknownField => "Extra inputs are not permitted"

namespace Settings

def toleranceField : String := "dimension_tolerance"

def floatErrorsField : String := "float_errors"

/-- Takes out underscores, if each stands between two other characters. -/
def dropUnderscores (cs : List Char) : List Char :=
  let doubled := (cs.zip cs.tail).any fun (c, next) => c = '_' && next = '_'
  if cs.head? = some '_' || cs.getLast? = some '_' || doubled then cs
  else cs.filter (· ≠ '_')

/-- A number that is written out in a field: white space at its ends does not count, or else single
underscores between its characters do not. -/
def parseNumber? (cs : List Char) : Option Float :=
  (Decimal.parse? (Character.trim Character.isSpace cs)).or (Decimal.parse? (dropUnderscores cs))

def readNumber : Datum → Except FieldFault Float
  | .text s => match parseNumber? s.toList with
    | some x => .ok x
    | none => .error .unreadableNumber
  | d => match d.toFloat with
    | .ok x => .ok x
    | .error _ => .error .notNumber

/-- The tolerance in a field: a positive number. -/
def readTolerance (d : Datum) : Except FieldFault { x : Float // 0 < x } := do
  let x ← readNumber d
  if h : 0 < x then .ok ⟨x, h⟩ else .error .notPositive

/-- The choice in a field: one of two words. -/
def readFloatErrors : Datum → Except FieldFault FloatErrors
  | .text "ignore" => .ok .ignore
  | .text "warn" => .ok .warn
  | _ => .error .notListed

/-- The value of a field that need not be given. -/
def readField {α : Type} (fields : Table Datum) (name : String) (fallback : α)
    (read : Datum → Except FieldFault α) : Except (List (String × FieldFault)) α :=
  match fields.find? name with
  | none => .ok fallback
  | some d => (read d).mapError fun fault => [(name, fault)]

def unknownFields (fields : Table Datum) : List (String × FieldFault) :=
  (fields.names.filter fun name => name ≠ toleranceField ∧ name ≠ floatErrorsField).map
    fun name => (name, .unknownField)

def faultsOf {α : Type} : Except (List (String × FieldFault)) α → List (String × FieldFault)
  | .ok _ => []
  | .error faults => faults

/-- The settings from named fields, or all faults: those of the settings in their order, then those
of the other fields. -/
def ofFields (fields : Table Datum) : Except (List (String × FieldFault)) Settings :=
  let tolerance := readField fields toleranceField ⟨1e-9, by decide⟩ readTolerance
  let floatErrors := readField fields floatErrorsField .ignore readFloatErrors
  match tolerance, floatErrors, unknownFields fields with
  | .ok ⟨x, hx⟩, .ok choice, [] => .ok ⟨x, choice, hx⟩
  | tolerance, floatErrors, unknown =>
    .error (faultsOf tolerance ++ faultsOf floatErrors ++ unknown)

end Settings

/-! ### The environment

Reading the environment is one thing and validating what stands there is another.  Which variables
there are, which of them count as given, how their texts are tidied and whom an error blames is
settled here.  What a tidied text is worth is up to a `Validation`, of which no more is asked than
that it gives each text a value or says what is wrong with it. -/

/-- What the texts of the two variables are worth: each is a value, or there is something wrong with
it, in words. -/
structure Validation where
  tolerance : String → Except String { x : Float // 0 < x }
  floatErrors : String → Except String FloatErrors

/-- Texts are worth what they are in a field. -/
def Validation.ofFields : Validation where
  tolerance text := (Settings.readTolerance (.text text)).mapError FieldFault.message
  floatErrors text := (Settings.readFloatErrors (.text text)).mapError FieldFault.message

/-- The two environment variables, as far as they are set. -/
structure Environment where
  tolerance : Option String := none
  floatErrors : Option String := none
  deriving Repr, DecidableEq

namespace Environment

def toleranceVariable : String := "UNITEXPR_DIMENSION_TOLERANCE"

def floatErrorsVariable : String := "UNITEXPR_FLOAT_ERRORS"

/-- The environment with a variable set, or unset; other variables do not count. -/
def set (env : Environment) (variableName : String) (value : Option String) : Environment :=
  if variableName = toleranceVariable then { env with tolerance := value }
  else if variableName = floatErrorsVariable then { env with floatErrors := value }
  else env

/-- Can a variable with this name be given this value?  Names and values end at the character NUL,
and names end at `=`, so neither may hold what ends it. -/
def checkVariable (variableName value : String) : Except Error PUnit :=
  if variableName.toList.contains '\x00' || value.toList.contains '\x00' then
    .error (.variable .nulCharacter)
  else if variableName.toList.contains '=' then .error (.variable .illegalName)
  else .ok ⟨⟩

/-- The environment with a variable set, if it can be, or unset. -/
def assign (env : Environment) (variableName : String) (value : Option String) :
    Except Error Environment := do
  if let some text := value then checkVariable variableName text
  return env.set variableName value

/-- The value of a variable that is set and not empty. -/
def given? : Option String → Option String
  | some value => if value = "" then none else some value
  | none => none

/-- Reads a variable that need not be given; `tidy` is applied to its text before it is
validated. -/
def readVariable {α : Type} (variableName : String) (value : Option String) (fallback : α)
    (tidy : List Char → List Char) (validate : String → Except String α) : Except Error α :=
  match given? value with
  | none => .ok fallback
  | some value =>
    (validate (String.ofList (tidy value.toList))).mapError fun detail =>
      .configuration variableName value detail

/-- The settings in the environment; of two unusable variables the tolerance is reported. -/
def settingsBy (v : Validation) (env : Environment) : Except Error Settings := do
  let ⟨x, hx⟩ ← readVariable toleranceVariable env.tolerance ⟨1e-9, by decide⟩ Character.strip
    v.tolerance
  let choice ← readVariable floatErrorsVariable env.floatErrors .ignore
    (fun cs => (Character.strip cs).map Character.lower) v.floatErrors
  return ⟨x, choice, hx⟩

def settings (env : Environment) : Except Error Settings := env.settingsBy .ofFields

end Environment

end Dimensional
