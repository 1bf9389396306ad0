import Dimensional.Datum.Basic

/-!
# Errors

Every failure is a value of `Error`, which records the cause; `Error.message` is the only place
where causes are put into words.  Kinds of errors form a small hierarchy (`ErrorKind.ancestors`):
callers that handle a kind also handle the kinds below it.
-/

namespace Dimensional

/-- Arithmetic on unit scales that has no result. -/
inductive ArithmeticFault where
  | divisionByZero
  | zeroToNegative
  | outOfRange
  | complexZeroToNegative
  | complexOutOfRange
  deriving Repr, DecidableEq

/-- A value that cannot be used as a number, taken apart into numbers, or written out. -/
inductive ConversionFault where
  | unreadable (text : String)
  | notNumeric (sortName : String)
  | tooLarge
  | notIterable (sortName : String)
  | unknownAxis (name : String)
  | infinityToInteger
  | nanToInteger
  | tooLong
  deriving Repr, DecidableEq

inductive VariableFault where
  | nulCharacter
  | illegalName
  deriving Repr, DecidableEq

/-- What is wrong with the text of a formula or of a unit. -/
inductive ParseFault where
  | missingText
  | unexpectedCharacter (c : Char)
  | invalidNumber (literal : String)
  | infiniteNumber (literal : String)
  | unclosedBracket
  | misplacedComma
  | mismatchedParentheses
  | unknownToken (shown : String)
  | unexpectedUnitCharacter (c : Char)
  | unexpectedUnitSign (c : Char)
  | mismatchedUnitParentheses
  | missingUnitOperand (symbol : Char)
  | exponentNotNumeric
  | unitArithmetic (fault : ArithmeticFault)
  | unparsableUnit (text : String)
  | unusableScale (text : String)
  | stated (message : String)
  deriving Repr, DecidableEq

inductive EvalFault where
  | exponentCount (count : Nat)
  | invalidPair (value dims : Datum)
  | notQuantity (sortName : String)
  | invalidExponent (x : Float)
  | wrongArity (name : String) (expected : Nat) (declared : Int)
  | invalidToken (shown : String)
  | noLookup
  | valuesLeft (source : String) (count : Nat)
  | stated (message : String)

/-- A failure and its cause. -/
inductive Error where
  | parse (fault : ParseFault) (text : String) (position : Option Int)
  | unknownUnit (token text : String)
  | unknownFunction (name : String)
  | unknownOperator (symbol : String)
  | unitMismatch (operation detail : String)
  | evaluation (fault : EvalFault)
  | missingOperand (operation : String) (required available : Int)
  | unknownSymbol (name : String)
  | invalidIdentifier (label name : String) (allowed : List String)
  | configuration (variableName value detail : String)
  | variable (fault : VariableFault)
  | stated (message : String)
  | conversion (fault : ConversionFault)
  | arithmetic (fault : ArithmeticFault)
  | missingKey (key : String)

/-! ### Wording -/

def ArithmeticFault.message : ArithmeticFault → String
  | .divisionByZero => "float division by zero"
  | .zeroToNegative => "0.0 cannot be raised to a negative power"
  | .outOfRange => "(34, 'Numerical result out of range')"
  | .complexZeroToNegative => "0.0 to a negative or complex power"
  | .complexOutOfRange => "complex exponentiation"

def ConversionFault.message : ConversionFault → String
  | .unreadable text => "could not convert string to float: " ++ quote text
  | .notNumeric sortName =>
    s!"float() argument must be a string or a real number, not '{sortName}'"
  | .tooLarge => "int too large to convert to float"
  | .notIterable sortName => s!"'{sortName}' object is not iterable"
  | .unknownAxis name => s!"dims_vector() got an unexpected keyword argument '{name}'"
  | .infinityToInteger => "cannot convert float infinity to integer"
  | .nanToInteger => "cannot convert float NaN to integer"
  | .tooLong =>
    "Exceeds the limit (" ++ Decimal.natural Decimal.maxDigits ++ " digits) for integer string " ++
      "conversion; use sys.set_int_max_str_digits() to increase the limit"

def VariableFault.message : VariableFault → String
  | .nulCharacter => "embedded null byte"
  | .illegalName => "illegal environment variable name"

/-- The wording of a parse fault, without the place where it was met. -/
def ParseFault.message : ParseFault → String
  | .missingText => "Expression text is required"
  | .unexpectedCharacter c => s!"Unexpected character '{c}'"
  | .invalidNumber literal => s!"Invalid number '{literal}'"
  | .infiniteNumber literal => s!"Number '{literal}' is not finite"
  | .unclosedBracket => "Unclosed unit bracket"
  | .misplacedComma => "Misplaced comma"
  | .mismatchedParentheses => "Mismatched parentheses"
  | .unknownToken shown => s!"Unknown token {shown}"
  | .unexpectedUnitCharacter c => s!"Unexpected character '{c}' in unit expression"
  | .unexpectedUnitSign c => s!"Unexpected sign '{c}' in unit expression"
  | .mismatchedUnitParentheses => "Mismatched parentheses in unit"
  | .missingUnitOperand symbol => s!"Operator '{symbol}' is missing an operand"
  | .exponentNotNumeric => "Unit exponent must be numeric"
  | .unitArithmetic fault => "Invalid unit arithmetic: " ++ fault.message
  | .unparsableUnit text => s!"Unable to parse unit '{text}'"
  | .unusableScale text => s!"Unit '{text}' has non-positive or non-finite scale"
  | .stated message => message

def EvalFault.message : EvalFault → String
  | .exponentCount count =>
    "Dimension vector must have 8 entries, got " ++ Decimal.natural count
  | .invalidPair value dims =>
    "Lookup returned an invalid (value, dims) pair: " ++ tupleLiteral [value, dims]
  | .notQuantity sortName =>
    s!"Lookup must return a Quantity or (value, dims) pair, got {sortName}"
  | .invalidExponent x => "Invalid exponent value " ++ Decimal.shortest x
  | .wrongArity name expected declared =>
    name ++ "() takes " ++ Decimal.natural expected ++ " argument(s), program declares " ++
      Decimal.integer declared
  | .invalidToken shown => s!"Invalid token in program: {shown}"
  | .noLookup => "Evaluation context must provide a lookup callable"
  | .valuesLeft source count =>
    "Invalid evaluation state for " ++ quote source ++ ": " ++ Decimal.natural count ++
      " values left on stack"
  | .stated message => message

/-- A text with a mark under one of its characters, or just behind the last. -/
def pointer (text : String) : Option Int → String
  | some (.ofNat position) =>
    if text ≠ "" ∧ position ≤ text.length then
      "\n" ++ text ++ "\n" ++ String.ofList (List.replicate position ' ') ++ "^"
    else ""
  | _ => ""

def Error.message : Error → String
  | .parse fault text position => fault.message ++ pointer text position
  | .unknownUnit token _ => s!"Unknown unit token '{token}'"
  | .unknownFunction name => s!"Unknown function '{name}'"
  | .unknownOperator symbol => s!"Unknown operator '{symbol}'"
  | .unitMismatch operation detail => s!"{operation}: {detail}"
  | .evaluation fault => fault.message
  | .missingOperand operation required available =>
    s!"'{operation}' needs " ++ Decimal.integer required ++ " operand(s) but only " ++
      Decimal.integer available ++ " available"
  | .unknownSymbol name => s!"Unknown symbol '{name}'"
  | .invalidIdentifier label name allowed =>
    s!"{label} uses invalid symbol '{name}'. Use " ++ "/".intercalate allowed ++ " prefixes."
  | .configuration variableName value detail =>
    "Invalid " ++ variableName ++ "=" ++ quote value ++ ": " ++ detail
  | .variable fault => fault.message
  | .stated message => message
  | .conversion fault => fault.message
  | .arithmetic fault => fault.message
  | .missingKey key => quote key

/-! ### Kinds

Callers handle errors by kind and not by wording.  Most kinds are under `expression`, and some of
these count as a bad value as well; the kinds that conversions and arithmetic raise by
themselves are under nothing. -/

/-- The kinds of errors that callers tell apart. -/
inductive ErrorKind where
  | expression
  | parse
  | unknownUnit
  | unknownFunction
  | unknownOperator
  | unitMismatch
  | evaluation
  | missingOperand
  | unknownSymbol
  | invalidIdentifier
  | configuration
  | badValue
  | badType
  | overflow
  | zeroDivision
  | missingKey
  deriving Repr, DecidableEq

/-- The kinds that include a kind, the nearest first. -/
def ErrorKind.ancestors : ErrorKind → List ErrorKind
  | .unknownUnit => [.parse, .expression, .badValue]
  | .parse | .configuration => [.expression, .badValue]
  | .missingOperand | .unknownSymbol => [.evaluation, .expression]
  | .unknownFunction | .unknownOperator | .unitMismatch | .evaluation | .invalidIdentifier =>
    [.expression]
  | .expression | .badValue | .badType | .overflow | .zeroDivision | .missingKey => []

/-- Does handling the kind `other` also handle this kind? -/
def ErrorKind.isA (kind other : ErrorKind) : Bool := kind = other || other ∈ kind.ancestors

def ArithmeticFault.kind : ArithmeticFault → ErrorKind
  | .divisionByZero | .zeroToNegative | .complexZeroToNegative => .zeroDivision
  | .outOfRange | .complexOutOfRange => .overflow

def ConversionFault.kind : ConversionFault → ErrorKind
  | .unreadable _ | .nanToInteger | .tooLong => .badValue
  | .notNumeric _ | .notIterable _ | .unknownAxis _ => .badType
  | .tooLarge | .infinityToInteger => .overflow

def Error.kind : Error → ErrorKind
  | .parse .. => .parse
  | .unknownUnit .. => .unknownUnit
  | .unknownFunction _ => .unknownFunction
  | .unknownOperator _ => .unknownOperator
  | .unitMismatch .. => .unitMismatch
  | .evaluation _ => .evaluation
  | .missingOperand .. => .missingOperand
  | .unknownSymbol _ => .unknownSymbol
  | .invalidIdentifier .. => .invalidIdentifier
  | .configuration .. => .configuration
  | .variable _ => .badValue
  | .stated _ => .expression
  | .conversion fault => fault.kind
  | .arithmetic fault => fault.kind
  | .missingKey _ => .missingKey

end Dimensional
