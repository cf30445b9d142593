import Parlance.Parse.Basic
import Parlance.Permission
import Parlance.Token.Lexer

/-!
What can go wrong while a program runs. A fault is a cause; its wording is given in one place. A
*report* is a fault that, outside debugging, is written to the output and then forgotten. All
other faults end the run.

Types of values are named in messages as they are known to users: `int`, `float`, `str` and so
on.
-/

namespace Parlance

/-! ### Reports -/

/-- What can go wrong with packages. -/
inductive PackageFault where
  | pathNotFound (path : String)
  | manifestNotFound (path : String)
  | manifestUnreadable (reason : String)
  | noRegistry
  | registryUnsupported (name : String)
  | notInstalled (name : String)
  | noVersion (name : String)
  | noManifest (name : String)
  | lacksPermission (name permission : String)
  | entryNotFound (path : String)
deriving Repr, DecidableEq

def PackageFault.message : PackageFault → String
  | .pathNotFound path => "Package path not found: " ++ path
  | .manifestNotFound path => "Manifest not found: " ++ path
  | .manifestUnreadable reason => "Failed to parse manifest: " ++ reason
  | .noRegistry => "Registry URL not configured. Set REGISTRY_URL environment variable."
  | .registryUnsupported name =>
    "Registry installation not implemented. Use local path: ./" ++ name
  | .notInstalled name => "Package '" ++ name ++ "' not found. Install it first."
  | .noVersion name => "No version found for package '" ++ name ++ "'"
  | .noManifest name => "Manifest not found for package '" ++ name ++ "'"
  | .lacksPermission name permission =>
    "Package '" ++ name ++ "' requires " ++ permission ++ " permission"
  | .entryNotFound path => "Entry file not found: " ++ path

def typeMark (name : String) : String := "<class '" ++ name ++ "'>"

/-- How messages show a node of a program. -/
def nodeMark (kind : String) : String :=
  typeMark (if kind = "NoneType" then kind else "gopa_lang.ast_nodes." ++ kind)

/-- What is written to the output and forgotten outside debugging. -/
inductive Report where
  | denied (activity : Permission)
  | propertyOfNothing (name : String)
  | notIndexable (type : String)
  | unknownExpression (kind : String)
  | unknownStatement (kind : String)
  | unknownBinary (name : String)
  | unknownUnary (name : String)
  | divisionByZero
  | undefinedFunction (name : String)
  | expectsList (action : String)
  | expectsRows
  | noClient
  | requestFailed (reason : String)
  | readFailed (reason : String)
  | writeFailed (reason : String)
  | foreignPath
  | foreignLibrary (name : String)
  | notCallable (path : String)
  | foreignResult (type : String)
  | foreignFailed (reason : String)
  | unreadableTarget (kind : String)
  | unwritableTarget (kind : String)
  | unsettableProperty (name : String)
  | indexOutOfRange (index : String)
  | noPackages
  | package (cause : PackageFault)
deriving Repr, DecidableEq

def Report.message : Report → String
  | .denied activity => activity.refusal
  | .propertyOfNothing name => "Cannot access property '" ++ name ++ "' on nothing"
  | .notIndexable type => "Cannot index " ++ typeMark type
  | .unknownExpression kind => "Unknown expression type: " ++ nodeMark kind
  | .unknownStatement kind => "Unknown statement type: " ++ nodeMark kind
  | .unknownBinary name => "Unknown binary operator: " ++ name
  | .unknownUnary name => "Unknown unary operator: " ++ name
  | .divisionByZero => "Division by zero"
  | .undefinedFunction name => "Function '" ++ name ++ "' not defined"
  | .expectsList action => action ++ " expects a list"
  | .expectsRows => "show table expects a list of rows"
  | .noClient => "requests library not installed"
  | .requestFailed reason => "Network request failed: " ++ reason
  | .readFailed reason => "Failed to read file: " ++ reason
  | .writeFailed reason => "Failed to write file: " ++ reason
  | .foreignPath => "python.call requires 'module.attr' format"
  | .foreignLibrary name => "Module '" ++ name ++ "' not in allowlist"
  | .notCallable path => "'" ++ path ++ "' is not callable"
  | .foreignResult type => "Cannot return " ++ typeMark type ++ " from Python call"
  | .foreignFailed reason => "Python call failed: " ++ reason
  | .unreadableTarget kind => "Cannot get from target: " ++ nodeMark kind
  | .unwritableTarget kind => "Cannot assign to target: " ++ nodeMark kind
  | .unsettableProperty name => "Cannot set property '" ++ name ++ "'"
  | .indexOutOfRange index => "Index " ++ index ++ " out of range"
  | .noPackages => "Package manager not initialized"
  | .package cause => cause.message

/-! ### Faults that end a run -/

/-- A value of a type that does not fit. Types are given by name. -/
inductive TypeFault where
  | operands (sign left right : String)
  | concatenation (left right : String)
  | repetition (type : String)
  | comparison (sign left right : String)
  | unhashable (type : String)
  | notIterable (type : String)
  | notInteger (type : String)
  | integerArgument (type : String)
  | floatArgument (type : String)
  | notReal (type : String)
  | noRounding (type : String)
  | noAbsolute (type : String)
  | noLength (type : String)
  | tooManyArguments (name : String) (takes given : Nat)
  | argumentsBeyond (name : String) (least most given : Nat)
  | missingArguments (name : String) (names : List String)
  | uncopyable
  | notCallable (type : String)
  /-- A refusal of a library function, in its own words. -/
  | library (text : String)
deriving Repr, DecidableEq

/-- Names in quotes, with commas and `and` between. -/
def enumerated : List String → String
  | [] => ""
  | [name] => "'" ++ name ++ "'"
  | [first, second] => "'" ++ first ++ "' and '" ++ second ++ "'"
  | names =>
    let marked := names.map fun name => "'" ++ name ++ "'"
    ", ".intercalate marked.dropLast ++ ", and " ++ marked.getLast?.getD ""

def plural (count : Nat) : String := if count = 1 then "" else "s"

def TypeFault.message : TypeFault → String
  | .operands sign left right =>
    "unsupported operand type(s) for " ++ sign ++ ": '" ++ left ++ "' and '" ++ right ++ "'"
  | .concatenation left right =>
    "can only concatenate " ++ left ++ " (not \"" ++ right ++ "\") to " ++ left
  | .repetition type => "can't multiply sequence by non-int of type '" ++ type ++ "'"
  | .comparison sign left right =>
    "'" ++ sign ++ "' not supported between instances of '" ++ left ++ "' and '" ++ right ++ "'"
  | .unhashable type => "unhashable type: '" ++ type ++ "'"
  | .notIterable type => "'" ++ type ++ "' object is not iterable"
  | .notInteger type => "'" ++ type ++ "' object cannot be interpreted as an integer"
  | .integerArgument type =>
    "int() argument must be a string, a bytes-like object or a real number, not '" ++ type ++ "'"
  | .floatArgument type =>
    "float() argument must be a string or a real number, not '" ++ type ++ "'"
  | .notReal type => "must be real number, not " ++ type
  | .noRounding type => "type " ++ type ++ " doesn't define __round__ method"
  | .noAbsolute type => "bad operand type for abs(): '" ++ type ++ "'"
  | .noLength type => "Cannot get length of " ++ typeMark type
  | .tooManyArguments name takes given =>
    name ++ "() takes " ++ Decimal.naturalText takes ++ " positional argument" ++ plural takes
      ++ " but " ++ Decimal.naturalText given ++ (if given = 1 then " was" else " were") ++ " given"
  | .argumentsBeyond name least most given =>
    name ++ "() takes from " ++ Decimal.naturalText least ++ " to " ++ Decimal.naturalText most
      ++ " positional arguments but " ++ Decimal.naturalText given ++ " were given"
  | .missingArguments name names =>
    name ++ "() missing " ++ Decimal.naturalText names.length ++ " required positional argument"
      ++ plural names.length ++ ": " ++ enumerated names
  | .uncopyable => "cannot pickle 'module' object"
  | .notCallable type => "'" ++ type ++ "' object is not callable"
  | .library text => text

/-- A value of the right type that does not fit. -/
inductive ValueFault where
  | integerText (text : String)
  | integerTextLong (digits : Nat)
  | integerLong
  | floatText (text : String)
  | notANumber
  | domain
  | emptySeparator
  | emptyRange (low high : Int)
  | factorial
  | schedule (text : String)
  | year (given : Int)
  | nullCharacter
  /-- A refusal of a library function, in its own words. -/
  | library (text : String)
deriving Repr, DecidableEq

def digitAdvice : String :=
  "; use sys.set_int_max_str_digits() to increase the limit"

/-- The wording of each fault of values. A text that is no whole number is shown up to two hundred
characters. -/
def ValueFault.message : ValueFault → String
  | .integerText text =>
    "invalid literal for int() with base 10: " ++
      String.ofList ((Text.quoted text).toList.take 200)
  | .integerTextLong digits =>
    "Exceeds the limit (4300 digits) for integer string conversion: value has "
      ++ Decimal.naturalText digits ++ " digits" ++ digitAdvice
  | .integerLong => "Exceeds the limit (4300 digits) for integer string conversion" ++ digitAdvice
  | .floatText text => "could not convert string to float: " ++ Text.quoted text
  | .notANumber => "cannot convert float NaN to integer"
  | .domain => "math domain error"
  | .emptySeparator => "empty separator"
  | .emptyRange low high =>
    "empty range for randrange() (" ++ Decimal.integerText low ++ ", "
      ++ Decimal.integerText (high + 1) ++ ", " ++ Decimal.integerText (high + 1 - low) ++ ")"
  | .factorial => "factorial() not defined for negative values"
  | .schedule text => "Invalid cron schedule: " ++ text
  | .year given => "year " ++ Decimal.integerText given ++ " is out of range"
  | .nullCharacter => "embedded null byte"
  | .library text => text

/-- A number that is too large for where it is put. -/
inductive RangeFault where
  | integerToFloat
  | quotient
  | infinity
  | range
  | indexSize
  /-- A number is too large for the machine's integers of that kind. -/
  | machine (kind : String)
  | textLength
  | timestamp
  /-- A refusal of a library function, in its own words. -/
  | library (text : String)
deriving Repr, DecidableEq

def RangeFault.message : RangeFault → String
  | .integerToFloat => "int too large to convert to float"
  | .quotient => "integer division result too large for a float"
  | .infinity => "cannot convert float infinity to integer"
  | .range => "math range error"
  | .indexSize => "cannot fit 'int' into an index-sized integer"
  | .machine kind => "Python int too large to convert to C " ++ kind
  | .textLength => "repeated string is too long"
  | .timestamp => "timestamp out of range for platform time_t"
  | .library text => text

/-- An attribute that is not there or cannot be set. -/
inductive AttributeFault where
  /-- `owner` is the full mark of the owner, with its kind. -/
  | missing (owner name : String)
  /-- A name that is none of those it could be. -/
  | unknown (name : String)
  | notWritable (type name : String)
  | readOnly (type name : String)
deriving Repr, DecidableEq

def AttributeFault.message : AttributeFault → String
  | .missing owner name => owner ++ " has no attribute '" ++ name ++ "'"
  | .unknown name => name
  | .notWritable type name =>
    "attribute '" ++ name ++ "' of '" ++ type ++ "' objects is not writable"
  | .readOnly type name => "'" ++ type ++ "' object attribute '" ++ name ++ "' is read-only"

/-- A name without a meaning. -/
inductive UnboundName where
  | variableName (name : String)
  | functionName (name : String)
  /-- The canvas that is being made is used before it is there. -/
  | canvas
deriving Repr, DecidableEq

def UnboundName.message : UnboundName → String
  | .variableName name => "Variable '" ++ name ++ "' not defined"
  | .functionName name => "Function '" ++ name ++ "' not defined"
  | .canvas => "cannot access local variable 'canvas' where it is not associated with a value"

/-- What files refuse, with the name as it was given. -/
inductive FileFault where
  | notFound (name : String)
  | alreadyThere (name : String)
  | notDirectory (name : String)
  | isDirectory (name : String)
  | nameTooLong (name : String)
  /-- A file would be copied onto itself. The two ends are as messages show them. -/
  | sameFile (source target : String)
deriving Repr, DecidableEq

def FileFault.message : FileFault → String
  | .notFound name => "[Errno 2] No such file or directory: " ++ Text.quoted name
  | .alreadyThere name => "[Errno 17] File exists: " ++ Text.quoted name
  | .notDirectory name => "[Errno 20] Not a directory: " ++ Text.quoted name
  | .isDirectory name => "[Errno 21] Is a directory: " ++ Text.quoted name
  | .nameTooLong name => "[Errno 36] File name too long: " ++ Text.quoted name
  | .sameFile source target => source ++ " and " ++ target ++ " are the same file"

/-- Something inside a directory that could not be copied. -/
structure CopyFailure where
  source : String
  target : String
  cause : FileFault
deriving Repr, DecidableEq

/-- A copy that failed, as messages show it. A file that would be copied onto itself is shown letter
for letter. -/
def CopyFailure.shown (failure : CopyFailure) : String :=
  match failure.cause with
  | .sameFile .. =>
    ", ".intercalate (failure.cause.message.toList.map fun c => Text.quoted c.toString)
  | cause =>
    "(" ++ Text.quoted failure.source ++ ", " ++ Text.quoted failure.target ++ ", " ++
      Text.quoted cause.message ++ ")"

def LexFailure.message : LexFailure → String
  | .openEscape => (TypeFault.concatenation "str" "NoneType").message
  | .badNumeral text true => (ValueFault.floatText text).message
  | .badNumeral text false => (ValueFault.integerText text).message
  | .longNumeral digits => (ValueFault.integerTextLong digits).message

/-- What can go wrong. -/
inductive Fault where
  | report (cause : Report)
  | unbound (cause : UnboundName)
  | malformed (cause : ParseError)
  | unreadable (cause : LexFailure)
  | wrongType (cause : TypeFault)
  | badValue (cause : ValueFault)
  | outOfRange (cause : RangeFault)
  | noQuotient
  | attribute (cause : AttributeFault)
  | missingKey (key : String)
  | noItem
  | memory
  | file (cause : FileFault)
  | copy (failures : List CopyFailure)
  /-- A failure outside the program, in its own words. -/
  | system (text : String)
deriving Repr

/-- The wording of a fault. -/
def Fault.message : Fault → String
  | .report cause => cause.message
  | .unbound cause => cause.message
  | .malformed cause => cause.message
  | .unreadable cause => cause.message
  | .wrongType cause => cause.message
  | .badValue cause => cause.message
  | .outOfRange cause => cause.message
  | .noQuotient => "float division by zero"
  | .attribute cause => cause.message
  | .missingKey key => key
  | .noItem => "Cannot choose from an empty sequence"
  | .memory => ""
  | .file cause => cause.message
  | .copy failures => "[" ++ ", ".intercalate (failures.map CopyFailure.shown) ++ "]"
  | .system text => text

/-! ### Refusals -/

/-- What an operation on values, files or packages can be refused for. This is never about a name
without a meaning, about a node or about the text of a program. -/
inductive Refusal where
  | divisionByZero
  | foreignResult (type : String)
  | foreignFailed (reason : String)
  | package (cause : PackageFault)
  | wrongType (cause : TypeFault)
  | badValue (cause : ValueFault)
  | outOfRange (cause : RangeFault)
  | noQuotient
  | attribute (cause : AttributeFault)
  | missingKey (key : String)
  | noItem
  | memory
  | file (cause : FileFault)
  | copy (failures : List CopyFailure)
  | system (text : String)
deriving Repr

/-- The fault that a refusal is to the program. -/
def Refusal.fault : Refusal → Fault
  | .divisionByZero => .report .divisionByZero
  | .foreignResult type => .report (.foreignResult type)
  | .foreignFailed reason => .report (.foreignFailed reason)
  | .package cause => .report (.package cause)
  | .wrongType cause => .wrongType cause
  | .badValue cause => .badValue cause
  | .outOfRange cause => .outOfRange cause
  | .noQuotient => .noQuotient
  | .attribute cause => .attribute cause
  | .missingKey key => .missingKey key
  | .noItem => .noItem
  | .memory => .memory
  | .file cause => .file cause
  | .copy failures => .copy failures
  | .system text => .system text

def Refusal.message (cause : Refusal) : String := cause.fault.message

end Parlance
