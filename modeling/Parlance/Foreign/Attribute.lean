import Parlance.Text.Piece
import Parlance.Value.Text

/-!
Attributes of values that are not dictionaries: the parts of numbers, the methods of texts and
lists, and the members of libraries. Of methods and of most members only the type and the name are
known, and what modules and types outside the language hold is hardly described.
-/

namespace Parlance

/-! ### Members of libraries -/

namespace Library

def mathFunctions : List String :=
  ["acos", "acosh", "asin", "asinh", "atan", "atan2", "atanh", "cbrt", "ceil", "comb", "copysign",
   "cos", "cosh", "degrees", "dist", "erf", "erfc", "exp", "exp2", "expm1", "fabs", "factorial",
   "floor", "fmod", "frexp", "fsum", "gamma", "gcd", "hypot", "isclose", "isfinite", "isinf",
   "isnan", "isqrt", "lcm", "ldexp", "lgamma", "log", "log10", "log1p", "log2", "modf",
   "nextafter", "perm", "pow", "prod", "radians", "remainder", "sin", "sinh", "sqrt", "tan",
   "tanh", "trunc", "ulp"]

def randomFunctions : List String :=
  ["betavariate", "choice", "choices", "expovariate", "gammavariate", "gauss", "getstate",
   "lognormvariate", "normalvariate", "paretovariate", "randbytes", "randint", "randrange",
   "sample", "seed", "setstate", "shuffle", "triangular", "uniform", "vonmisesvariate",
   "weibullvariate"]

def datetimeTypes : List String := ["date", "datetime", "time", "timedelta", "timezone", "tzinfo"]

def patternFunctions : List String :=
  ["compile", "escape", "findall", "finditer", "fullmatch", "match", "purge", "search", "split",
   "sub", "subn", "template"]

def patternFlags : List String :=
  ["A", "ASCII", "DEBUG", "DOTALL", "I", "IGNORECASE", "L", "LOCALE", "M", "MULTILINE", "NOFLAG",
   "S", "T", "TEMPLATE", "U", "UNICODE", "VERBOSE", "X"]

/-- The members of libraries that are values of the language. -/
def constant? : Library → String → Option Value
  | .math, "nan" => some (.undefined .constant)
  | .math, "e" => some (.float (Float.ofBits 0x4005bf0a8b145769))
  | .math, "inf" => some (.float Decimal.infinity)
  | .math, "pi" => some (.float (Float.ofBits 0x400921fb54442d18))
  | .math, "tau" => some (.float (Float.ofBits 0x401921fb54442d18))
  | .random, "BPF" => some (.int 53)
  | .random, "LOG4" => some (.float (Float.ofBits 0x3ff62e42fefa39ef))
  | .random, "NV_MAGICCONST" => some (.float (Float.ofBits 0x3ffb72cd3f331398))
  | .random, "RECIP_BPF" => some (.float (Float.ofBits 0x3ca0000000000000))
  | .random, "SG_MAGICCONST" => some (.float (Float.ofBits 0x40040859baee748f))
  | .random, "TWOPI" => some (.float (Float.ofBits 0x401921fb54442d18))
  | .datetime, "MINYEAR" => some (.int 1)
  | .datetime, "MAXYEAR" => some (.int 9999)
  | _, _ => none

/-- The types of the other members. -/
def memberType? (library : Library) (name : String) : Option String :=
  match library with
  | .math => if mathFunctions.contains name then some "builtin_function_or_method" else none
  | .random =>
    if randomFunctions.contains name then some "method"
    else if ["getrandbits", "random"].contains name then some "builtin_function_or_method"
    else if ["Random", "SystemRandom"].contains name then some "type"
    else none
  | .datetime =>
    if datetimeTypes.contains name then some "type"
    else if name = "UTC" then some "datetime.timezone"
    else if name = "datetime_CAPI" then some "PyCapsule"
    else none
  | .re =>
    if patternFunctions.contains name then some "function"
    else if patternFlags.contains name then some "RegexFlag"
    else if ["Match", "Pattern", "RegexFlag", "Scanner", "error"].contains name then some "type"
    else none

/-- The modules that a library uses, as far as they are reached through it. -/
def used : Library → List String
  | .datetime => ["sys"]
  | .re => ["copyreg", "enum", "functools"]
  | _ => []

/-- A member of a library. Functions and types are known by the name of the library and their
own. -/
def member? (library : Library) (name : String) : Option Value :=
  match library.constant? name with
  | some value => some value
  | none =>
    match library.memberType? name with
    | some type => some (.foreign type (library.name ++ "." ++ name))
    | none =>
      if library.used.contains name then some (.foreign "module" name)
      else if name = "__name__" then some (.string library.name)
      else none

def ofName? (name : String) : Option Library :=
  [Library.math, .random, .datetime, .re].find? fun library => library.name = name

end Library

/-! ### Attributes of values -/

namespace Value

def textMethods : List String :=
  ["capitalize", "casefold", "center", "count", "encode", "endswith", "expandtabs", "find",
   "format", "format_map", "index", "isalnum", "isalpha", "isascii", "isdecimal", "isdigit",
   "isidentifier", "islower", "isnumeric", "isprintable", "isspace", "istitle", "isupper", "join",
   "ljust", "lower", "lstrip", "maketrans", "partition", "removeprefix", "removesuffix",
   "replace", "rfind", "rindex", "rjust", "rpartition", "rsplit", "rstrip", "split", "splitlines",
   "startswith", "strip", "swapcase", "title", "translate", "upper", "zfill"]

def listMethods : List String :=
  ["append", "clear", "copy", "count", "extend", "index", "insert", "pop", "remove", "reverse",
   "sort"]

def intMethods : List String :=
  ["as_integer_ratio", "bit_count", "bit_length", "conjugate", "from_bytes", "to_bytes"]

def floatMethods : List String :=
  ["as_integer_ratio", "conjugate", "fromhex", "hex", "is_integer"]

def method? (names : List String) (owner name : String) : Option Value :=
  if names.contains name then some (.foreign "builtin_function_or_method" (owner ++ "." ++ name))
  else none

def numberPart? (number : Number) (name : String) : Option Value :=
  match number, name with
  | .int n, "real" => some (.int n)
  | .int _, "imag" => some (.int 0)
  | .int n, "numerator" => some (.int n)
  | .int _, "denominator" => some (.int 1)
  | .float x, "real" => some (.float x)
  | .float _, "imag" => some (.float 0.0)
  | .int _, _ => method? intMethods "int" name
  | .float _, _ => method? floatMethods "float" name

def functionTypes : List String :=
  ["builtin_function_or_method", "method", "function", "method_descriptor"]

/-- What is described of the modules and types that libraries lead to. -/
def outerMember? : (owner name : String) → Option Value
  | "enum", "bltns" => some (.foreign "module" "builtins")
  | "builtins", "eval" => some (.foreign "builtin_function_or_method" "builtins.eval")
  | "builtins", "exec" => some (.foreign "builtin_function_or_method" "builtins.exec")
  | "builtins", "list" => some (.foreign "type" "list")
  | "list", "pop" => some (.foreign "method_descriptor" "list.pop")
  | _, _ => none

/-- An attribute as it is at first, as far as it is described. -/
def attribute? (value : Value) (name : String) : Option Value :=
  match value with
  | .string _ => method? textMethods "str" name
  | .list _ => method? listMethods "list" name
  | .library owner => owner.member? name
  | .foreign "dict" _ => method? ["fromkeys"] "dict" name
  | .undefined mark =>
    if name = "real" then some (.undefined mark)
    else numberPart? (.float Decimal.notANumber) name
  | .foreign type full =>
    if name = "__name__" && ("type" :: "module" :: functionTypes).contains type then
      some (.string ((Text.parts '.' full).getLast?.getD full))
    else outerMember? full name
  | _ => value.number?.bind fun number => numberPart? number name

/-- The names in the types of libraries that do not begin with an underscore. -/
def typeMembers : List String :=
  ["ASCII", "DEBUG", "DOTALL", "IGNORECASE", "LOCALE", "MULTILINE", "TEMPLATE", "UNICODE",
   "VERBOSE", "VERSION", "add_note", "args", "as_integer_ratio", "astimezone", "betavariate",
   "bit_count", "bit_length", "choice", "choices", "combine", "conjugate", "ctime", "date",
   "day", "days", "denominator", "dst", "end", "endpos", "expand", "expovariate", "findall",
   "finditer", "flags", "fold", "from_bytes", "fromisocalendar", "fromisoformat", "fromordinal",
   "fromtimestamp", "fromutc", "fullmatch", "gammavariate", "gauss", "getrandbits", "getstate",
   "group", "groupdict", "groupindex", "groups", "hour", "imag", "isocalendar", "isoformat",
   "isoweekday", "lastgroup", "lastindex", "lognormvariate", "match", "max", "microsecond",
   "microseconds", "min", "minute", "month", "normalvariate", "now", "numerator",
   "paretovariate", "pattern", "pos", "randbytes", "randint", "random", "randrange", "re",
   "real", "regs", "replace", "resolution", "sample", "scan", "scanner", "search", "second",
   "seconds", "seed", "setstate", "shuffle", "span", "split", "start", "strftime", "string",
   "strptime", "sub", "subn", "time", "timestamp", "timetuple", "timetz", "to_bytes", "today",
   "toordinal", "total_seconds", "triangular", "tzinfo", "tzname", "uniform", "utc",
   "utcfromtimestamp", "utcnow", "utcoffset", "utctimetuple", "vonmisesvariate", "weekday",
   "weibullvariate", "with_traceback", "year"]

/-- Whether the attributes of a value are described, as far as their names do not begin with an
underscore. -/
def isTold (value : Value) (name : String) : Bool :=
  match value with
  | .foreign "type" full => full ≠ "list" && !(typeMembers.contains name)
  | .foreign type _ => functionTypes.contains type
  | _ => true

/-- Whether it is described which attribute of that name a value has, if any. -/
def describes (value : Value) (name : String) : Bool :=
  match value with
  | .dictionary _ => true
  | _ => (value.attribute? name).isSome || (name.toList.head? != some '_' && value.isTold name)

end Value

/-- An attribute of a value that is not a dictionary, as the program has left it. -/
def Heap.attribute? (heap : Heap) (value : Value) (name : String) : Option Value :=
  match value with
  | .library library => (heap.member? library name).orElse fun _ => value.attribute? name
  | _ => value.attribute? name

/-! ### Faults -/

namespace Value

/-- How setting an attribute is refused. -/
def attributeIsFixed (value : Value) (name : String) : Refusal :=
  let isPart := ["real", "imag", "numerator", "denominator"].contains name
  match value.number? with
  | some x =>
    .attribute (if isPart then .notWritable x.typeName name else .readOnly x.typeName name)
  | none => .attribute (.readOnly value.typeName name)

/-- The types that go by their own name alone, without that of their library. -/
def shortTypes : List String :=
  ["random.Random", "random.SystemRandom", "re.Scanner", "re.error"]

/-- How a value is called that lacks an attribute. A method is called after the function in it. -/
def ownerMark : Value → String
  | .library owner => "module '" ++ owner.name ++ "'"
  | .foreign "module" name => "module '" ++ name ++ "'"
  | .foreign "type" full =>
    let name := if shortTypes.contains full then (Text.parts '.' full).getLast?.getD full else full
    "type object '" ++ name ++ "'"
  | .foreign "method" _ => "'function' object"
  | value => "'" ++ value.typeName ++ "' object"

/-- How reading an attribute is refused. -/
def attributeIsMissing (value : Value) (name : String) : Refusal :=
  match value with
  | .foreign "type" "re.RegexFlag" => .attribute (.unknown name)
  | _ => .attribute (.missing value.ownerMark name)

end Value

end Parlance
