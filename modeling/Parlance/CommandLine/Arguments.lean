import Parlance.Text.Digit

/-!
The arguments of the command line. A command comes first, then its options and, for `run`, the name
of a file. Options may be shortened as long as only one fits. After two dashes everything is taken
as a name. Whatever cannot be understood is refused, and asking for help ends the command; both show
only in the exit code.
-/

namespace Parlance.CommandLine

inductive Command where
  | run (file permissions : String) (debug forever : Bool)
  | test
  | repl (permissions : String) (debug : Bool)
deriving Repr, DecidableEq

inductive Refusal where
  | help
  | usage
deriving Repr, DecidableEq

def Refusal.code : Refusal → Nat
  | .help => 0
  | .usage => 2

/-! ### Options -/

inductive Flag where
  | help | permissions | debug | forever
deriving Repr, DecidableEq

def Flag.spellings : Flag → List String
  | .help => ["-h", "--help"]
  | .permissions => ["--perm", "--permissions"]
  | .debug => ["--debug"]
  | .forever => ["--forever"]

def spellingsOf (flags : List Flag) : List (String × Flag) :=
  flags.flatMap fun flag => flag.spellings.map fun spelling => (spelling, flag)

inductive Mark where
  | word
  | dashes
  | option (flag : Flag) (short : Bool) (attached : Option String)
  | unknown
deriving Repr, DecidableEq

def atEquals (text : String) : Option (String × String) :=
  match text.splitOn "=" with
  | name :: first :: rest => some (name, "=".intercalate (first :: rest))
  | _ => none

/-- The options that a shortened long spelling may mean. -/
def longMatches (flags : List Flag) (text : String) : List Mark :=
  let (name, attached) := match atEquals text with
    | some (name, value) => (name, some value)
    | none => (text, none)
  ((spellingsOf flags).filter fun entry => entry.1.startsWith name).map fun entry =>
    .option entry.2 (!entry.1.startsWith "--") attached

/-- The options that a spelling with one dash may mean. What follows the letter is attached. -/
def shortMatches (flags : List Flag) (text : String) : List Mark :=
  let letter := String.ofList (text.toList.take 2)
  let attached := String.ofList (text.toList.drop 2)
  ((spellingsOf flags).filter fun entry => entry.1 = letter).map fun entry =>
    .option entry.2 true (some attached)

/-- Whether a text, after its dash, is a number: digits, perhaps with a point before the last of
them. -/
def isNumeral (cs : List Char) : Bool :=
  let whole := cs.takeWhile Text.isDecimal
  match cs.dropWhile Text.isDecimal with
  | [] => !whole.isEmpty
  | '.' :: fraction => !fraction.isEmpty && fraction.all Text.isDecimal
  | _ => false

def markOf (flags : List Flag) (text : String) : Except Refusal Mark :=
  match text.toList with
  | '-' :: next :: rest =>
    match (spellingsOf flags).lookup text with
    | some flag => .ok (.option flag (next ≠ '-') none)
    | none =>
      match (atEquals text).bind fun (name, value) =>
          ((spellingsOf flags).lookup name).map fun flag => (flag, value) with
      | some (flag, value) => .ok (.option flag (next ≠ '-') (some value))
      | none =>
        match if next = '-' then longMatches flags text else shortMatches flags text with
        | [mark] => .ok mark
        | _ :: _ :: _ => .error .usage
        | [] =>
          if isNumeral (next :: rest) || text.toList.contains ' ' then .ok .word else .ok .unknown
  | _ => .ok .word

def marksOf (flags : List Flag) : List String → Except Refusal (List (Mark × String))
  | [] => .ok []
  | "--" :: rest => .ok ((.dashes, "--") :: rest.map fun text => (.word, text))
  | text :: rest => do
    let mark ← markOf flags text
    return (mark, text) :: (← marksOf flags rest)

/-- What asking for help comes to. To the one letter more letters may be attached, with or without
an equal sign, each of which asks for help again. Nothing else can be attached. -/
def helpRefusal (short : Bool) : Option String → Refusal
  | none => .help
  | some attached =>
    if short && !attached.isEmpty && attached.toList.all (· = 'h') then .help else .usage

/-! ### Arguments of a command -/

structure Understood where
  file : Option String := none
  permissions : String := ""
  debug : Bool := false
  forever : Bool := false
  leftover : Bool := false

/-- What is known after more arguments, or how they are refused. -/
def understand (wantsFile : Bool) :
    List (Mark × String) → Understood → Except Refusal Understood
  | [], known => .ok known
  | (.option .help short attached, _) :: _, _ => .error (helpRefusal short attached)
  | (.option .permissions _ (some value), _) :: rest, known =>
    understand wantsFile rest { known with permissions := value }
  | (.option .permissions _ none, _) :: (.word, value) :: rest, known =>
    understand wantsFile rest { known with permissions := value }
  | (.option .permissions _ none, _) :: _, _ => .error .usage
  | (.option .debug _ none, _) :: rest, known =>
    understand wantsFile rest { known with debug := true }
  | (.option .forever _ none, _) :: rest, known =>
    understand wantsFile rest { known with forever := true }
  | (.option _ _ (some _), _) :: _, _ => .error .usage
  | (.unknown, _) :: rest, known => understand wantsFile rest { known with leftover := true }
  | (.word, text) :: (.dashes, dashes) :: rest, known =>
    if wantsFile && known.file.isNone then
      understand wantsFile rest { known with file := some text }
    else understand wantsFile ((.dashes, dashes) :: rest) { known with leftover := true }
  | (.word, text) :: rest, known =>
    if wantsFile && known.file.isNone then
      understand wantsFile rest { known with file := some text }
    else understand wantsFile rest { known with leftover := true }
  | (.dashes, _) :: (.word, text) :: rest, known =>
    if wantsFile && known.file.isNone then
      understand wantsFile rest { known with file := some text }
    else understand wantsFile ((.word, text) :: rest) { known with leftover := true }
  | (.dashes, _) :: rest, known => understand wantsFile rest { known with leftover := true }

def flagsOf : String → Option (List Flag)
  | "run" => some [.help, .permissions, .debug, .forever]
  | "test" => some [.help]
  | "repl" => some [.help, .permissions, .debug]
  | _ => none

/-- The command of that name with its arguments. Also says whether something was left over. -/
def commandOf (name : String) (arguments : List String) : Except Refusal (Command × Bool) :=
  match flagsOf name with
  | none => .error .usage
  | some flags => do
    let known ← understand (name = "run") (← marksOf flags arguments) {}
    match name, known.file with
    | "run", none => .error .usage
    | "run", some file =>
      return (.run file known.permissions known.debug known.forever, known.leftover)
    | "test", _ => return (.test, known.leftover)
    | _, _ => return (.repl known.permissions known.debug, known.leftover)

/-- Looks for the command among the arguments. Everything after its name belongs to it. -/
def findCommand : List (Mark × String) → (leftover : Bool) → Except Refusal (Option Command)
  | [], leftover => if leftover then .error .usage else .ok none
  | (.option _ short attached, _) :: _, _ => .error (helpRefusal short attached)
  | (.unknown, _) :: rest, _ => findCommand rest true
  | (.dashes, _) :: _, _ => .error .usage
  | (.word, name) :: rest, leftover => do
    let (command, more) ← commandOf name (rest.map Prod.snd)
    if leftover || more then .error .usage else return some command

def readArguments (arguments : List String) : Except Refusal (Option Command) := do
  findCommand (← marksOf [.help] arguments) false

end Parlance.CommandLine
