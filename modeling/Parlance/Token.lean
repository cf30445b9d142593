import Parlance.Number

/-!
Tokens: the words, marks and literals that a program's text is made of. A token says what was
written; a lexeme also says where.
-/

namespace Parlance

/-- Tokens without content: the words of the language, its operators and its punctuation. -/
inductive Symbol where
  | trueWord | falseWord | nothing | pi | isWord | becomes | say | printWord | clear | showWord
  | ask | forWord | ifWord | thenWord | otherwise | repeatWord | forever | timesWord | untilWord
  | doWord | breakWord | continueWord | stop | define | withWord | returnWord | endWord | when
  | matchWord | toWord | add | remove | fromWord | atWord | sort | reverse | shuffle | find
  | inWord | filter | whereWord | map | usingWord | item | dictionary | object | split | byWord
  | join | joinWith | replace | get | getUsing | write | toFile | read | file | create | canvas
  | draw | circle | rectangle | line | text | color | size | mouse | clicks | onWord | wait
  | seconds | after | every | andWord | orWord | notWord | plus | minus | timesOperator | divided
  | byOperator | equals | doesNotEqual | isGreaterThan | isLessThan | isAtLeast | isAtMost
  | increase | decrease | yes | no | numberWord | screen | table | headers | data | rows
  | useWord | install | python | callWord | server | port | job | cron | dot | leftBracket
  | rightBracket | comma | newline | endOfText
deriving Repr, DecidableEq, Inhabited

namespace Symbol

def name : Symbol → String
  | .trueWord => "TRUE"
  | .falseWord => "FALSE"
  | .nothing => "NOTHING"
  | .pi => "PI"
  | .isWord => "IS"
  | .becomes => "BECOMES"
  | .say => "SAY"
  | .printWord => "PRINT"
  | .clear => "CLEAR"
  | .showWord => "SHOW"
  | .ask => "ASK"
  | .forWord => "FOR"
  | .ifWord => "IF"
  | .thenWord => "THEN"
  | .otherwise => "OTHERWISE"
  | .repeatWord => "REPEAT"
  | .forever => "FOREVER"
  | .timesWord => "TIMES"
  | .untilWord => "UNTIL"
  | .doWord => "DO"
  | .breakWord => "BREAK"
  | .continueWord => "CONTINUE"
  | .stop => "STOP"
  | .define => "DEFINE"
  | .withWord => "WITH"
  | .returnWord => "RETURN"
  | .endWord => "END"
  | .when => "WHEN"
  | .matchWord => "MATCH"
  | .toWord => "TO"
  | .add => "ADD"
  | .remove => "REMOVE"
  | .fromWord => "FROM"
  | .atWord => "AT"
  | .sort => "SORT"
  | .reverse => "REVERSE"
  | .shuffle => "SHUFFLE"
  | .find => "FIND"
  | .inWord => "IN"
  | .filter => "FILTER"
  | .whereWord => "WHERE"
  | .map => "MAP"
  | .usingWord => "USING"
  | .item => "ITEM"
  | .dictionary => "DICTIONARY"
  | .object => "OBJECT"
  | .split => "SPLIT"
  | .byWord => "BY"
  | .join => "JOIN"
  | .joinWith => "WITH_JOIN"
  | .replace => "REPLACE"
  | .get => "GET"
  | .getUsing => "USING_GET"
  | .write => "WRITE"
  | .toFile => "TO_FILE"
  | .read => "READ"
  | .file => "FILE"
  | .create => "CREATE"
  | .canvas => "CANVAS"
  | .draw => "DRAW"
  | .circle => "CIRCLE"
  | .rectangle => "RECTANGLE"
  | .line => "LINE"
  | .text => "TEXT"
  | .color => "COLOR"
  | .size => "SIZE"
  | .mouse => "MOUSE"
  | .clicks => "CLICKS"
  | .onWord => "ON"
  | .wait => "WAIT"
  | .seconds => "SECONDS"
  | .after => "AFTER"
  | .every => "EVERY"
  | .andWord => "AND"
  | .orWord => "OR"
  | .notWord => "NOT"
  | .plus => "PLUS"
  | .minus => "MINUS"
  | .timesOperator => "TIMES_OP"
  | .divided => "DIVIDED"
  | .byOperator => "BY_OP"
  | .equals => "EQUALS"
  | .doesNotEqual => "DOES_NOT_EQUAL"
  | .isGreaterThan => "IS_GREATER_THAN"
  | .isLessThan => "IS_LESS_THAN"
  | .isAtLeast => "IS_AT_LEAST"
  | .isAtMost => "IS_AT_MOST"
  | .increase => "INCREASE"
  | .decrease => "DECREASE"
  | .yes => "YES"
  | .no => "NO"
  | .numberWord => "NUMBER_TYPE"
  | .screen => "SCREEN"
  | .table => "TABLE"
  | .headers => "HEADERS"
  | .data => "DATA"
  | .rows => "ROWS"
  | .useWord => "USE"
  | .install => "INSTALL"
  | .python => "PYTHON"
  | .callWord => "CALL"
  | .server => "SERVER"
  | .port => "PORT"
  | .job => "JOB"
  | .cron => "CRON"
  | .dot => "DOT"
  | .leftBracket => "LBRACKET"
  | .rightBracket => "RBRACKET"
  | .comma => "COMMA"
  | .newline => "NEWLINE"
  | .endOfText => "EOF"

/-- The words that are symbols by themselves. All other words are names. -/
def keywords : List (String × Symbol) :=
  [("is", .isWord), ("becomes", .becomes), ("say", .say), ("print", .printWord),
   ("clear", .clear), ("show", .showWord), ("ask", .ask), ("for", .forWord), ("if", .ifWord),
   ("then", .thenWord), ("otherwise", .otherwise), ("repeat", .repeatWord), ("forever", .forever),
   ("times", .timesWord), ("until", .untilWord), ("do", .doWord), ("break", .breakWord),
   ("continue", .continueWord), ("stop", .stop), ("define", .define), ("with", .withWord),
   ("return", .returnWord), ("end", .endWord), ("when", .when), ("match", .matchWord),
   ("to", .toWord), ("add", .add), ("remove", .remove), ("from", .fromWord), ("at", .atWord),
   ("sort", .sort), ("reverse", .reverse), ("shuffle", .shuffle), ("find", .find),
   ("in", .inWord), ("filter", .filter), ("where", .whereWord), ("map", .map),
   ("using", .usingWord), ("item", .item), ("dictionary", .dictionary), ("object", .object),
   ("split", .split), ("by", .byWord), ("join", .join), ("replace", .replace), ("get", .get),
   ("write", .write), ("read", .read), ("file", .file), ("create", .create), ("canvas", .canvas),
   ("draw", .draw), ("circle", .circle), ("rectangle", .rectangle), ("line", .line),
   ("text", .text), ("color", .color), ("size", .size), ("mouse", .mouse), ("clicks", .clicks),
   ("on", .onWord), ("wait", .wait), ("seconds", .seconds), ("after", .after), ("every", .every),
   ("and", .andWord), ("or", .orWord), ("not", .notWord), ("plus", .plus), ("minus", .minus),
   ("increase", .increase), ("decrease", .decrease), ("yes", .yes), ("no", .no),
   ("number", .numberWord), ("screen", .screen), ("table", .table), ("headers", .headers),
   ("data", .data), ("rows", .rows), ("use", .useWord), ("install", .install),
   ("python", .python), ("call", .callWord), ("server", .server), ("port", .port), ("job", .job),
   ("cron", .cron), ("true", .trueWord), ("false", .falseWord), ("nothing", .nothing),
   ("pi", .pi), ("equals", .equals)]

def ofWord? (word : String) : Option Symbol := keywords.lookup word

end Symbol

inductive Token where
  | number (value : Number)
  | string (value : String)
  | identifier (name : String)
  | symbol (sign : Symbol)
deriving Repr, DecidableEq, Inhabited

def Token.kindName : Token → String
  | .number _ => "NUMBER"
  | .string _ => "STRING"
  | .identifier _ => "IDENTIFIER"
  | .symbol sign => sign.name

/-- A place in a program's text; lines and columns count from one. -/
structure Place where
  line : Nat
  column : Nat
deriving Repr, DecidableEq, Inhabited

def Place.start : Place := ⟨1, 1⟩

def Place.after (place : Place) (c : Char) : Place :=
  if c = '\n' then ⟨place.line + 1, 1⟩ else ⟨place.line, place.column + 1⟩

/-- A token and its place: the column where it begins, and the line that is reached when it has
been read. -/
structure Lexeme where
  token : Token
  place : Place
deriving Repr, DecidableEq, Inhabited

end Parlance
