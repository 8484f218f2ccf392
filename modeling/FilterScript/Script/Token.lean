import FilterScript.Number.Text

/-
The tokens of a script.
-/
namespace FilterScript.Script

/-- A place in a script, counted from one; line zero is no place. -/
structure Position where
  line : Nat
  column : Nat
deriving DecidableEq, Repr, Inhabited

namespace Position

/-- No place. -/
def none : Position := ⟨0, 0⟩

/-- Whether a position is no place. -/
def isNone (p : Position) : Bool := p.line = 0

/-- A place as messages name it. -/
def text (p : Position) : String :=
  if p.isNone then "none"
  else "line " ++ toString p.line ++ ", position " ++ toString p.column

/-- A message with its place behind it, if it has one. -/
def mark (p : Position) (message : String) : String :=
  if p.isNone then message else message ++ " (" ++ p.text ++ ")"

end Position

/-- Why a text falls into no tokens. -/
inductive LexFault where
  | unexpected (text : String)
  | openString
  | longString (limit : Nat)
  | escape (text : String)
  | number (text : String)
  | char (text : String)
  | name (text : String)
  /-- Something that other languages have. -/
  | improper (advice : String)
deriving DecidableEq, Repr

/-- What is said of a fault. -/
def LexFault.message : LexFault → String
  | unexpected text => "Unexpected '" ++ text ++ "'"
  | openString => "Open string is not terminated"
  | longString limit =>
    "Length of string exceeds the maximum limit (" ++ toString limit ++ ")"
  | escape text => "Invalid escape sequence: '" ++ text ++ "'"
  | number text => "Invalid number: '" ++ text ++ "'"
  | char text => "Invalid character: '" ++ text ++ "'"
  | name text => "Variable name is not proper: '" ++ text ++ "'"
  | improper advice => advice

/-- A token. -/
inductive Token where
  | int (i : Int)
  | float (x : Single) (text : String)
  | char (c : Char)
  | string (s : String)
  /-- The part of a string in front of an embedded block. -/
  | stringPart (s : String)
  | name (s : String)
  /-- A keyword. -/
  | word (s : String)
  /-- An operator or a mark of punctuation. -/
  | mark (s : String)
  /-- A word or mark that means nothing yet but may not be used. -/
  | reserved (s : String)
  | fault (f : LexFault)
  | finish
deriving DecidableEq, Repr, Inhabited

namespace Token

/-- The text of a token in messages. -/
def text : Token → String
  | int i => toString i
  | float _ text => text
  | char c => c.toString
  | string s => String.ofList [Char.ofNat 34] ++ s ++ String.ofList [Char.ofNat 34]
  | stringPart _ => "string"
  | name s => s
  | word s => s
  | mark s => s
  | reserved s => s
  | fault f => f.message
  | finish => "\x7bEOF\x7d"

/-- The keywords. -/
def words : List String :=
  ["true", "false", "let", "const", "if", "else", "switch", "do", "while", "until", "loop", "for",
   "in", "continue", "break", "return", "throw", "try", "catch", "fn", "private"]

/-- Reserved words that may be called like functions. -/
def callableWords : List String :=
  ["print", "debug", "type_of", "eval", "Fn", "call", "curry", "is_shared", "is_def_var",
   "is_def_fn"]

/-- The other reserved words. -/
def reservedWords : List String :=
  ["this", "import", "export", "as", "global", "var", "static", "shared", "goto", "match", "case",
   "public", "protected", "new", "use", "with", "module", "package", "super", "thread", "spawn",
   "go", "await", "async", "sync", "yield", "default", "void", "null", "nil", "is", "begin", "end"]

/-- Whether a minus sign behind this token stands for a negation. -/
def isBeforeUnary : Token → Bool
  | mark s => !([")", "]", "\x7d", ".", "?.", "??", "=>", "()", "_"].contains s)
  | word s => ["if", "while", "until", "in", "switch", "return", "throw"].contains s
  | fault _ => true
  | _ => false

end Token

end FilterScript.Script
