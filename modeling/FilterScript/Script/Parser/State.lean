import FilterScript.Script.Lexer
import FilterScript.Script.ParseError
import FilterScript.Script.Tree

/-
The state of the parser, and its smallest steps.

The parser looks one token ahead.  It knows which variables are in sight, because a constant must not
be assigned to, and because a function without a name takes the variables that it does not declare
from its surroundings.
-/
namespace FilterScript.Script.Parser

/-! ### The state of the parser -/

/-- A variable in sight. -/
structure Local where
  name : String
  constant : Bool
deriving Repr

/-- The state of the parser. -/
structure State where
  tokens : List Lexer.Lexeme
  /-- The variables of the function that is being read, the newest first. -/
  locals : List Local
  /-- Names that a closure uses and does not declare. -/
  outer : List (String × Position)
  functions : List Function
  /-- A bar ends the expression. -/
  stopsAtBar : Bool

/-- What a rule has to know of its surroundings. -/
structure Settings where
  limits : Limits
  level : Nat
  position : Position
  /-- Outside of every block. -/
  isGlobal : Bool
  inLoop : Bool
  inFunction : Bool

/-- A rule of the grammar. -/
abbrev Rule := StateT State (Except ParseError)

/-- Gives up. -/
def fail {α : Type} (f : ParseFault) (p : Position) : Rule α := throw ⟨f, p⟩

/-- One level deeper, at the place where the settings stand. -/
def Settings.deeper (s : Settings) : Rule Settings :=
  if 0 < s.limits.depth ∧ s.limits.depth ≤ s.level then fail .tooDeep s.position
  else return { s with level := s.level + 1 }

/-- The settings at another place. -/
def Settings.moved (s : Settings) (p : Position) : Settings := { s with position := p }

/-- One level deeper at a place. -/
def Settings.deeperAt (s : Settings) (p : Position) : Rule Settings := (s.moved p).deeper

/-- The token ahead. -/
def peek : Rule Lexer.Lexeme := return (← get).tokens.headD ⟨.finish, .none⟩

/-- Takes the token ahead.  The end of the script stays. -/
def next : Rule Lexer.Lexeme := do
  let s ← get
  match s.tokens with
  | [] => return ⟨.finish, .none⟩
  | [l] => return l
  | l :: rest =>
    set { s with tokens := rest }
    return l

/-- Whether a token is a mark. -/
def isMark (m : String) : Token → Bool
  | .mark s => s = m
  | _ => false

/-- Whether a token is a keyword. -/
def isWord (w : String) : Token → Bool
  | .word s => s = w
  | _ => false

/-- Takes the token ahead if it is a mark. -/
def takeMark (m : String) : Rule Bool := do
  if isMark m (← peek).token then
    let _ ← next
    return true
  else return false

/-- Takes the token ahead if it is a word. -/
def takeWord (w : String) : Rule Bool := do
  if isWord w (← peek).token then
    let _ ← next
    return true
  else return false

/-- The fault of a token that does not fit: its own if it is broken. -/
def misfit (l : Lexer.Lexeme) (f : ParseFault) : ParseError :=
  match l.token with
  | .fault g => ⟨.lexical g, l.position⟩
  | _ => ⟨f, l.position⟩

/-- Takes a mark that must come next. -/
def needMark (m reason : String) : Rule Unit := do
  let l ← next
  if isMark m l.token then return ()
  else throw (misfit l (.missing m reason))

/-- How many steps a list of things can take at most. -/
def budget : Rule Nat := return (← get).tokens.length + 1

/-- The mark that stands around parameters and between the values of a case. -/
def bar : String := "|"

/-! ### Variables -/

/-- Notes the declaration of a variable. -/
def declare (name : String) (constant : Bool) : Rule Unit :=
  modify fun s => { s with locals := ⟨name, constant⟩ :: s.locals }

/-- Runs a rule, and forgets the variables that it declared. -/
def enclosed {α : Type} (r : Rule α) : Rule α := do
  let n := (← get).locals.length
  let a ← r
  modify fun s => { s with locals := s.locals.drop (s.locals.length - n) }
  return a

/-- The variable in sight under a name. -/
def local? (name : String) : Rule (Option Local) :=
  return (← get).locals.find? fun l => l.name = name

/-- Notes the use of a variable.  One that is not in sight belongs to the surroundings, unless it is
a function. -/
def access (name : String) (pos : Position) : Rule Unit := do
  let s ← get
  let known := s.locals.any (fun l => l.name = name) || s.functions.any (fun f => f.name = name)
    || s.outer.any (fun o => o.1 = name)
  if known then return () else set { s with outer := s.outer ++ [(name, pos)] }

/-- The name of a variable. -/
def variableName : Rule (String × Position) := do
  let l ← next
  match l.token with
  | .name s => return (s, l.position)
  | .reserved s =>
    if Token.callableWords.contains s || Token.reservedWords.contains s then
      fail (.reserved s) l.position
    else fail .noVariable l.position
  | _ => throw (misfit l .noVariable)

/-! ### Kinds of expressions -/

private def literalKind : Value → Option String
  | .unit => some "()"
  | .int _ => some "a number"
  | .float _ => some "a floating-point number"
  | .char _ => some "a character"
  | .string _ => some "a string"
  | .array _ => some "an array"
  | .map _ => some "an object map"
  | _ => none

private def writtenKind : Expr → Option String
  | .constant v _ => literalKind v
  | .array .. => some "an array"
  | .map .. => some "an object map"
  | .text .. => some "a string"
  | _ => none

/-- Refuses an expression that cannot be a truth value. -/
def needBool (e : Expr) : Rule Expr :=
  match writtenKind e with
  | some k => fail (.mismatch "a boolean expression" k) e.start
  | none => return e

private def scalarKind : Value → Option String
  | .unit => some "()"
  | .bool _ => some "a boolean"
  | .int _ => some "a number"
  | .float _ => some "a floating-point number"
  | .char _ => some "a character"
  | .map _ => some "an object map"
  | _ => none

/-- Refuses an expression that cannot be iterated. -/
def needIterable (e : Expr) : Rule Expr :=
  let found := match e with
    | .constant v _ => scalarKind v
    | .map .. => some "an object map"
    | .junction .. => some "a boolean"
    | _ => none
  match found with
  | some k => fail (.mismatch "an iterable value" k) e.start
  | none => return e

/-- Refuses a block, and the end of the script, where an expression must stand. -/
def needNoBlock : Rule Unit := do
  let l ← peek
  if isMark "\x7b" l.token || l.token = .finish then fail (.expected "a boolean") l.position

/-- What a token assigns: nothing, a value, or a value through an operator. -/
def assignmentMark? : Token → Option (Option Operator)
  | .mark s =>
    if s = "=" then some none
    else (Operator.assignable.find? fun op => op.mark ++ "=" = s).map some
  | _ => none

/-- Refuses an assignment behind a condition. -/
def needNoAssignment : Rule Unit := do
  let l ← peek
  match assignmentMark? l.token with
  | some none => fail (.improper "Possibly a typo of '=='?") l.position
  | some (some _) =>
    fail (.improper "Expecting a boolean expression, not an assignment") l.position
  | none => return ()

end FilterScript.Script.Parser
