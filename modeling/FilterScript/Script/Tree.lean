import FilterScript.Script.Token
import FilterScript.Script.Value

/-
The syntax trees of scripts.

Every node that can fail knows its place.  A chain of properties, method calls and indices is one
node, because its parts are evaluated in an order of their own.
-/
namespace FilterScript.Script

/-- An operator between two values. -/
inductive Operator where
  | add
  | sub
  | mul
  | div
  | rem
  | pow
  | shiftLeft
  | shiftRight
  | bitAnd
  | bitOr
  | bitXor
  | eq
  | ne
  | lt
  | le
  | gt
  | ge
  | range
  | closedRange
deriving DecidableEq, Repr

namespace Operator

/-- The mark of an operator. -/
def mark : Operator → String
  | add => "+"
  | sub => "-"
  | mul => "*"
  | div => "/"
  | rem => "%"
  | pow => "**"
  | shiftLeft => "<<"
  | shiftRight => ">>"
  | bitAnd => "&"
  | bitOr => "|"
  | bitXor => "^"
  | eq => "=="
  | ne => "!="
  | lt => "<"
  | le => "<="
  | gt => ">"
  | ge => ">="
  | range => ".."
  | closedRange => "..="

/-- Every operator. -/
def all : List Operator :=
  [add, sub, mul, div, rem, pow, shiftLeft, shiftRight, bitAnd, bitOr, bitXor, eq, ne, lt, le, gt,
   ge, range, closedRange]

/-- The operator of a mark. -/
def ofMark? (m : String) : Option Operator := all.find? fun op => op.mark = m

/-- The operators that may be joined with an assignment. -/
def assignable : List Operator :=
  [add, sub, mul, div, rem, pow, shiftLeft, shiftRight, bitAnd, bitOr, bitXor]

end Operator

/-- An operator in front of a value. -/
inductive Sign where
  | minus
  | plus
  | not
deriving DecidableEq, Repr

/-- The mark of a sign. -/
def Sign.mark : Sign → String
  | minus => "-"
  | plus => "+"
  | not => "!"

/-- An operator that may leave its right side alone. -/
inductive Junction where
  | and
  | or
  /-- The right side where the left is nothing. -/
  | otherwise
deriving DecidableEq, Repr

mutual

/-- An expression. -/
inductive Expr where
  | constant (v : Value) (pos : Position)
  | name (s : String) (pos : Position)
  | this (pos : Position)
  /-- A string with embedded blocks. -/
  | text (parts : List Expr) (pos : Position)
  | array (items : List Expr) (pos : Position)
  | map (members : List (String × Expr)) (pos : Position)
  /-- A function that shares variables with the place where it stands. -/
  | closure (function : String) (shared : List (String × Position)) (pos : Position)
  | call (function : String) (args : List Expr) (pos : Position)
  | sign (s : Sign) (e : Expr) (pos : Position)
  | operation (op : Operator) (left right : Expr) (pos : Position)
  /-- Whether the container holds the item. -/
  | contains (container item : Expr) (pos : Position)
  | junction (j : Junction) (left right : Expr) (pos : Position)
  | chain (root : Expr) (links : List Link)
  | block (body : List Stmt) (pos : Position)

/-- A link of a chain.  An optional link makes nothing of nothing; `op` is the place of its mark. -/
inductive Link where
  | property (s : String) (optional : Bool) (op pos : Position)
  | method (s : String) (args : List Expr) (optional : Bool) (op pos : Position)
  | index (e : Expr) (optional : Bool) (op : Position)

/-- A statement. -/
inductive Stmt where
  | empty (pos : Position)
  | expr (e : Expr)
  | declare (constant : Bool) (name : String) (value : Expr) (pos : Position)
  | assign (op : Option Operator) (target value : Expr) (pos : Position)
  | branch (condition : Expr) (yes no : List Stmt) (pos : Position)
  | choice (subject : Expr) (cases : List Case) (otherwise : Option Expr) (pos : Position)
  /-- A loop; without a condition it never ends by itself.  `inner` is the place of its body. -/
  | loop (condition : Option Expr) (body : List Stmt) (inner pos : Position)
  /-- A loop that tests its condition behind its body, and goes on while that is `expected`. -/
  | loopUntil (body : List Stmt) (condition : Expr) (expected : Bool) (inner pos : Position)
  | iterate (name : String) (counter : Option String) (source : Expr) (body : List Stmt)
      (inner pos : Position)
  | block (body : List Stmt) (pos : Position)
  | attempt (body : List Stmt) (name : Option String) (handler : List Stmt) (pos : Position)
  | leave (value : Option Expr) (pos : Position)
  | continue (pos : Position)
  | answer (value : Option Expr) (pos : Position)
  | throw (value : Option Expr) (pos : Position)

/-- A case of a choice: the values that select it, its condition, and what it gives. -/
inductive Case where
  | mk (values : List Value) (condition : Option Expr) (body : Expr)

end

instance : Inhabited Expr := ⟨.constant .unit .none⟩

instance : Inhabited Stmt := ⟨.empty .none⟩

/-- A function of a script. -/
structure Function where
  name : String
  params : List String
  body : List Stmt
deriving Inhabited

/-- A script: its statements, and the functions that they may call. -/
structure Program where
  body : List Stmt
  functions : List Function
deriving Inhabited

/-- The limits under which a script is read and run.  A size or a number of operations that is zero
is no limit, and so is a depth. -/
structure Limits where
  depth : Nat
  calls : Nat
  bytes : Nat
  items : Nat
  members : Nat
  operations : Nat
deriving DecidableEq, Repr

namespace Expr

/-- The place of an expression. -/
def position : Expr → Position
  | constant _ pos => pos
  | name _ pos => pos
  | this pos => pos
  | text _ pos => pos
  | array _ pos => pos
  | map _ pos => pos
  | closure _ _ pos => pos
  | call _ _ pos => pos
  | sign _ _ pos => pos
  | operation _ _ _ pos => pos
  | contains _ _ pos => pos
  | junction _ _ _ pos => pos
  | chain root links =>
    match links with
    | .property _ _ op _ :: _ => op
    | .method _ _ _ op _ :: _ => op
    | .index _ _ op :: _ => op
    | [] => position root
  | block _ pos => pos

/-- The place where an expression starts. -/
def start : Expr → Position
  | junction _ left _ _ => start left
  | chain root _ => start root
  | e => e.position

mutual

/-- The value of an expression that is written out in full. -/
def literal? : Expr → Option Value
  | constant v _ => some v
  | array items _ => (literals? items).map Value.array
  | map members _ => (literalMembers? members).map Value.ofMembers
  | _ => none

private def literals? : List Expr → Option (List Value)
  | [] => some []
  | e :: es => do return (← literal? e) :: (← literals? es)

private def literalMembers? : List (String × Expr) → Option (List (String × Value))
  | [] => some []
  | (n, e) :: ms => do return (n, ← literal? e) :: (← literalMembers? ms)

end

/-- Whether an expression is written out in full. -/
def isLiteral (e : Expr) : Bool := e.literal?.isSome

end Expr

namespace Stmt

/-- Whether a statement does nothing. -/
def isEmpty : Stmt → Bool
  | empty _ => true
  | _ => false

/-- Whether the end of a statement shows without a semicolon. -/
def isSelfTerminated : Stmt → Bool
  | branch .. => true
  | choice .. => true
  | loop .. => true
  | iterate .. => true
  | block .. => true
  | attempt .. => true
  | empty _ => true
  | _ => false

end Stmt

end FilterScript.Script
