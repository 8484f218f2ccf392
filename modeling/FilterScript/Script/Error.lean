import FilterScript.Script.ParseError
import FilterScript.Script.Value

/-
What can go wrong while a script runs.

A fault says what went wrong.  An error also says where, and through which functions it came.
-/
namespace FilterScript.Script

/-- What went wrong. -/
inductive Fault where
  /-- A text that was to be run is no script. -/
  | unreadable (error : ParseError)
  | unknownVariable (name : String)
  | unknownFunction (signature : String)
  | unboundThis
  | mismatch (wanted found : String)
  | arrayBounds (size : Nat) (index : Int)
  | stringBounds (size : Nat) (index : Int)
  | bitBounds (index : Int)
  | notIndexable (signature : String)
  | noProperty (name kind : String) (toSet : Bool)
  | notIterable
  | constantModified (name : String)
  | constantReceiver (method : String)
  | arithmetic (text : String)
  | tooLarge (what : String)
  | tooManyOperations
  | stackOverflow
  /-- The run was replaced. -/
  | terminated
  /-- A value that was thrown, by the script or by a primitive. -/
  | thrown (v : Value)
deriving Repr

namespace Fault

private def count (n : Nat) (thing : String) : String :=
  if n = 1 then "only 1 " ++ thing else "only " ++ toString n ++ " " ++ thing ++ "s"

private def bounds (what : String) (index : Int) (size : Nat) (thing container : String) : String :=
  what ++ " index " ++ toString index ++ " out of bounds: " ++
    (if size = 0 then container ++ " is empty" else count size thing ++ " in " ++ container)

/-- What is said of a fault. -/
def message : Fault → String
  | unreadable error => "Syntax error: " ++ error.text
  | unknownVariable name => "Variable not found: " ++ name
  | unknownFunction signature => "Function not found: " ++ signature
  | unboundThis => "'this' not bound"
  | mismatch wanted found => "Data type incorrect: " ++ found ++ " (expecting " ++ wanted ++ ")"
  | arrayBounds size index => bounds "Array" index size "element" "array"
  | stringBounds size index => bounds "String" index size "character" "string"
  | bitBounds index => bounds "Bit-field" index 64 "bit" "bit-field"
  | notIndexable signature => "Indexer unavailable: " ++ signature
  | noProperty name kind toSet =>
    "Unknown property '" ++ name ++ "' - a " ++ (if toSet then "setter" else "getter")
      ++ " is not registered for type '" ++ kind ++ "'"
  | notIterable => "For loop expects iterable type"
  | constantModified name => "Cannot modify constant " ++ name
  | constantReceiver method => "Non-pure method '" ++ method ++ "' cannot be called on constant"
  | arithmetic text => text
  | tooLarge what => what ++ " too large"
  | tooManyOperations => "Too many operations"
  | stackOverflow => "Stack overflow"
  | terminated => "Script terminated"
  | thrown v => if v.shown.isEmpty then "Runtime error" else "Runtime error: " ++ v.shown

/-- Whether a fault is one of the machine, which no script can catch. -/
def isSystem : Fault → Bool
  | unreadable _ => true
  | tooLarge _ => true
  | tooManyOperations => true
  | stackOverflow => true
  | terminated => true
  | _ => false

end Fault

/-- A fault with its place, inside the calls that it came through. -/
inductive Error where
  | at (fault : Fault) (position : Position)
  | inCall (function : String) (error : Error) (position : Position)
deriving Repr

namespace Error

/-- Where an error shows: for one that came through functions, at the outermost call. -/
def position : Error → Position
  | .at _ pos => pos
  | inCall _ _ pos => pos

/-- What went wrong in the first place. -/
def fault : Error → Fault
  | .at f _ => f
  | inCall _ e _ => e.fault

/-- The same error at another place. -/
def moved (pos : Position) : Error → Error
  | .at f _ => .at f pos
  | inCall f e _ => inCall f e pos

private def isAnonymous (function : String) : Bool := "anon$".toList.isPrefixOf function.toList

/-- The text of an error: a line for what went wrong, and one for each call. -/
def text : Error → String
  | .at f pos => pos.mark f.message
  | inCall f e pos =>
    e.text ++ "\n" ++ pos.mark (if isAnonymous f then "in call to closure"
      else "in call to function '" ++ f ++ "'")

end Error

end FilterScript.Script
