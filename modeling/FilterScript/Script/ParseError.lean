import FilterScript.Script.Token

/-
Why a text is no script.
-/
namespace FilterScript.Script

/-- Why tokens are no script. -/
inductive ParseFault where
  | lexical (f : LexFault)
  /-- The script ends too early. -/
  | incomplete
  | missing (token reason : String)
  | expected (what : String)
  /-- An expression of one kind stands where another is needed. -/
  | mismatch (wanted found : String)
  | noVariable
  | noProperty
  | reserved (word : String)
  | unknownOperator (mark : String)
  | improper (advice : String)
  | duplicateProperty (name : String)
  | duplicateVariable (name : String)
  | duplicateParameter (function name : String)
  | duplicateFunction (name : String) (arity : Nat)
  | nestedFunction
  | unnamedFunction
  | noParameters (function : String)
  | noBody (function : String)
  | constantAssigned (name : String)
  | notAssignable
  | strayBreak
  | defaultNotLast
  | defaultCondition
  | integerBehindRange
  | badIndex (text : String)
  | tooLarge (what : String) (limit : Nat)
  | tooDeep
deriving DecidableEq, Repr

private def inTicks (s : String) : String := "'" ++ s ++ "'"

/-- What is said of a fault. -/
def ParseFault.message : ParseFault → String
  | lexical f => f.message
  | incomplete => "Script is incomplete"
  | missing token reason => "Expecting " ++ inTicks token ++ " " ++ reason
  | expected what => "Expecting " ++ what ++ " expression"
  | mismatch wanted found => "Expecting " ++ wanted ++ ", not " ++ found
  | noVariable => "Expecting name of a variable"
  | noProperty => "Expecting name of a property"
  | reserved word =>
    if word.toList.any fun c => c.isAlphanum || c = '_' then inTicks word ++ " is a reserved keyword"
    else inTicks word ++ " is a reserved symbol"
  | unknownOperator mark => "Unknown operator: " ++ inTicks mark
  | improper advice => advice
  | duplicateProperty name => "Duplicated property for object map literal: " ++ name
  | duplicateVariable name => "Duplicated variable name: " ++ name
  | duplicateParameter function name =>
    "Duplicated parameter " ++ name ++ " for function " ++ function
  | duplicateFunction name arity =>
    let params := match arity with
      | 0 => "no parameters"
      | 1 => "1 parameter"
      | n => toString n ++ " parameters"
    "Function " ++ name ++ " with " ++ params ++ " already exists"
  | nestedFunction =>
    "Function definitions must be at global level and cannot be inside a block or another function"
  | unnamedFunction => "Expecting function name in function declaration"
  | noParameters function => "Expecting parameters for function " ++ function
  | noBody function => "Expecting body statement block for function " ++ function
  | constantAssigned name =>
    if name.isEmpty then "Cannot assign to a constant value" else "Cannot assign to constant " ++ name
  | notAssignable => "Expression cannot be assigned to"
  | strayBreak => "Break statement should only be used inside a loop"
  | defaultNotLast => "Default switch case must be the last"
  | defaultCondition => "This switch case cannot have a condition"
  | integerBehindRange => "Integer switch case cannot follow a range case"
  | badIndex text => text
  | tooLarge what limit => what ++ " exceeds the maximum limit (" ++ toString limit ++ ")"
  | tooDeep => "Expression exceeds maximum complexity"

/-- A fault with its place. -/
structure ParseError where
  fault : ParseFault
  position : Position
deriving DecidableEq, Repr

/-- The text of an error. -/
def ParseError.text (e : ParseError) : String := e.position.mark e.fault.message

end FilterScript.Script
