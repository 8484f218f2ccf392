import FilterScript.Primitive.Basic
import FilterScript.Script.Arithmetic

/-
The machine on which a script runs: its variables, its budget, and the context of its primitives.

What a script does is a computation over the machine that may be interrupted, by an error or by a
jump.  The machine survives the interruption, so that a script which catches an error goes on with
everything that was changed before.
-/
namespace FilterScript.Script

/-- A variable. -/
structure Variable where
  name : String
  constant : Bool
  value : Value

/-- The state of a running script. -/
structure Machine where
  limits : Limits
  context : Context
  /-- The variables in sight, the newest first. -/
  scope : List Variable
  /-- The receiver of the function that is running. -/
  this : Option Value
  /-- The variables that functions share. -/
  cells : List Value
  functions : List Function
  operations : Nat
  /-- How many functions are running. -/
  level : Nat

/-- Why a computation does not go on. -/
inductive Interrupt where
  | error (e : Error)
  /-- Leave the loop with a value. -/
  | leave (v : Value)
  | continue
  /-- Leave the function with a value. -/
  | answer (v : Value)
  /-- End the script. -/
  | exit

/-- What a script does. -/
abbrev Eval := ExceptT Interrupt (StateT Machine Thread)

namespace Eval

variable {α : Type}

/-- Fails at a place. -/
def fail (f : Fault) (pos : Position) : Eval α := throw (.error (.at f pos))

/-- What an operation on values answers, failing at a place. -/
def ofAnswer (a : Except String α) (pos : Position) : Eval α :=
  match a with
  | .ok v => pure v
  | .error text => fail (.arithmetic text) pos

/-- The part of a value that was asked for, failing at a place. -/
def ofPart (a : Except Fault α) (pos : Position) : Eval α :=
  match a with
  | .ok v => pure v
  | .error f => fail f pos

/-- An action on the context.  Where the run was cancelled it fails at a place. -/
def act (a : Action α) (pos : Position) : Eval α := fun m => do
  let (r, c) ← (a.run).run m.context
  let m := { m with context := c }
  match r with
  | .ok v => return (.ok v, m)
  | .error _ => return (.error (.error (.at .terminated pos)), m)

/-- Counts one operation.  Too many are an error, and so is each once the run was cancelled. -/
def tick (pos : Position) : Eval Unit := do
  let m ← get
  let n := m.operations + 1
  set { m with operations := n }
  if 0 < m.limits.operations ∧ m.limits.operations < n then fail .tooManyOperations pos
  else act Action.checkpoint pos

/-- Runs a computation, and whatever becomes of it, changes the machine afterwards. -/
def concluding (e : Eval α) (f : Machine → Machine) : Eval α := fun m => do
  let (r, m) ← e m
  return (r, f m)

/-- Runs a computation, and answers whether it was interrupted. -/
def attempt (e : Eval α) : Eval (Except Interrupt α) := fun m => do
  let (r, m) ← e m
  return (.ok r, m)

/-- Runs a computation whose variables end with it. -/
def enclosed (e : Eval α) : Eval α := do
  let n := (← get).scope.length
  concluding e fun m => { m with scope := m.scope.drop (m.scope.length - n) }

/-! ### Variables -/

/-- Declares a variable. -/
def declare (name : String) (constant : Bool) (v : Value) : Eval Unit :=
  modify fun m => { m with scope := ⟨name, constant, v⟩ :: m.scope }

/-- The number of the variable in sight under a name, counted from the newest. -/
def find? (name : String) : Eval (Option Nat) :=
  return (← get).scope.findIdx? fun v => v.name = name

/-- Sets a shared variable. -/
def setCell (i : Nat) (v : Value) : Eval Unit :=
  modify fun m => { m with cells := m.cells.set i v }

/-- The value that may stand behind a shared variable. -/
def content (v : Value) : Eval Value := do
  match v with
  | .cell i => return (← get).cells.getD i .unit
  | v => return v

/-- The variable of a number. -/
def variableAt? (i : Nat) : Eval (Option Variable) := do
  match (← get).scope[i]? with
  | some x => return some { x with value := ← content x.value }
  | none => return none

/-- Sets the variable of a number. -/
def setVariable (i : Nat) (v : Value) : Eval Unit := do
  let m ← get
  match m.scope[i]? with
  | some x =>
    match x.value with
    | .cell c => setCell c v
    | _ => set { m with scope := m.scope.set i { x with value := v } }
  | none => return ()

/-- Sets the receiver. -/
def setThis (v : Value) : Eval Unit := do
  let m ← get
  match m.this with
  | some (.cell c) => setCell c v
  | some _ => set { m with this := some v }
  | none => return ()

/-- Shares a variable: from now on it stands in a cell. -/
def share (i : Nat) : Eval Value := do
  let m ← get
  match m.scope[i]? with
  | some x =>
    match x.value with
    | .cell c => return .cell c
    | v =>
      let c := m.cells.length
      set { m with cells := m.cells ++ [v], scope := m.scope.set i { x with value := .cell c } }
      return .cell c
  | none => return .unit

/-- The constants that are in sight everywhere. -/
def global? : String → Option Value
  | "TAU" => some (.float (Decimal.toSingle false ⟨62831855, -7⟩))
  | "PI" => some (.float (Decimal.toSingle false ⟨31415927, -7⟩))
  | "log" => some .log
  | _ => none

/-- The value of a name that no variable in sight has: a global constant, or a function of the
script. -/
def outside? (name : String) : Eval (Option Value) := do
  match global? name with
  | some v => return some v
  | none =>
    if (← get).functions.any fun f => f.name = name then return some (.function name [])
    else return none

/-- The value of a name. -/
def lookup (name : String) (pos : Position) : Eval Value := do
  match ← find? name with
  | some i =>
    match ← variableAt? i with
    | some x => return x.value
    | none => fail (.unknownVariable name) pos
  | none =>
    match ← outside? name with
    | some v => return v
    | none => fail (.unknownVariable name) pos

/-! ### Sizes -/

/-- What of a value is too large, if anything. -/
def excess? (l : Limits) (s : Value.Size) : Option String :=
  if 0 < l.bytes ∧ l.bytes < s.bytes then some "Length of string"
  else if 0 < l.items ∧ l.items < s.items then some "Size of array/BLOB"
  else if 0 < l.members ∧ l.members < s.members then some "Size of object map"
  else none

/-- Refuses a value that is too large. -/
def checkSize (v : Value) (pos : Position) : Eval Unit := do
  match excess? (← get).limits v.size with
  | some what => fail (.tooLarge what) pos
  | none => return ()

end Eval

end FilterScript.Script
