import FilterScript.Script.Machine
import FilterScript.Script.Parser
import FilterScript.Script.Place

/-
Calls.

A function of the script comes before a primitive, and a primitive before the library.  Every rule of
evaluation that needs another rule takes it from an `Evaluator`, so that no rule is recursive by
itself.
-/
namespace FilterScript.Script

/-- The rules of evaluation that others refer to. -/
structure Evaluator where
  expr : Expr → Eval Value
  stmt : Stmt → Eval Value
  /-- Goes on with a loop whose statement was counted before. -/
  loop : Stmt → Eval Value

namespace Evaluator

open Eval

/-- The value of the last of some statements. -/
def stmts (ev : Evaluator) : List Stmt → Eval Value
  | [] => return .unit
  | [s] => ev.stmt s
  | s :: rest => do
    let _ ← ev.stmt s
    ev.stmts rest

/-- The value of a block, whose variables end with it. -/
def block (ev : Evaluator) (body : List Stmt) : Eval Value := enclosed (ev.stmts body)

/-- A truth value. -/
def needBool (v : Value) (pos : Position) : Eval Bool :=
  match v with
  | .bool b => return b
  | v => fail (.mismatch "bool" v.kind) pos

/-- The value of a condition. -/
def condition (ev : Evaluator) (e : Expr) : Eval Bool := do needBool (← ev.expr e) e.position

/-! ### Functions of the script -/

def answered (f : Function) (pos : Position) (r : Except Interrupt Value) : Eval Value :=
  match r with
  | .ok v => return v
  | .error (.answer v) => return v
  | .error (.error e) =>
    if e.fault.isSystem then throw (.error (e.moved pos)) else throw (.error (.inCall f.name e pos))
  | .error i => throw i

/-- Calls a function of the script.  It sees its parameters and no other variable.  Answers also what
became of its receiver, whether the call succeeded or not. -/
def callFunction (ev : Evaluator) (f : Function) (args : List Value) (this : Option Value)
    (pos : Position) : Eval (Except Interrupt Value × Option Value) := do
  tick pos
  let m ← get
  if m.limits.calls < m.level + 1 then fail .stackOverflow pos
  else
    let params := (f.params.zip args).map fun (name, v) => (⟨name, false, v⟩ : Variable)
    set { m with scope := params.reverse, this := this, level := m.level + 1 }
    let r ← attempt (ev.stmts f.body)
    let this' := (← get).this
    modify fun m' => { m' with scope := m.scope, this := m.this, level := m.level }
    let r ← attempt (answered f pos r)
    return (r, this')

/-- The function of the script of a name and a number of parameters. -/
def function? (name : String) (arity : Nat) : Eval (Option Function) :=
  return (← get).functions.find? fun f => f.name = name ∧ f.params.length = arity

/-- What an attempt answered. -/
def ofAttempt {α : Type} : Except Interrupt α → Eval α
  | .ok a => return a
  | .error i => throw i

/-! ### Functions outside the script -/

/-- The signature of a call. -/
def signature (name : String) (args : List Value) : String :=
  name ++ " (" ++ String.intercalate ", " (args.map Value.signature) ++ ")"

/-- Prints a text. -/
def printed (level : LogLevel) (text : String) (pos : Position) : Eval Library.Effect := do
  let _ ← act (Action.log level text) pos
  return ⟨.unit, none⟩

private def inspectedAt (text : String) (pos : Position) : String :=
  if pos.isNone then text else "[" ++ pos.text ++ "] " ++ text

/-- Runs the text of a script in the scope where the call stands. -/
def runText (ev : Evaluator) (script : String) (pos : Position) : Eval Value := do
  tick pos
  let script := script.trimAscii.toString
  let m ← get
  let r ← attempt do
    match parse m.limits script with
    | .error e => fail (.unreadable e) pos
    | .ok p =>
      if p.functions.isEmpty then ev.stmts p.body
      else fail (.unreadable ⟨.nestedFunction, .none⟩) pos
  match r with
  | .error (.answer v) => return v
  | .error (.error e) => throw (.error (.inCall "eval" e pos))
  | r => ofAttempt r

/-- What the call of a primitive gives, or its refusal as an error. -/
def given (pos : Position) : Primitive.Result → Eval Library.Effect
  | .ok v => do
    checkSize v pos
    return ⟨v, none⟩
  | .error refusal => fail (.thrown refusal.value) pos

/-- Calls a function that is not of the script; answers also its first argument where that was
changed. -/
def callOutside (name : String) (args : List Value) (pos : Position) : Eval Library.Effect := do
  let m ← get
  match Primitive.select m.limits.items name args with
  | some (.ok command) => given pos (← act (Primitive.perform command) pos)
  | some (.error refusal) => given pos (.error refusal)
  | none =>
    match name, args with
    | "print", [] => printed .info "" pos
    | "print", [v] => printed .info v.text pos
    | "debug", [] => printed .debug (inspectedAt "" pos) pos
    | "debug", [v] => printed .debug (inspectedAt v.inspected pos) pos
    | "type_of", [v] => return ⟨.string v.kind, none⟩
    | "exit", [] => throw .exit
    | "exit", [_] => throw .exit
    | "Fn", [.string f] => return ⟨.function f [], none⟩
    | "is_def_var", [.string x] => return ⟨.bool (← find? x).isSome, none⟩
    | "is_def_fn", [.string f, .int n] =>
      return ⟨.bool (m.functions.any fun g => g.name = f ∧ (g.params.length : Int) = n), none⟩
    | _, _ =>
      match Library.call? name args with
      | some r =>
        let e ← ofAnswer r pos
        checkSize e.result pos
        match e.receiver with
        | some v => checkSize v pos
        | none => pure ()
        return e
      | none => fail (.unknownFunction (signature name args)) pos

/-! ### Functions as values -/

/-- Calls a function value. -/
def callValue (ev : Evaluator) (name : String) (bound args : List Value) (pos : Position) :
    Eval Value := do
  let all := bound ++ args
  match ← function? name all.length with
  | some f =>
    let (r, _) ← ev.callFunction f all none pos
    ofAttempt r
  | none => return (← callOutside name (← all.mapM content) pos).result

/-- Calls a function value with an item of an array, and with its place if the function takes two
arguments; a function that takes none has the item as its receiver. -/
def callOnItem (ev : Evaluator) (name : String) (bound : List Value) (item : Value)
    (i : Nat) (pos : Position) : Eval Value := do
  match ← function? name (bound.length + 1), ← function? name (bound.length + 2),
      ← function? name bound.length with
  | none, some f, _ =>
    let (r, _) ← ev.callFunction f (bound ++ [item, .int i]) none pos
    ofAttempt r
  | none, none, some f =>
    let (r, _) ← ev.callFunction f bound (some item) pos
    ofAttempt r
  | _, _, _ => ev.callValue name bound [item] pos

private def truthOf : Value → Bool
  | .bool b => b
  | _ => false

/-- Parts the items after those that were parted before, which stand in the opposite order. -/
def partedAfter (ev : Evaluator) (name : String) (bound : List Value) (pos : Position) :
    List Value → List Value → Nat → List Value → Eval (List Value × List Value)
  | yes, no, _, [] => return (yes.reverse, no.reverse)
  | yes, no, i, x :: xs => do
    if truthOf (← callOnItem ev name bound x i pos) then
      partedAfter ev name bound pos (x :: yes) no (i + 1) xs
    else partedAfter ev name bound pos yes (x :: no) (i + 1) xs

/-- The items for which a function holds, and the others. -/
def parted (ev : Evaluator) (name : String) (bound : List Value) (pos : Position)
    (xs : List Value) : Eval (List Value × List Value) :=
  partedAfter ev name bound pos [] [] 0 xs

/-- The place of the first item for which a function has the wanted truth value. -/
def firstThat (ev : Evaluator) (wanted : Bool) (name : String) (bound : List Value)
    (pos : Position) : Nat → List Value → Eval (Option Nat)
  | _, [] => return none
  | i, x :: xs => do
    if truthOf (← callOnItem ev name bound x i pos) = wanted then return some i
    else firstThat ev wanted name bound pos (i + 1) xs

/-- Maps the items after those whose values stand in the opposite order. -/
def mappedAfter (ev : Evaluator) (name : String) (bound : List Value) (pos : Position) :
    List Value → Nat → List Value → Eval (List Value)
  | done, _, [] => return done.reverse
  | done, i, x :: xs => do
    let v ← callOnItem ev name bound x i pos
    mappedAfter ev name bound pos (v :: done) (i + 1) xs

/-- The values of a function at every item. -/
def mapped (ev : Evaluator) (name : String) (bound : List Value) (pos : Position)
    (xs : List Value) : Eval (List Value) :=
  mappedAfter ev name bound pos [] 0 xs

/-- Folds a function over some items. -/
def reduced (ev : Evaluator) (name : String) (bound : List Value) (pos : Position) :
    Nat → Value → List Value → Eval Value
  | _, acc, [] => return acc
  | i, acc, x :: xs => do
    let v ←
      match ← function? name (bound.length + 2), ← function? name (bound.length + 3) with
      | none, some _ => ev.callValue name bound [acc, x, .int i] pos
      | _, _ => ev.callValue name bound [acc, x] pos
    reduced ev name bound pos (i + 1) v xs

private def isBefore : Value → Bool
  | .int i => i ≤ 0
  | .bool b => b
  | _ => false

/-- Puts an item behind those that come before it. -/
def insertSorted (ev : Evaluator) (name : String) (bound : List Value) (pos : Position)
    (x : Value) : List Value → Eval (List Value)
  | [] => return [x]
  | y :: ys => do
    if isBefore (← ev.callValue name bound [y, x] pos) then
      return y :: (← insertSorted ev name bound pos x ys)
    else return x :: y :: ys

/-- Sorts some items into those that are sorted. -/
def sortedBy (ev : Evaluator) (name : String) (bound : List Value) (pos : Position) :
    List Value → List Value → Eval (List Value)
  | done, [] => return done
  | done, x :: xs => do
    sortedBy ev name bound pos (← insertSorted ev name bound pos x done) xs

/-- Functions of the library that call back into the script; nothing if it is none of them. -/
def callBack (ev : Evaluator) (name : String) (args : List Value) (pos : Position) :
    Eval (Option Library.Effect) := do
  let gives (v : Value) : Eval (Option Library.Effect) := return some ⟨v, none⟩
  match name, args with
  | "map", [.array xs, .function f bound] => gives (.array (← mapped ev f bound pos xs))
  | "filter", [.array xs, .function f bound] => gives (.array (← parted ev f bound pos xs).1)
  | "for_each", [.array xs, .function f bound] =>
    let _ ← mapped ev f bound pos xs
    gives .unit
  | "reduce", [.array xs, .function f bound] => gives (← reduced ev f bound pos 0 .unit xs)
  | "reduce", [.array xs, .function f bound, v] => gives (← reduced ev f bound pos 0 v xs)
  | "some", [.array xs, .function f bound] =>
    gives (.bool (← firstThat ev true f bound pos 0 xs).isSome)
  | "all", [.array xs, .function f bound] =>
    gives (.bool (← firstThat ev false f bound pos 0 xs).isNone)
  | "find", [.array xs, .function f bound] =>
    match ← firstThat ev true f bound pos 0 xs with
    | some i => gives (xs.getD i .unit)
    | none => gives .unit
  | "index_of", [.array xs, .function f bound] =>
    match ← firstThat ev true f bound pos 0 xs with
    | some i => gives (.int i)
    | none => gives (.int (-1))
  | "retain", [.array xs, .function f bound] =>
    let (yes, no) ← parted ev f bound pos xs
    return some ⟨.array no, some (.array yes)⟩
  | "drain", [.array xs, .function f bound] =>
    let (yes, no) ← parted ev f bound pos xs
    return some ⟨.array yes, some (.array no)⟩
  | "sort", [.array xs, .function f bound] =>
    return some ⟨.unit, some (.array (← sortedBy ev f bound pos [] xs))⟩
  | "call", .function f bound :: args => gives (← ev.callValue f bound args pos)
  | "curry", .function f bound :: args => gives (.function f (bound ++ args))
  | _, _ => return none

/-- Calls a function that is not of the script, be it one that calls back or not. -/
def callAny (ev : Evaluator) (name : String) (args : List Value) (pos : Position) :
    Eval Library.Effect := do
  match ← ev.callBack name args pos with
  | some e => return e
  | none => callOutside name args pos

end Evaluator

end FilterScript.Script
