import FilterScript.Script.Evaluator.Chain

/-
Expressions and statements.
-/
namespace FilterScript.Script

namespace Evaluator

open Eval

/-! ### Expressions -/

def textOf (ev : Evaluator) : String → List Expr → Eval String
  | done, [] => return done
  | done, e :: es => do
    let v ← ev.expr e
    let s := done ++ v.text
    checkSize (.string s) e.position
    textOf ev s es

/-- The items of an array. -/
def itemsOf (ev : Evaluator) : Value.Size → List Expr → Eval (List Value)
  | _, [] => return []
  | size, e :: es => do
    let v ← ev.expr e
    let size := (size.add v.size).add ⟨1, 0, 0⟩
    match excess? (← get).limits size with
    | some what => fail (.tooLarge what) e.position
    | none => return v :: (← itemsOf ev size es)

/-- The members of a map. -/
def membersOf (ev : Evaluator) : Value.Size → List (String × Expr) →
    Eval (List (String × Value))
  | _, [] => return []
  | size, (name, e) :: ms => do
    let v ← ev.expr e
    let size := (size.add v.size).add ⟨0, 1, 0⟩
    match excess? (← get).limits size with
    | some what => fail (.tooLarge what) e.position
    | none => return (name, v) :: (← membersOf ev size ms)

/-- The variables that a function shares. -/
def shared : List (String × Position) → Eval (List Value)
  | [] => return []
  | (name, pos) :: rest => do
    let v ← match ← find? name with
      | some n => share n
      | none =>
        match ← outside? name with
        | some v => pure v
        | none => fail (.unknownVariable name) pos
    return v :: (← shared rest)

/-- A call whose arguments are values. -/
def callWith (ev : Evaluator) (name : String) (args : List Value) (pos : Position) :
    Eval Value := do
  match ← function? name args.length with
  | some f =>
    let (r, _) ← ev.callFunction f args none pos
    ofAttempt r
  | none => return (← ev.callAny name args pos).result

/-- A call whose first argument is a variable, which the function may change. -/
def callOnName (ev : Evaluator) (name x : String) (xpos : Position) (args : List Expr)
    (pos : Position) : Eval Value := do
  let vs ← args.mapM ev.expr
  tick xpos
  let t ← targetOfName x xpos
  match ← function? name (vs.length + 1) with
  | some f =>
    let (r, _) ← ev.callFunction f (t.value :: vs) none pos
    ofAttempt r
  | none =>
    let e ← ev.callAny name (t.value :: vs) pos
    match e.receiver, t.constant with
    | some v, none => t.store v
    | _, _ => pure ()
    return e.result

/-- A call. -/
def callRule (ev : Evaluator) (name : String) (args : List Expr) (pos : Position) : Eval Value := do
  match name, args with
  | "eval", [e] =>
    match ← ev.expr e with
    | .string s => ev.runText s e.position
    | v => fail (.mismatch "string" v.kind) e.position
  | name, .name x xpos :: rest => callOnName ev name x xpos rest pos
  | name, args => callWith ev name (← args.mapM ev.expr) pos

/-- An operation on values. -/
def operate (ev : Evaluator) (op : Operator) (x y : Value) (pos : Position) :
    Eval Value := do
  match op.on? x y with
  | some r =>
    let v ← ofAnswer r pos
    match v with
    | .string _ => checkSize v pos
    | _ => pure ()
    return v
  | none => return (← ev.callAny op.mark [x, y] pos).result

/-- Whether an expression is a call, which counts once where it stands as a statement. -/
def isCall : Expr → Bool
  | .call .. => true
  | .sign .. => true
  | .operation .. => true
  | .contains .. => true
  | _ => false

/-- The value of an expression that was counted. -/
def exprRule (ev : Evaluator) (e : Expr) : Eval Value := do
  match e with
  | .constant v _ => return v
  | .name x pos => lookup x pos
  | .this pos => thisValue pos
  | .text parts _ => return .string (← textOf ev "" parts)
  | .array items _ => return .array (← itemsOf ev .zero items)
  | .map members _ => return Value.ofMembers (← membersOf ev .zero members)
  | .closure f names _ => return .function f (← shared names)
  | .call f args pos => callRule ev f args pos
  | .sign s e pos =>
    let v ← ev.expr e
    match s.on? v with
    | some r => ofAnswer r pos
    | none => fail (.unknownFunction (signature s.mark [v])) pos
  | .operation op left right pos =>
    let x ← ev.expr left
    let y ← ev.expr right
    operate ev op x y pos
  | .contains container item pos =>
    let c ← ev.expr container
    let i ← ev.expr item
    return (← ev.callAny "contains" [c, i] pos).result
  | .junction j left right _ =>
    let x ← ev.expr left
    match j with
    | .and =>
      if ← needBool x left.position then return .bool (← ev.condition right)
      else return .bool false
    | .or =>
      if ← needBool x left.position then return .bool true
      else return .bool (← ev.condition right)
    | .otherwise =>
      match x with
      | .unit => ev.expr right
      | x => return x
  | .chain root links => ev.chain root links
  | .block body _ => ev.block body

/-! ### Loops -/

/-- What a round of a loop comes to: the value with which the loop is left, if it is. -/
def round (ev : Evaluator) (body : List Stmt) : Eval (Option Value) := do
  match ← attempt (ev.block body) with
  | .ok _ => return none
  | .error .continue => return none
  | .error (.leave v) => return some v
  | .error i => throw i

/-- One round of a loop, and all that follow. -/
def loopRule (ev : Evaluator) (s : Stmt) : Eval Value := do
  match s with
  | .loop c body inner _ =>
    let more ← match c with
      | some c => ev.condition c
      | none => pure true
    if !more then return .unit
    else
      if body.isEmpty then tick inner
      match ← round ev body with
      | some v => return v
      | none => ev.loop s
  | .loopUntil body c expected inner _ =>
    if body.isEmpty then tick inner
    match ← round ev body with
    | some v => return v
    | none => if (← ev.condition c) = expected then ev.loop s else return .unit
  | _ => return .unit

/-- Sets the newest variable. -/
def setNewest (v : Value) : Eval Unit := setVariable 0 v

/-- The rounds over some items; the loop variable is the newest, and the counter stands behind it. -/
def rounds (ev : Evaluator) (counted : Bool) (body : List Stmt) :
    Nat → List Value → Eval Value
  | _, [] => return .unit
  | i, x :: xs => do
    if counted then setVariable 1 (.int i)
    setNewest x
    match ← round ev body with
    | some v => return v
    | none => rounds ev counted body (i + 1) xs

/-- The rounds over some integers in a row. -/
def roundsOf (ev : Evaluator) (counted : Bool) (body : List Stmt) :
    Nat → Nat → Int → Eval Value
  | 0, _, _ => return .unit
  | left + 1, i, x => do
    if counted then setVariable 1 (.int i)
    setNewest (.int x)
    match ← round ev body with
    | some v => return v
    | none => roundsOf ev counted body left (i + 1) (x + 1)

private def isIterable : Value → Bool
  | .array _ => true
  | .string _ => true
  | .range .. => true
  | _ => false

/-- The rounds over what an expression holds. -/
def iterate (ev : Evaluator) (name : String) (counter : Option String) (source : Expr)
    (body : List Stmt) : Eval Value := do
  let v ← ev.expr source
  if !isIterable v then fail .notIterable source.start
  else if body.isEmpty then return .unit
  else enclosed do
    match counter with
    | some c => declare c false .unit
    | none => pure ()
    declare name false .unit
    let counted := counter.isSome
    match v with
    | .array xs => rounds ev counted body 0 xs
    | .string s => rounds ev counted body 0 (s.toList.map Value.char)
    | .range a b closed => roundsOf ev counted body ((if closed then b + 1 else b) - a).toNat 0 a
    | _ => return .unit

/-! ### Choices -/

private def isSelectedBy (v : Value) : Value → Bool
  | .range .. => false
  | w => v.typeName = w.typeName && v.same w

private def isCovered (v : Value) : Value → Bool
  | .range a b closed =>
    match v with
    | .int i => a ≤ i && (if closed then i ≤ b else i < b)
    | .float x => (Single.ofInt a).le x && (if closed then x.le (.ofInt b) else x.lt (.ofInt b))
    | _ => false
  | _ => false

/-- The first case that a test selects and whose condition holds. -/
def firstCase (ev : Evaluator) (test : Value → Bool) : List Case → Eval (Option Expr)
  | [] => return none
  | .mk values c body :: rest => do
    if values.any test then
      let holds ← match c with
        | some c => ev.condition c
        | none => pure true
      if holds then return some body else firstCase ev test rest
    else firstCase ev test rest

private def hasValue (test : Value → Bool) : Case → Bool
  | .mk values _ _ => values.any test

/-- The choice of a case. -/
def choose (ev : Evaluator) (subject : Expr) (cases : List Case)
    (otherwise : Option Expr) : Eval Value := do
  let v ← ev.expr subject
  let selected ←
    if cases.any (hasValue (isSelectedBy v)) then firstCase ev (isSelectedBy v) cases
    else firstCase ev (isCovered v) cases
  match selected, otherwise with
  | some e, _ => ev.expr e
  | none, some e => ev.expr e
  | none, none => return .unit

/-! ### Errors -/

private def faultName : Fault → String
  | .unreadable _ => "ErrorParsing"
  | .unknownVariable _ => "ErrorVariableNotFound"
  | .unknownFunction _ => "ErrorFunctionNotFound"
  | .unboundThis => "ErrorUnboundThis"
  | .mismatch .. => "ErrorMismatchDataType"
  | .arrayBounds .. => "ErrorArrayBounds"
  | .stringBounds .. => "ErrorStringBounds"
  | .bitBounds _ => "ErrorBitFieldBounds"
  | .notIndexable _ => "ErrorIndexingType"
  | .noProperty .. => "ErrorDotExpr"
  | .notIterable => "ErrorFor"
  | .constantModified _ => "ErrorAssignmentToConstant"
  | .constantReceiver _ => "ErrorNonPureMethodCallOnConstant"
  | .arithmetic _ => "ErrorArithmetic"
  | .tooLarge _ => "ErrorDataTooLarge"
  | .tooManyOperations => "ErrorTooManyOperations"
  | .stackOverflow => "ErrorStackOverflow"
  | .terminated => "ErrorTerminated"
  | .thrown _ => "ErrorRuntime"

/-- What an error tells beside its text. -/
private def details : Error → List (String × Value)
  | .inCall f _ _ =>
    [("error", .string "ErrorInFunctionCall"), ("function", .string f), ("source", .string "")]
  | .at f _ =>
    ("error", .string (faultName f)) :: match f with
      | .unknownVariable x => [("variable", .string x)]
      | .unknownFunction s => [("function", .string s)]
      | .mismatch wanted found => [("requested", .string wanted), ("actual", .string found)]
      | .arrayBounds size i => [("length", .int size), ("index", .int i)]
      | .stringBounds size i => [("length", .int size), ("index", .int i)]
      | .bitBounds i => [("length", .int 64), ("index", .int i)]
      | .notIndexable s => [("type", .string s)]
      | .noProperty .. => [("message", .string f.message)]
      | .constantModified x => [("variable", .string x)]
      | .constantReceiver x => [("function", .string x)]
      | .arithmetic s => [("message", .string s)]
      | _ => []

/-- The value with which an error is caught: what was thrown, or a description. -/
def caught (e : Error) : Value :=
  match e.fault with
  | .thrown v => v
  | _ =>
    let pos := e.position
    let place := if pos.isNone then []
      else [("line", .int pos.line), ("position", .int pos.column)]
    Value.ofMembers (("message", .string (e.moved .none).text) :: place ++ details e)

/-- Whether an error is one with which a handler throws on what it caught. -/
def isThrownUnit (e : Error) : Bool :=
  match e with
  | .at (.thrown .unit) _ => true
  | _ => false

/-- A block, and a handler for the errors that scripts can catch. -/
def attemptRule (ev : Evaluator) (body : List Stmt) (name : Option String)
    (handler : List Stmt) : Eval Value := do
  match ← attempt (ev.block body) with
  | .ok v => return v
  | .error (.error e) =>
    if e.fault.isSystem then throw (.error e)
    else
      let r ← attempt <| enclosed do
        match name with
        | some x => declare x false (caught e)
        | none => pure ()
        ev.block handler
      match r with
      | .ok _ => return .unit
      | .error (.error e') =>
        if isThrownUnit e' then throw (.error (e.moved e'.position)) else throw (.error e')
      | .error i => throw i
  | .error i => throw i

/-! ### Statements -/

/-- The place at which a statement is counted. -/
def placeOf : Stmt → Position
  | .empty pos => pos
  | .expr e => e.position
  | .declare _ _ _ pos => pos
  | .assign _ _ _ pos => pos
  | .branch _ _ _ pos => pos
  | .choice _ _ _ pos => pos
  | .loop _ _ _ pos => pos
  | .loopUntil _ _ _ _ pos => pos
  | .iterate _ _ _ _ _ pos => pos
  | .block _ pos => pos
  | .attempt _ _ _ pos => pos
  | .leave _ pos => pos
  | .continue pos => pos
  | .answer _ pos => pos
  | .throw _ pos => pos

/-- The value of an expression that may be missing. -/
def optional (ev : Evaluator) : Option Expr → Eval Value
  | some e => ev.expr e
  | none => return .unit

/-- The value of a statement. -/
def stmtRule (ev : Evaluator) (s : Stmt) : Eval Value := do
  tick (placeOf s)
  match s with
  | .empty _ => return .unit
  | .expr e => if isCall e then exprRule ev e else ev.expr e
  | .declare constant name value _ =>
    let v ← ev.expr value
    declare name constant v
    return .unit
  | .assign op target value pos =>
    let v ← ev.expr value
    ev.assign op target v pos
    return .unit
  | .branch c yes no _ => if ← ev.condition c then ev.block yes else ev.block no
  | .choice subject cases otherwise _ => choose ev subject cases otherwise
  | .loop .. => ev.loop s
  | .loopUntil .. => ev.loop s
  | .iterate name counter source body _ _ => iterate ev name counter source body
  | .block body _ => ev.block body
  | .attempt body name handler _ => attemptRule ev body name handler
  | .leave value _ => throw (.leave (← optional ev value))
  | .continue _ => throw .continue
  | .answer value _ => throw (.answer (← optional ev value))
  | .throw value pos => fail (.thrown (← optional ev value)) pos

end Evaluator

end FilterScript.Script
