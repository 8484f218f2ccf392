import FilterScript.Script.Evaluator.Call

/-
Chains of properties, method calls and indices.

The arguments of all links are evaluated first, from left to right, and then the root.  Behind that
the chain is walked link by link.  While it has only gone into the parts of a variable, its target is
a place, and a method that changes its receiver changes the variable.
-/
namespace FilterScript.Script

namespace Evaluator

open Eval

/-- Where a chain starts. -/
inductive Root where
  /-- A variable, by its number in the scope. -/
  | variable (n : Nat)
  | this
  /-- A value that nobody else holds. -/
  | loose

/-- How far a chain has come: the value there, its place, and the name under which a change is
refused. -/
structure Target where
  root : Root
  keys : List Key
  value : Value
  constant : Option (String × Position)

namespace Target

/-- A value that nobody else holds. -/
def ofValue (v : Value) : Target := ⟨.loose, [], v, none⟩

/-- The part of a target behind a key. -/
def part (t : Target) (key : Option Key) (v : Value) : Target :=
  match key with
  | some k => { t with keys := t.keys ++ [k], value := v }
  | none => .ofValue v

/-- Replaces the value of a target where it stands. -/
def store (t : Target) (v : Value) : Eval Unit := do
  match t.root with
  | .variable n =>
    match ← variableAt? n with
    | some x => setVariable n (x.value.update t.keys v)
    | none => return ()
  | .this =>
    match (← get).this with
    | some w => setThis ((← content w).update t.keys v)
    | none => return ()
  | .loose => return ()

end Target

/-- The receiver of the function that is running. -/
def thisValue (pos : Position) : Eval Value := do
  match (← get).this with
  | some v => content v
  | none => fail .unboundThis pos

/-- The target of a name. -/
def targetOfName (name : String) (pos : Position) : Eval Target := do
  match ← find? name with
  | some n =>
    match ← variableAt? n with
    | some x => return ⟨.variable n, [], x.value, if x.constant then some (name, pos) else none⟩
    | none => fail (.unknownVariable name) pos
  | none =>
    match ← outside? name with
    | some v => return ⟨.loose, [], v, some (name, pos)⟩
    | none => fail (.unknownVariable name) pos

/-- The target of an expression. -/
def targetOf (ev : Evaluator) (e : Expr) : Eval Target := do
  match e with
  | .name x pos =>
    tick pos
    targetOfName x pos
  | .this pos =>
    tick pos
    return ⟨.this, [], ← thisValue pos, none⟩
  | e => return .ofValue (← ev.expr e)

/-- A link whose arguments are evaluated. -/
inductive Step where
  | property (name : String) (pos : Position)
  | method (name : String) (args : List Value) (pos : Position)
  | index (v : Value) (pos : Position)

/-- A link with its arguments evaluated, and whether it makes nothing of nothing. -/
def prepared (ev : Evaluator) : List Link → Eval (List (Step × Bool))
  | [] => return []
  | .property s optional _ pos :: ls => do
    return (.property s pos, optional) :: (← prepared ev ls)
  | .method s args optional _ pos :: ls => do
    let vs ← args.mapM ev.expr
    return (.method s vs pos, optional) :: (← prepared ev ls)
  | .index e optional _ :: ls => do
    let v ← ev.expr e
    return (.index v e.start, optional) :: (← prepared ev ls)

/-- Calls a function of the script on a target, which it may change. -/
def callOn (ev : Evaluator) (t : Target) (f : Function) (args : List Value) (pos : Position) :
    Eval Value := do
  let (r, this) ← ev.callFunction f args (some t.value) pos
  match this with
  | some v => t.store v
  | none => pure ()
  ofAttempt r

/-- Calls a method. -/
def callMethod (ev : Evaluator) (t : Target) (name : String) (args : List Value)
    (pos : Position) : Eval Value := do
  match name, t.value with
  | "call", .function f bound => ev.callValue f bound args pos
  | "curry", .function f bound => return .function f (bound ++ args)
  | _, _ =>
    let own := match t.value with
      | .map ms =>
        match ms.lookup name with
        | some (.function f bound) => some (f, bound)
        | _ => none
      | _ => none
    match own with
    | some (f, bound) =>
      match ← function? f (bound.length + args.length) with
      | some f => ev.callOn t f (bound ++ args) pos
      | none => ev.callValue f bound args pos
    | none =>
      match ← function? name args.length with
      | some f => ev.callOn t f args pos
      | none =>
        if t.constant.isSome ∧ Library.mutating.contains name then
          fail (.constantReceiver name) pos
        else
          let e ← ev.callAny name (t.value :: args) pos
          match e.receiver with
          | some v => t.store v
          | none => pure ()
          return e.result

/-- Follows one link. -/
def follow (ev : Evaluator) (t : Target) : Step → Eval Target
  | .property name pos => do
    let (key, v) ← ofPart (t.value.property name) pos
    return t.part key v
  | .method name args pos => do return .ofValue (← callMethod ev t name args pos)
  | .index idx pos => do
    let (key, v) ← ofPart (t.value.index idx) pos
    return t.part key v

private def isUnit : Value → Bool
  | .unit => true
  | _ => false

/-- Follows all links. -/
def walk (ev : Evaluator) : List (Step × Bool) → Target → Eval Value
  | [], t => return t.value
  | (step, optional) :: rest, t => do
    if optional && isUnit t.value then return .unit
    else walk ev rest (← follow ev t step)

/-- The value of a chain. -/
def chain (ev : Evaluator) (root : Expr) (links : List Link) : Eval Value := do
  let steps ← prepared ev links
  walk ev steps (← ev.targetOf root)

/-! ### Assignments -/

/-- What an assignment through an operator leaves. -/
def combine (ev : Evaluator) (op : Option Operator) (old v : Value) (pos : Position) :
    Eval Value := do
  match op with
  | none => return v
  | some op =>
    match op, old, v with
    | .add, .array xs, .array ys => return .array (xs ++ ys)
    | .add, .array xs, y => return .array (xs ++ [y])
    | op, old, v =>
      match op.on? old v with
      | some r => ofAnswer r pos
      | none => return (← ev.callAny op.mark [old, v] pos).result

/-- Refuses to change a constant. -/
def needVariable (t : Target) : Eval Unit :=
  match t.constant with
  | some (name, pos) => fail (.constantModified name) pos
  | none => return ()

/-- Assigns to a target. -/
def assignTo (ev : Evaluator) (t : Target) (op : Option Operator) (v : Value)
    (pos : Position) : Eval Unit := do
  needVariable t
  let v ← combine ev op t.value v pos
  if op.isSome then checkSize v pos
  t.store v

/-- Assigns to what the last link stands for. -/
def assignLast (ev : Evaluator) (t : Target) (step : Step) (op : Option Operator)
    (v : Value) (pos : Position) : Eval Unit := do
  match step with
  | .property name p =>
    match t.value with
    | .map ms =>
      needVariable t
      let v ← combine ev op ((ms.lookup name).getD .unit) v pos
      let whole := t.value.update [.member name] v
      checkSize whole pos
      t.store whole
    | w => fail (.noProperty name w.kind true) p
  | .index idx p =>
    let (key, old) ← ofPart (t.value.index idx) p
    match key with
    | some k =>
      needVariable t
      let v ← combine ev op old v pos
      checkSize v pos
      (t.part (some k) old).store v
    | none => fail (.notIndexable (t.value.signature ++ " [" ++ idx.signature ++ "]")) p
  | .method _ _ p => fail .unboundThis p

/-- Follows all links but the last, and assigns to that. -/
def walkAndAssign (ev : Evaluator) (op : Option Operator) (v : Value) (pos : Position) :
    List (Step × Bool) → Target → Eval Unit
  | [], t => assignTo ev t op v pos
  | [(step, _)], t => assignLast ev t step op v pos
  | (step, optional) :: rest, t => do
    if optional && isUnit t.value then return ()
    else walkAndAssign ev op v pos rest (← follow ev t step)

/-- Assigns a value. -/
def assign (ev : Evaluator) (op : Option Operator) (target : Expr) (v : Value) (pos : Position) :
    Eval Unit := do
  match target with
  | .chain root links =>
    let steps ← prepared ev links
    walkAndAssign ev op v pos steps (← ev.targetOf root)
  | e => assignTo ev (← ev.targetOf e) op v pos

end Evaluator

end FilterScript.Script
