import FilterScript.Script.Arithmetic

/-
Simplifying a script before it runs.

Operators between constants are computed, statements that nothing can notice are dropped, and so is
what stands behind the end of a block.  This shows: a statement that only names a variable is
dropped unless its value is wanted, and then nobody finds out that there is no such variable.
-/
namespace FilterScript.Script

/-! ### What nothing can notice -/

mutual

/-- Whether evaluating an expression has no effect. -/
def Expr.isPure : Expr → Bool
  | .constant .. => true
  | .name .. => true
  | .text parts _ => allPure parts
  | .array items _ => allPure items
  | .map members _ => allMembersPure members
  | .junction _ left right _ => left.isPure && right.isPure
  | .block body _ => allStmtsPure body
  | _ => false

private def allPure : List Expr → Bool
  | [] => true
  | e :: es => e.isPure && allPure es

private def allMembersPure : List (String × Expr) → Bool
  | [] => true
  | (_, e) :: ms => e.isPure && allMembersPure ms

/-- Whether a statement has no effect.  A loop over a pure source ends by itself. -/
def Stmt.isPure : Stmt → Bool
  | .empty _ => true
  | .expr e => e.isPure
  | .branch c yes no _ => c.isPure && allStmtsPure yes && allStmtsPure no
  | .choice e cases (some other) _ => e.isPure && allCasesPure cases && other.isPure
  | .loop (some (.constant (.bool false) _)) _ _ _ => true
  | .loopUntil body (.constant (.bool b) _) expected _ _ => b != expected && allStmtsPure body
  | .iterate _ _ source body _ _ => source.isPure && allStmtsPure body
  | .block body _ => allStmtsPure body
  | .attempt body _ handler _ => allStmtsPure body && allStmtsPure handler
  | _ => false

/-- Whether no statement has an effect. -/
def allStmtsPure : List Stmt → Bool
  | [] => true
  | s :: rest => s.isPure && allStmtsPure rest

private def allCasesPure : List Case → Bool
  | [] => true
  | .mk _ (some c) body :: rest => c.isPure && body.isPure && allCasesPure rest
  | .mk _ none body :: rest => body.isPure && allCasesPure rest

end

namespace Stmt

/-- Whether a statement has no effect beyond its block. -/
def isPureInside : Stmt → Bool
  | .declare _ _ value _ => value.isPure
  | s => s.isPure

/-- Whether a statement ends its block. -/
def isBreak : Stmt → Bool
  | .leave .. => true
  | .continue _ => true
  | .answer .. => true
  | .throw .. => true
  | _ => false

/-- Whether a statement has a value. -/
def hasValue : Stmt → Bool
  | .branch .. => true
  | .choice .. => true
  | .block .. => true
  | .expr _ => true
  | _ => false

/-- Whether a statement only makes sense inside its own block. -/
def needsBlock : Stmt → Bool
  | .declare .. => true
  | _ => false

end Stmt

/-! ### Blocks -/

/-- What is known of a block: whether its value is wanted, whether its variables end with it, and
whether it is the body of a function or of a script. -/
structure BlockRole where
  wanted : Bool
  inner : Bool
  outermost : Bool

private def upToBreak : List Stmt → List Stmt
  | [] => []
  | s :: rest => if s.isBreak then [s] else s :: upToBreak rest

private def isBarrier (pure : Stmt → Bool) (s : Stmt) : Bool :=
  !pure s || match s with
    | .declare _ _ value _ => value.isLiteral
    | .expr e => !e.isLiteral
    | _ => false

/-- How many statements stand in front of the last barrier. -/
private def lastBarrier (pure : Stmt → Bool) (stmts : List Stmt) : Nat :=
  stmts.length - (stmts.reverse.takeWhile fun s => !isBarrier pure s).length - 1

/-- Drops pure statements; `barrier` more statements stand in front of the last barrier. -/
private def dropPure (pure : Stmt → Bool) (wanted : Bool) : Nat → List Stmt → List Stmt
  | _, [] => []
  | barrier, s :: rest =>
    if wanted ∧ rest.isEmpty then [s]
    else if s.isPure ∨ (pure s ∧ barrier = 0) then dropPure pure wanted (barrier - 1) rest
    else s :: dropPure pure wanted (barrier - 1) rest

/-- Shortens a block from its end, where its value is wanted; the last statement comes first. -/
private def trimWanted (outermost : Bool) : List Stmt → List Stmt
  | [] => []
  | [.answer none pos] => if outermost then [] else [.answer none pos]
  | last :: before :: rest =>
    match last with
    | .answer none _ =>
      if outermost then trimWanted outermost (before :: rest) else last :: before :: rest
    | .answer (some e) _ => if outermost then .expr e :: before :: rest else last :: before :: rest
    | .empty _ =>
      if before.hasValue then last :: before :: rest else trimWanted outermost (before :: rest)
    | _ =>
      if !last.hasValue && last.isPure then
        if before.hasValue then .empty .none :: before :: rest
        else trimWanted outermost (before :: rest)
      else last :: before :: rest
  | [.answer (some e) pos] => if outermost then [.expr e] else [.answer (some e) pos]
  | [s] => [s]

/-- Shortens a block from its end, where its value is not wanted; the last statement comes first. -/
private def trimUnwanted (pure : Stmt → Bool) (outermost : Bool) : List Stmt → List Stmt
  | [] => []
  | last :: rest =>
    match last with
    | .answer none _ => if outermost then trimUnwanted pure outermost rest else last :: rest
    | .answer (some e) _ =>
      if outermost ∧ e.isPure then trimUnwanted pure outermost rest else last :: rest
    | _ => if pure last then trimUnwanted pure outermost rest else last :: rest

/-- A block without what nothing can notice. -/
def tidy (role : BlockRole) (stmts : List Stmt) : List Stmt :=
  let pure := if role.inner then Stmt.isPureInside else Stmt.isPure
  let stmts := upToBreak stmts
  let stmts := dropPure pure role.wanted (lastBarrier pure stmts) stmts
  let trim := if role.wanted then trimWanted role.outermost else trimUnwanted pure role.outermost
  (trim stmts.reverse).reverse

/-! ### Constants -/

/-- Whether a computed value may stand in the script: one of a size that no limit bounds. -/
private def isScalar : Value → Bool
  | .string _ => false
  | .array _ => false
  | .map _ => false
  | _ => true

private def folded (e : Expr) : Expr :=
  match e with
  | .operation op (.constant x _) (.constant y _) pos =>
    match op.on? x y with
    | some (.ok v) => if isScalar v then .constant v pos else e
    | _ => e
  | .sign s (.constant x _) pos =>
    match s.on? x with
    | some (.ok v) => .constant v pos
    | _ => e
  | .junction .and (.constant (.bool b) pos) right _ =>
    if b then right else .constant (.bool false) pos
  | .junction .and left (.constant (.bool true) _) _ => left
  | .junction .or (.constant (.bool b) pos) right _ =>
    if b then .constant (.bool true) pos else right
  | .junction .or left (.constant (.bool false) _) _ => left
  | .junction .otherwise (.constant .unit _) right _ => right
  | .junction .otherwise (.constant v pos) _ _ => .constant v pos
  | .array _ pos =>
    match e.literal? with
    | some v => .constant v pos
    | none => e
  | .map _ pos =>
    match e.literal? with
    | some v => .constant v pos
    | none => e
  | .call "Fn" [.constant (.string f) _] pos => .constant (.function f []) pos
  | e => e

/-- A name that its own value is joined to. -/
private def selfJoined (op : Option Operator) (target value : Expr) (pos : Position) : Stmt :=
  match op, target, value with
  | none, .name x _, .operation op' (.name y _) right pos' =>
    if x = y ∧ Operator.assignable.contains op' then .assign (some op') target right pos'
    else .assign op target value pos
  | _, _, _ => .assign op target value pos

private def ofBlock (stmts : List Stmt) (pos : Position) : Stmt :=
  match stmts with
  | [] => .empty pos
  | [s] => if s.needsBlock then .block [s] pos else s
  | stmts => .block stmts pos

private def asStmt : Expr → Stmt
  | .block [] pos => .empty pos
  | .block body pos => ofBlock body pos
  | e => .expr e

/-! ### Whole scripts -/

mutual

/-- A simpler expression with the same value. -/
def Expr.simplify : Expr → Expr
  | .text parts pos => .text (simplifyAll parts) pos
  | .array items pos => folded (.array (simplifyAll items) pos)
  | .map members pos => folded (.map (simplifyMembers members) pos)
  | .call f args pos => folded (.call f (simplifyAll args) pos)
  | .sign s e pos => folded (.sign s e.simplify pos)
  | .operation op left right pos => folded (.operation op left.simplify right.simplify pos)
  | .contains container item pos => .contains container.simplify item.simplify pos
  | .junction j left right pos => folded (.junction j left.simplify right.simplify pos)
  | .chain root links => .chain root.simplify (simplifyLinks links)
  | .block body pos =>
    match tidy ⟨true, true, false⟩ (simplifyStmts true body) with
    | [] => .constant .unit pos
    | [.expr e] => e
    | body => .block body pos
  | e => e

private def simplifyAll : List Expr → List Expr
  | [] => []
  | e :: es => e.simplify :: simplifyAll es

private def simplifyMembers : List (String × Expr) → List (String × Expr)
  | [] => []
  | (n, e) :: ms => (n, e.simplify) :: simplifyMembers ms

private def simplifyLinks : List Link → List Link
  | [] => []
  | .method f args optional op pos :: ls =>
    .method f (simplifyAll args) optional op pos :: simplifyLinks ls
  | .index e optional op :: ls => .index e.simplify optional op :: simplifyLinks ls
  | l :: ls => l :: simplifyLinks ls

/-- A simpler statement with the same effect; `wanted` says whether its value may be used. -/
def Stmt.simplify (wanted : Bool) : Stmt → Stmt
  | .expr e => asStmt e.simplify
  | .declare constant name value pos => .declare constant name value.simplify pos
  | .assign op target value pos =>
    let target := match target with
      | .chain root links => .chain root.simplify (simplifyLinks links)
      | t => t
    selfJoined op target value.simplify pos
  | .branch c yes no pos =>
    let c := c.simplify
    let yes' := tidy ⟨wanted, true, false⟩ (simplifyStmts wanted yes)
    let no' := tidy ⟨wanted, true, false⟩ (simplifyStmts wanted no)
    match c with
    | .constant (.bool true) _ => ofBlock yes' pos
    | .constant (.bool false) _ => ofBlock no' pos
    | c =>
      if yes'.isEmpty && no'.isEmpty then
        if wanted then .block [.expr c, .empty c.start] pos else .expr c
      else .branch c yes' no' pos
  | .choice subject cases other pos =>
    .choice subject.simplify (simplifyCases cases) (simplifyOption other) pos
  | .loop c body inner pos =>
    let body := tidy ⟨false, true, false⟩ (simplifyStmts false body)
    match simplifyOption c with
    | some (.constant (.bool false) _) => .empty pos
    | some (.constant (.bool true) _) => .loop none body inner pos
    | c => .loop c body inner pos
  | .loopUntil body c expected inner pos =>
    let body := tidy ⟨false, true, false⟩ (simplifyStmts false body)
    .loopUntil body c.simplify expected inner pos
  | .iterate name counter source body inner pos =>
    .iterate name counter source.simplify
      (tidy ⟨false, true, false⟩ (simplifyStmts false body)) inner pos
  | .block body pos => ofBlock (tidy ⟨wanted, true, false⟩ (simplifyStmts wanted body)) pos
  | .attempt body name handler pos =>
    let body := tidy ⟨false, true, false⟩ (simplifyStmts false body)
    if allStmtsPure body then ofBlock body pos
    else
      .attempt body name (tidy ⟨false, true, false⟩ (simplifyStmts false handler)) pos
  | .leave value pos => .leave (simplifyOption value) pos
  | .answer value pos => .answer (simplifyOption value) pos
  | .throw value pos => .throw (simplifyOption value) pos
  | s => s

private def simplifyOption : Option Expr → Option Expr
  | none => none
  | some e => some e.simplify

private def simplifyStmts (wanted : Bool) : List Stmt → List Stmt
  | [] => []
  | s :: rest => s.simplify wanted :: simplifyStmts wanted rest

private def simplifyCases : List Case → List Case
  | [] => []
  | .mk values c body :: rest => .mk values (simplifyOption c) body.simplify :: simplifyCases rest

end

/-- A simpler function with the same effect. -/
def Function.simplify (f : Function) : Function :=
  { f with body := tidy ⟨true, true, true⟩ (simplifyStmts true f.body) }

/-- A simpler script with the same effect. -/
def Program.simplify (p : Program) : Program :=
  ⟨tidy ⟨true, false, true⟩ (simplifyStmts true p.body), p.functions.map Function.simplify⟩

end FilterScript.Script
