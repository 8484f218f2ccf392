import FilterScript.Script.Parser.Operand

/-
Rules for statements and for functions.
-/
namespace FilterScript.Script.Parser

/-- The place of the first link that may not be assigned to. -/
private def badTarget? : List Link → Option Position
  | [] => none
  | [.method _ _ _ _ pos] => some pos
  | [_] => none
  | .method _ _ _ _ pos :: .property .. :: _ => some pos
  | .method _ _ _ _ pos :: .method .. :: _ => some pos
  | .method _ _ _ _ pos :: .index .. :: _ => some pos
  | _ :: rest => badTarget? rest

private def assignment (op : Option Operator) (pos : Position) (target value : Expr) :
    Rule Stmt := do
  let ok : Rule Stmt := return .assign op target value pos
  if target.isLiteral then fail (.constantAssigned "") target.start
  else match target with
    | .name x p =>
      match ← local? x with
      | some l => if l.constant then fail (.constantAssigned x) p else ok
      | none => ok
    | .this _ => ok
    | .chain root links =>
      match badTarget? links with
      | some p => fail .notAssignable p
      | none =>
        match root with
        | .name .. => ok
        | .this _ => ok
        | e => fail .notAssignable e.position
    | .junction .. =>
      if op.isNone then fail (.improper "Possibly a typo of '=='?") pos
      else fail .notAssignable target.position
    | e => fail .notAssignable e.position

private def exprStatement (g : Grammar) (s : Settings) : Rule Stmt := do
  let e ← g.expr s
  let l ← peek
  match assignmentMark? l.token with
  | some op =>
    let _ ← next
    let value ← g.expr (s.moved l.position)
    assignment op l.position e value
  | none => return .expr e

private def declaration (g : Grammar) (constant : Bool) (s : Settings) : Rule Stmt := do
  let l ← next
  let s ← s.deeperAt l.position
  let (name, _) ← variableName
  let value ← if ← takeMark "=" then g.expr s else pure (.constant .unit .none)
  declare name constant
  return .declare constant name value l.position

private def attemptRule (g : Grammar) (s : Settings) : Rule Stmt := do
  let l ← next
  let s ← s.deeperAt l.position
  let (body, _) ← block g s
  needTaken (← takeWord "catch") "catch" "for the 'try' statement"
  if ← takeMark "(" then
    let (name, _) ← variableName
    needTaken (← takeMark ")") ")" "to enclose the catch variable"
    let (handler, _) ← enclosed do
      declare name false
      block g s
    return .attempt body (some name) handler l.position
  else
    let (handler, _) ← block g s
    return .attempt body none handler l.position

/-- What a statement carries up to its end, if anything. -/
private def carried (g : Grammar) (s : Settings) (endsAtBrace : Bool) : Rule (Option Expr) := do
  let l ← peek
  if l.token = .finish ∨ isMark ";" l.token ∨ (isMark "\x7d" l.token ∧ endsAtBrace) then
    return none
  else return some (← g.expr s)

private def functionName : Rule String := do
  let l ← next
  match l.token with
  | .name s => return s
  | .reserved s =>
    if Token.callableWords.contains s || Token.reservedWords.contains s then
      fail (.reserved s) l.position
    else fail .unnamedFunction l.position
  | _ => throw (misfit l .unnamedFunction)

/-- A function, with the place of its body. -/
private def function (g : Grammar) (s : Settings) (pos : Position) : Rule (Function × Position) := do
  let s ← { s with level := 0, position := pos, isGlobal := false, inLoop := false,
                   inFunction := true }.deeper
  let name ← functionName
  let l ← peek
  let ((params, body, inner), _) ← secluded do
    let params ←
      if isMark "()" l.token then do
        let _ ← next
        pure []
      else if isMark "(" l.token then do
        let _ ← next
        parameters name
          (.missing "," ("to separate the parameters of function '" ++ name ++ "'"))
          (.missing ")" ("to close the parameters list of function '" ++ name ++ "'"))
          ")" [] (← budget)
      else fail (.noParameters name) l.position
    let l ← peek
    if isMark "\x7b" l.token then
      let (body, inner) ← block g s
      pure (params, body, inner)
    else fail (.noBody name) l.position
  return (⟨name, params, body⟩, inner)

private def functionStatement (g : Grammar) (s : Settings) (pos : Position) : Rule Stmt := do
  let (f, inner) ← function g s pos
  let taken := (← get).functions.any fun h =>
    h.name = f.name ∧ h.params.length = f.params.length
  if taken then fail (.duplicateFunction f.name f.params.length) inner
  else
    modify fun t => { t with functions := t.functions ++ [f] }
    return .empty pos

/-- A statement. -/
def stmtRule (g : Grammar) (s : Settings) : Rule Stmt := do
  let l ← peek
  if l.token = .finish then return .empty l.position
  else
    let s ← s.deeperAt l.position
    match l.token with
    | .mark ";" => do
      let _ ← next
      return .empty l.position
    | .mark "\x7b" => do
      let (body, pos) ← block g s
      return .block body pos
    | .word "fn" =>
      if !s.isGlobal then fail .nestedFunction l.position
      else
        let _ ← next
        functionStatement g s l.position
    | .word "private" => do
      let _ ← next
      let l' ← next
      if isWord "fn" l'.token then functionStatement g s l'.position
      else fail (.missing "fn" "following 'private'") l'.position
    | .word "if" => branchRule g s
    | .word "switch" => choiceRule g s
    | .word "while" => loopRule g s
    | .word "loop" => loopRule g s
    | .word "do" => loopUntilRule g s
    | .word "for" => iterateRule g s
    | .word "continue" =>
      if s.inLoop then
        let _ ← next
        return .continue l.position
      else fail .strayBreak l.position
    | .word "break" =>
      if s.inLoop then
        let _ ← next
        return .leave (← carried g s true) l.position
      else fail .strayBreak l.position
    | .word "return" => do
      let _ ← next
      return .answer (← carried g s (!s.isGlobal)) l.position
    | .word "throw" => do
      let _ ← next
      return .throw (← carried g s (!s.isGlobal)) l.position
    | .word "try" => attemptRule g s
    | .word "let" => declaration g false s
    | .word "const" => declaration g true s
    | _ => exprStatement g s

end FilterScript.Script.Parser
