import FilterScript.Script.Parser.Literal

/-
Rules for branches, loops and choices, which are statements and expressions alike.
-/
namespace FilterScript.Script.Parser

/-- A branch. -/
def branchRule (g : Grammar) (s : Settings) : Rule Stmt := do
  let l ← next
  let s ← s.deeperAt l.position
  let e ← condition g s
  let (yes, _) ← block g s
  if ← takeWord "else" then
    if isWord "if" (← peek).token then
      let other ← g.branch s
      return .branch e yes [other] l.position
    else
      let (no, _) ← block g s
      return .branch e yes no l.position
  else return .branch e yes [] l.position

/-- A loop that tests its condition first, or has none. -/
def loopRule (g : Grammar) (s : Settings) : Rule Stmt := do
  let l ← next
  let s ← s.deeperAt l.position
  let e : Option Expr ←
    if isWord "while" l.token then do
      let c ← condition g s
      pure (some c)
    else pure none
  let (body, inner) ← block g { s with inLoop := true }
  return .loop e body inner l.position

/-- A loop that tests its condition last. -/
def loopUntilRule (g : Grammar) (s : Settings) : Rule Stmt := do
  let l ← next
  let s ← s.deeperAt l.position
  let (body, inner) ← block g { s with inLoop := true }
  let l' ← next
  if isWord "while" l'.token || isWord "until" l'.token then
    let e ← condition g s
    return .loopUntil body e (isWord "while" l'.token) inner l.position
  else fail (.missing "while" "for the do statement") l'.position

/-- Refuses a place where a token was needed and not taken. -/
def needTaken (taken : Bool) (m reason : String) : Rule Unit := do
  if taken then return () else fail (.missing m reason) (← peek).position

/-- A loop over the items of a value. -/
def iterateRule (g : Grammar) (s : Settings) : Rule Stmt := do
  let l ← next
  let s ← s.deeperAt l.position
  let (name, counter) ← if ← takeMark "(" then do
      let (name, _) ← variableName
      needTaken (← takeMark ",") "," "after the iteration variable name"
      let (counter, pos) ← variableName
      if counter = name then fail (.duplicateVariable counter) pos
      needTaken (← takeMark ")") ")" "to close the iteration variable"
      pure (name, some counter)
    else do
      let (name, _) ← variableName
      pure (name, none)
  let l' ← next
  if !isWord "in" l'.token then
    throw (misfit l' (.missing "in" "after the iteration variable"))
  needNoBlock
  let source ← needIterable (← g.expr s)
  let (body, inner) ← enclosed do
    match counter with
    | some c => declare c false
    | none => pure ()
    declare name false
    block g { s with inLoop := true }
  return .iterate name counter source body inner l.position

private def caseValues (g : Grammar) (s : Settings) : Nat → Rule (List Expr)
  | 0 => return []
  | fuel + 1 => do
    let before := (← get).stopsAtBar
    modify fun t => { t with stopsAtBar := true }
    let e ← tryCatch (g.expr s) fun f => throw ⟨.expected "literal", f.position⟩
    modify fun t => { t with stopsAtBar := before }
    if ← takeMark bar then return e :: (← caseValues g s fuel) else return [e]

private def rangeOf? : Expr → Option Value
  | .operation .range (.constant (.int a) _) (.constant (.int b) _) _ => some (.range a b false)
  | .operation .closedRange (.constant (.int a) _) (.constant (.int b) _) _ =>
    some (.range a b true)
  | e => e.literal?

private def isRange : Value → Bool
  | .range .. => true
  | _ => false

private def isInt : Value → Bool
  | .int _ => true
  | _ => false

private def caseLiterals (rangeSeen : Bool) : List Expr → Rule (List Value)
  | [] => return []
  | e :: es => do
    match rangeOf? e with
    | none => fail (.expected "a literal") e.start
    | some v =>
      if rangeSeen && isInt v then fail .integerBehindRange e.start
      else return v :: (← caseLiterals (rangeSeen || isRange v) es)

private def choiceEnd : ParseFault := .missing "\x7d" "to end this switch block"

/-- The cases of a choice; `default` is the place of the default case once it was seen. -/
private def cases (g : Grammar) (s : Settings) (rangeSeen : Bool) (default : Option Position) :
    Nat → Rule (List Case × Option Expr)
  | 0 => return ([], none)
  | fuel + 1 => do
    let l ← peek
    let rest (rangeSeen : Bool) (default : Option Position) (comma : Bool) :
        Rule (List Case × Option Expr) := do
      let l ← peek
      if isMark "," l.token then
        let _ ← next
        cases g s rangeSeen default fuel
      else if isMark "\x7d" l.token then cases g s rangeSeen default fuel
      else match l.token with
        | .finish => fail choiceEnd l.position
        | .fault f => fail (.lexical f) l.position
        | _ =>
          if comma then
            fail (.missing "," "to separate the items in this switch block") l.position
          else cases g s rangeSeen default fuel
    let action : Rule (Expr × Bool) := do
      needMark "=>" "in this switch case"
      let stmt ← g.stmt s
      return (.block (bodyOf stmt) l.position, !stmt.isSelfTerminated)
    if isMark "\x7d" l.token then
      let _ ← next
      return ([], none)
    else if l.token = .finish then fail choiceEnd l.position
    else match default, isMark "_" l.token with
      | some pos, _ => fail .defaultNotLast pos
      | none, true =>
        let _ ← next
        let l' ← peek
        if isWord "if" l'.token then fail .defaultCondition l'.position
        let (e, comma) ← action
        let (more, _) ← rest rangeSeen (some l.position) comma
        return (more, some e)
      | none, false =>
        let es ← caseValues g s (← budget)
        let cond ←
          if ← takeWord "if" then do
            let e ← condition g s
            pure (some e)
          else pure none
        let (e, comma) ← action
        let vs ← caseLiterals rangeSeen es
        let (more, other) ← rest (rangeSeen || vs.any isRange) none comma
        return (.mk vs cond e :: more, other)

/-- A choice among cases. -/
def choiceRule (g : Grammar) (s : Settings) : Rule Stmt := do
  let l ← next
  let s ← s.deeperAt l.position
  let subject ← g.expr s
  needMark "\x7b" "to start a switch block"
  let (cs, other) ← cases g { s with isGlobal := false } false none (← budget)
  return .choice subject cs other l.position

end FilterScript.Script.Parser
