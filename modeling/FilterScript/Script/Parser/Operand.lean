import FilterScript.Script.Parser.Control

/-
Rules for expressions: operands, the links behind them, and the operators between them.
-/
namespace FilterScript.Script.Parser

/-- What stands between the brackets of an index. -/
private def indexRule (g : Grammar) (s : Settings) : Rule Expr := do
  let e ← g.expr s
  let l ← next
  if isMark "]" l.token then return e
  else throw (misfit l (.missing "]" "for a matching [ in this index expression"))

private def methodOnly : List String := ["Fn", "eval"]

/-- The links of a chain. -/
def linksRule (g : Grammar) (s : Settings) : Rule (List Link) := do
  let l ← peek
  if isMark "[" l.token || isMark "?[" l.token then
    let _ ← next
    let s ← s.deeperAt l.position
    let e ← indexRule g s
    return .index e (isMark "?[" l.token) l.position :: (← g.links s)
  else if isMark "." l.token || isMark "?." l.token then
    let _ ← next
    let optional := isMark "?." l.token
    let s ← s.deeper
    let name ← peek
    let s := s.moved name.position
    match name.token with
    | .name p =>
      let _ ← next
      if isCallMark (← peek).token then
        let args ← callArguments g s p
        return .method p args optional l.position name.position :: (← g.links s)
      else return .property p optional l.position name.position :: (← g.links s)
    | .reserved p =>
      if Token.callableWords.contains p then
        let _ ← next
        if isCallMark (← peek).token then
          let args ← callArguments g s p
          if args.isEmpty ∧ methodOnly.contains p then
            fail (.improper ("'" ++ p ++ "' should not be called in method style. Try " ++ p
              ++ "(...);")) name.position
          return .method p args optional l.position name.position :: (← g.links s)
        else fail (.reserved p) name.position
      else fail (.reserved p) name.position
    | .fault f => fail (.lexical f) name.position
    | _ => fail .noProperty name.position
  else return []

private def literalMessage (e : Expr) : Option String :=
  match e with
  | .constant (.float _) _ => some "a floating-point number"
  | .constant (.char _) _ => some "a character"
  | .constant .unit _ => some "()"
  | .constant (.bool _) _ => some "a boolean"
  | .junction .. => some "a boolean"
  | .array .. => some "an array"
  | .map .. => some "an object map"
  | _ => none

/-- Refuses an index that no value of the root's written kind can have. -/
private def checkIndex (root : Expr) : List Link → Rule Unit
  | .index e _ _ :: _ =>
    let isText := match e with
      | .constant (.string _) _ => true
      | .text .. => true
      | _ => false
    let isNumber := match e with
      | .constant (.int _) _ => true
      | _ => false
    let ofArray := match root with
      | .array .. => true
      | .constant (.string _) _ => true
      | .text .. => true
      | _ => false
    let ofMap := match root with
      | .map .. => true
      | _ => false
    if ofArray && isText then
      fail (.badIndex "Array or string expects numeric index, not a string") e.start
    else if ofArray then
      match literalMessage e with
      | some k => fail (.badIndex ("Array access expects integer index, not " ++ k)) e.start
      | none => return ()
    else if ofMap && isNumber then
      fail (.badIndex "Object map expects string index, not a number") e.start
    else if ofMap then
      match literalMessage e with
      | some k => fail (.badIndex ("Object map access expects string index, not " ++ k)) e.start
      | none => return ()
    else return ()
  | _ => return ()

private def withLinks (g : Grammar) (s : Settings) (root : Expr) : Rule Expr := do
  if (← get).stopsAtBar && isMark bar (← peek).token then return root
  let links ← g.links s
  checkIndex root links
  if links.isEmpty then return root else return .chain root links

private def statementExpr (s : Stmt) (pos : Position) : Expr :=
  match s with
  | .block body pos => .block body pos
  | s => .block [s] pos

private def primary (g : Grammar) (s : Settings) : Rule Expr := do
  let l ← peek
  let s := s.moved l.position
  let constant (v : Value) : Rule Expr := do
    let _ ← next
    return .constant v l.position
  let stmt (r : Settings → Rule Stmt) : Rule Expr := do
    return statementExpr (← r s) l.position
  let root ← match l.token with
    | .finish => fail .incomplete l.position
    | .fault f => fail (.lexical f) l.position
    | .int i => constant (.int i)
    | .float x _ => constant (.float x)
    | .char c => constant (.char c)
    | .string t => constant (.string t)
    | .stringPart t => do
      let _ ← next
      let s ← s.deeper
      let parts ← textParts g s (← budget)
      match textPart t l.position parts with
      | [] => pure (.constant (.string "") l.position)
      | parts => pure (.text parts l.position)
    | .name f => do
      let _ ← next
      if isCallMark (← peek).token then
        let args ← callArguments g s f
        pure (.call f args l.position)
      else
        access f l.position
        pure (.name f l.position)
    | .reserved f => do
      let _ ← next
      if isCallMark (← peek).token ∧ Token.callableWords.contains f then
        let args ← callArguments g s f
        pure (.call f args l.position)
      else if f = "this" then
        if s.inFunction then pure (.this l.position)
        else fail (.improper "'this' can only be used in functions") l.position
      else fail (.reserved f) l.position
    | .word "true" => constant (.bool true)
    | .word "false" => constant (.bool false)
    | .word "if" => stmt (branchRule g)
    | .word "while" => stmt (loopRule g)
    | .word "loop" => stmt (loopRule g)
    | .word "do" => stmt (loopUntilRule g)
    | .word "for" => stmt (iterateRule g)
    | .word "switch" => stmt (choiceRule g)
    | .mark "()" => constant .unit
    | .mark "(" => parenthesized g s
    | .mark "\x7b" => do
      let (body, pos) ← block g s
      pure (.block body pos)
    | .mark "[" => do
      let _ ← next
      let s ← (← s.deeper).deeper
      let items ← arrayItems g s 0 (← budget)
      pure (.array items l.position)
    | .mark "#\x7b" => do
      let _ ← next
      let s ← (← s.deeper).deeper
      let members ← mapMembers g s [] (← budget)
      pure (.map members l.position)
    | .mark m =>
      if m = "||" ∨ (m = bar ∧ !(← get).stopsAtBar) then lambda g s
      else fail (.lexical (.unexpected m)) l.position
    | t => fail (.lexical (.unexpected t.text)) l.position
  withLinks g s root

private def negated : Value → Option Value
  | .int i => some (if i = Value.minInt then .float (-(Single.ofInt i)) else .int (-i))
  | .float x => some (.float (-x))
  | _ => none

/-- An operand with the signs in front of it. -/
def unaryRule (g : Grammar) (s : Settings) : Rule Expr := do
  let l ← peek
  let s := s.moved l.position
  if isMark "-" l.token then
    let _ ← next
    let e ← g.unary (← s.deeper)
    match e with
    | .constant v _ =>
      match negated v with
      | some v => return .constant v l.position
      | none => return .sign .minus e l.position
    | e => return .sign .minus e l.position
  else if isMark "+" l.token then
    let _ ← next
    let e ← g.unary (← s.deeper)
    match e with
    | .constant (.int _) _ => return e
    | .constant (.float _) _ => return e
    | e => return .sign .plus e l.position
  else if isMark "!" l.token then
    let _ ← next
    let e ← g.unary (← s.deeper)
    return .sign .not e l.position
  else primary g s

/-- How tight a token binds its operands; zero for one that is no operator. -/
def precedence : Token → Nat
  | .word "in" => 110
  | .mark m =>
    if ["||", bar, "^"].contains m then 30
    else if ["&&", "&"].contains m then 60
    else if ["==", "!="].contains m then 90
    else if m = "!in" then 110
    else if ["<", "<=", ">", ">="].contains m then 130
    else if m = "??" then 135
    else if ["..", "..="].contains m then 140
    else if ["+", "-"].contains m then 150
    else if ["*", "/", "%"].contains m then 180
    else if m = "**" then 190
    else if ["<<", ">>"].contains m then 210
    else 0
  | _ => 0

private def bindsRight (t : Token) : Bool := isMark "**" t

private def operatorPrecedence (l : Lexer.Lexeme) : Rule Nat :=
  match l.token with
  | .reserved s =>
    if Token.callableWords.contains s || Token.reservedWords.contains s then return 0
    else fail (.unknownOperator s) l.position
  | t => return precedence t

private def joined (t : Token) (pos : Position) (left right : Expr) : Rule Expr :=
  match t with
  | .word _ => return .contains right left left.start
  | .mark "!in" => return .sign .not (.contains right left left.start) left.start
  | .mark "??" => return .junction .otherwise left right pos
  | .mark "||" => do
    let right ← needBool right
    let left ← needBool left
    return .junction .or left right pos
  | .mark "&&" => do
    let right ← needBool right
    let left ← needBool left
    return .junction .and left right pos
  | .mark m =>
    match Operator.ofMark? m with
    | some op => return .operation op left right pos
    | none => fail (.unknownOperator m) pos
  | t => fail (.unknownOperator t.text) pos

private def binaryItems (g : Grammar) (above : Nat) : Nat → Settings → Expr → Rule Expr
  | 0, _, left => return left
  | fuel + 1, s, left => do
    let l ← peek
    if (← get).stopsAtBar && isMark bar l.token then return left
    let p ← operatorPrecedence l
    if p < above ∨ (p = above ∧ !bindsRight l.token) then return left
    else
      let _ ← next
      let right ← g.unary s
      let l' ← peek
      let p' ← if (← get).stopsAtBar && isMark bar l'.token then pure 0 else operatorPrecedence l'
      let right ← if p < p' ∨ (p = p' ∧ bindsRight l.token) then g.binary s p right else pure right
      let s ← s.deeper
      let e ← joined l.token l.position left right
      binaryItems g above fuel (s.moved l.position) e

/-- Operators and operands behind a first operand. -/
def binaryRule (g : Grammar) (s : Settings) (above : Nat) (left : Expr) : Rule Expr := do
  binaryItems g above (← budget) s left

/-- An expression. -/
def exprRule (g : Grammar) (s : Settings) : Rule Expr := do
  let s ← s.deeperAt (← peek).position
  let left ← g.unary s
  g.binary s 1 left

end FilterScript.Script.Parser
