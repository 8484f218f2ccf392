import FilterScript.Script.Parser.State

/-
Rules for what stands between brackets, braces and parentheses.

Every rule of the grammar that needs another rule takes it from a `Grammar`, so that no rule is
recursive by itself.
-/
namespace FilterScript.Script.Parser

/-- The rules that others refer to. -/
structure Grammar where
  expr : Settings → Rule Expr
  unary : Settings → Rule Expr
  /-- What follows a first operand, as far as its operators bind tighter than a precedence. -/
  binary : Settings → Nat → Expr → Rule Expr
  /-- The links of a chain behind its root. -/
  links : Settings → Rule (List Link)
  stmt : Settings → Rule Stmt
  branch : Settings → Rule Stmt

/-- A condition of a statement. -/
def condition (g : Grammar) (s : Settings) : Rule Expr := do
  needNoBlock
  let e ← needBool (← g.expr s)
  needNoAssignment
  return e

private def blockEnd : String := "to terminate this block"

/-- What a semicolon is needed for. -/
def statementEnd : String := "to terminate this statement"

/-- The statements of a block behind its opening brace. -/
private def blockItems (g : Grammar) (s : Settings) : Nat → Rule (List Stmt)
  | 0 => return []
  | fuel + 1 => do
    let l ← peek
    if isMark "\x7d" l.token then
      let _ ← next
      return []
    else if l.token = .finish then fail (.missing "\x7d" blockEnd) l.position
    else
      let stmt ← g.stmt s
      if stmt.isEmpty then blockItems g s fuel
      else
        let l ← peek
        if isMark "\x7d" l.token then
          let _ ← next
          return [stmt]
        else if isMark ";" l.token then
          let _ ← next
          return stmt :: (← blockItems g s fuel)
        else if stmt.isSelfTerminated then return stmt :: (← blockItems g s fuel)
        else throw (misfit l (.missing ";" statementEnd))

/-- A block, with the place of its opening brace. -/
def block (g : Grammar) (s : Settings) : Rule (List Stmt × Position) := do
  let l ← next
  if isMark "\x7b" l.token then
    let s ← s.deeperAt l.position
    let stmts ← enclosed do blockItems g { s with isGlobal := false } (← budget)
    return (stmts, l.position)
  else throw (misfit l (.missing "\x7b" "to start a statement block"))

/-! #### Expressions -/

/-- The items of an array behind its opening bracket, of which `count` were read before. -/
def arrayItems (g : Grammar) (s : Settings) (count : Nat) : Nat → Rule (List Expr)
  | 0 => return []
  | fuel + 1 => do
    let l ← peek
    if 0 < s.limits.items ∧ s.limits.items ≤ count then
      fail (.tooLarge "Size of array literal" s.limits.items) l.position
    else if isMark "]" l.token then
      let _ ← next
      return []
    else if l.token = .finish then fail (.missing "]" "to end this array literal") l.position
    else
      let e ← g.expr s
      let l ← peek
      if isMark "," l.token then
        let _ ← next
        return e :: (← arrayItems g s (count + 1) fuel)
      else if isMark "]" l.token then return e :: (← arrayItems g s (count + 1) fuel)
      else if l.token = .finish then fail (.missing "]" "to end this array literal") l.position
      else throw (misfit l (.missing "," "to separate the items of this array literal"))

private def mapEnd : ParseFault := .missing "\x7d" "to end this object map literal"

private def memberName (isFirst : Bool) (seen : List String) : Rule String := do
  let l ← next
  let name (s : String) : Rule String :=
    if seen.contains s then fail (.duplicateProperty s) l.position else return s
  match l.token with
  | .name s => name s
  | .string s => name s
  | .stringPart _ => fail .noProperty l.position
  | .finish => fail mapEnd l.position
  | .fault f => fail (.lexical f) l.position
  | .reserved s =>
    if Token.callableWords.contains s || Token.reservedWords.contains s then
      fail (.reserved s) l.position
    else fail (if isFirst then mapEnd else .noProperty) l.position
  | _ => fail (if isFirst then mapEnd else .noProperty) l.position

/-- The members of a map behind its opening brace; `seen` are the names before. -/
def mapMembers (g : Grammar) (s : Settings) (seen : List String) :
    Nat → Rule (List (String × Expr))
  | 0 => return []
  | fuel + 1 => do
    let l ← peek
    if isMark "\x7d" l.token then
      let _ ← next
      return []
    else
      let name ← memberName seen.isEmpty seen
      needMark ":" ("to follow the property '" ++ name ++ "' in this object map literal")
      let l ← peek
      if 0 < s.limits.members ∧ s.limits.members ≤ seen.length then
        fail (.tooLarge "Number of properties in object map literal" s.limits.members) l.position
      else
        let e ← g.expr s
        let l ← peek
        match l.token with
        | .name _ =>
          fail (.missing "," "to separate the items of this object map literal") l.position
        | t =>
          if isMark "," t then
            let _ ← next
            return (name, e) :: (← mapMembers g s (name :: seen) fuel)
          else if isMark "\x7d" t then return (name, e) :: (← mapMembers g s (name :: seen) fuel)
          else throw (misfit l mapEnd)

private def callEnd (f : String) : ParseFault :=
  .missing ")" ("to close the arguments list of this function call '" ++ f ++ "'")

private def arguments (g : Grammar) (s : Settings) (f : String) : Nat → Rule (List Expr)
  | 0 => return []
  | fuel + 1 => do
    if ← takeMark ")" then return []
    else
      let e ← g.expr s
      let l ← peek
      if isMark ")" l.token then
        let _ ← next
        return [e]
      else if isMark "," l.token then
        let _ ← next
        return e :: (← arguments g s f fuel)
      else if l.token = .finish then fail (callEnd f) l.position
      else throw (misfit l (.missing "," ("to separate the arguments to function call '" ++ f ++ "'")))

/-- The arguments of a call whose name was just read. -/
def callArguments (g : Grammar) (s : Settings) (f : String) : Rule (List Expr) := do
  if ← takeMark "()" then return []
  else
    let _ ← next
    let l ← peek
    if l.token = .finish then fail (callEnd f) l.position
    else if isMark ")" l.token then
      let _ ← next
      return []
    else match l.token with
      | .fault f => fail (.lexical f) l.position
      | _ => arguments g (← s.deeper) f (← budget)

/-- Whether a token opens the arguments of a call. -/
def isCallMark (t : Token) : Bool := isMark "(" t || isMark "()" t

/-- An expression in parentheses. -/
def parenthesized (g : Grammar) (s : Settings) : Rule Expr := do
  let opening ← next
  let s ← s.deeperAt opening.position
  if ← takeMark ")" then return .constant .unit opening.position
  else
    let e ← g.expr s
    let l ← next
    if isMark ")" l.token then return e
    else throw (misfit l (.missing ")" "for a matching ( in this expression"))

/-- Puts a piece of a string in front of other parts, unless it is empty. -/
def textPart (s : String) (pos : Position) (parts : List Expr) : List Expr :=
  if s.isEmpty then parts else .constant (.string s) pos :: parts

/-- The parts of a string behind its first. -/
def textParts (g : Grammar) (s : Settings) : Nat → Rule (List Expr)
  | 0 => return []
  | fuel + 1 => do
    let (body, pos) ← block g s
    let part := Expr.block body pos
    let l ← next
    match l.token with
    | .string t => return part :: textPart t l.position []
    | .stringPart t => return part :: textPart t l.position (← textParts g s fuel)
    | .fault f => fail (.lexical f) l.position
    | t => fail (.lexical (.unexpected t.text)) l.position

/-- The parameters of a function behind their opening mark. -/
def parameters (function : String) (separate close : ParseFault) (ending : String) :
    List String → Nat → Rule (List String)
  | seen, 0 => return seen.reverse
  | seen, fuel + 1 => do
    let l ← next
    match l.token with
    | .name p =>
      if seen.contains p then fail (.duplicateParameter function p) l.position
      else
        declare p false
        let l ← next
        if isMark ending l.token then return (p :: seen).reverse
        else if isMark "," l.token then
          parameters function separate close ending (p :: seen) fuel
        else throw (misfit l separate)
    | t => if isMark ending t then return seen.reverse else throw (misfit l close)

/-- Runs a rule where only its own variables are in sight.  Answers also the names that it uses and
does not declare. -/
def secluded {α : Type} (r : Rule α) : Rule (α × List (String × Position)) := do
  let s ← get
  set { s with locals := [], outer := [], stopsAtBar := false }
  let a ← r
  let outer := (← get).outer
  modify fun t => { t with locals := s.locals, outer := s.outer, stopsAtBar := s.stopsAtBar }
  return (a, outer)

/-- The statements of a body. -/
def bodyOf : Stmt → List Stmt
  | .block body _ => body
  | stmt => [stmt]

/-- The name of a function that has none in the script. -/
private def anonymous (n : Nat) : String := "anon$" ++ toString n

/-- A function without a name.  What it uses of its surroundings become parameters in front of its
own. -/
def lambda (g : Grammar) (s : Settings) : Rule Expr := do
  let l ← next
  let s ← { s with isGlobal := false, inLoop := false, inFunction := true }.deeperAt l.position
  let ((params, body), outer) ← secluded do
    let params ←
      if isMark "||" l.token then pure []
      else
        parameters "" (.missing "," "to separate the parameters of anonymous function")
          (.missing bar "to close the parameters list of anonymous function or closure")
          bar [] (← budget)
    let body ← g.stmt s
    return (params, bodyOf body)
  outer.forM fun (name, pos) => access name pos
  let name := anonymous (← get).functions.length
  let f : Function := ⟨name, outer.map (·.1) ++ params, body⟩
  modify fun t => { t with functions := t.functions ++ [f] }
  if outer.isEmpty then return .constant (.function name []) l.position
  else return .closure name outer l.position

end FilterScript.Script.Parser
