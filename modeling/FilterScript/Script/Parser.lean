import FilterScript.Script.Parser.Statement

/-
Reading a script as a syntax tree.

`grammar n` ties the rules together so that they may refer to one another `n` deep.  A rule cannot go
deeper without end before it has passed a token, so the number of tokens bounds the depth that a
script needs.
-/
namespace FilterScript.Script

namespace Parser

/-- The grammar with each rule made of the rules of another. -/
def Grammar.unfold (g : Grammar) : Grammar where
  expr := exprRule g
  unary := unaryRule g
  binary := binaryRule g
  links := linksRule g
  stmt := stmtRule g
  branch := branchRule g

/-- The grammar whose rules may refer to one another `n` deep. -/
def grammar : Nat → Grammar
  | 0 =>
    let none {α : Type} : Rule α := do fail .incomplete (← peek).position
    ⟨fun _ => none, fun _ => none, fun _ _ _ => none, fun _ => none, fun _ => none, fun _ => none⟩
  | n + 1 =>
    { expr := fun s => (grammar n).unfold.expr s
      unary := fun s => (grammar n).unfold.unary s
      binary := fun s p e => (grammar n).unfold.binary s p e
      links := fun s => (grammar n).unfold.links s
      stmt := fun s => (grammar n).unfold.stmt s
      branch := fun s => (grammar n).unfold.branch s }

private def topItems (g : Grammar) (s : Settings) : Nat → Rule (List Stmt)
  | 0 => return []
  | fuel + 1 => do
    let l ← peek
    if l.token = .finish then return []
    else
      let stmt ← g.stmt s
      if stmt.isEmpty then topItems g s fuel
      else
        let l ← peek
        if l.token = .finish then return [stmt]
        else if isMark ";" l.token then
          if stmt.isSelfTerminated then return stmt :: (← topItems g s fuel)
          else
            let _ ← next
            return stmt :: (← topItems g s fuel)
        else if stmt.isSelfTerminated then return stmt :: (← topItems g s fuel)
        else throw (misfit l (.missing ";" statementEnd))

end Parser

/-- Reads a script. -/
def parse (limits : Limits) (script : String) : Except ParseError Program := do
  let tokens := Lexer.tokens limits.bytes script
  let n := tokens.length
  let g := Parser.grammar (8 * n + 8)
  let s : Parser.Settings := ⟨limits, 0, .none, true, false, false⟩
  let (body, st) ← (Parser.topItems g s (2 * n + 2)).run ⟨tokens, [], [], [], false⟩
  return ⟨body, st.functions⟩

end FilterScript.Script
