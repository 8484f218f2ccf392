import FilterScript.Json.Basic
import FilterScript.Number.Text

/-
Writing JSON text, on one line or indented.
-/
namespace FilterScript.Json

def hexDigit (n : Nat) : Char := if n < 10 then Char.ofNat (48 + n) else Char.ofNat (87 + n)

/-- A character inside a string: quotes, backslashes and control characters are escaped. -/
def escape (c : Char) : List Char :=
  let backslash := Char.ofNat 92
  match c.toNat with
  | 34 => [backslash, c]
  | 92 => [backslash, c]
  | 8 => [backslash, 'b']
  | 9 => [backslash, 't']
  | 10 => [backslash, 'n']
  | 12 => [backslash, 'f']
  | 13 => [backslash, 'r']
  | n =>
    if n < 32 then [backslash, 'u', '0', '0', hexDigit (n / 16), hexDigit (n % 16)] else [c]

def quote : Char := Char.ofNat 34

/-- A string between quotes. -/
def quoted (s : String) : List Char := quote :: s.toList.flatMap escape ++ [quote]

/-- The text of a numeral. -/
def Numeral.text : Numeral → List Char
  | .natural n => Nat.toDigits 10 n
  | .negative n => '-' :: Nat.toDigits 10 n
  | .real s d =>
    let body := if isPlainLead d.lead then d.positional else d.scientific true
    if s then '-' :: body else body

def openBrace : Char := Char.ofNat 123

def closeBrace : Char := Char.ofNat 125

def separated (mark : List Char) : List (List Char) → List Char
  | [] => []
  | [x] => x
  | x :: y :: rest => x ++ mark ++ separated mark (y :: rest)

mutual

/-- The text of a value with no blanks. -/
def compact : Json → List Char
  | .null => ['n', 'u', 'l', 'l']
  | .bool true => ['t', 'r', 'u', 'e']
  | .bool false => ['f', 'a', 'l', 's', 'e']
  | .number n => n.text
  | .string s => quoted s
  | .array items _ => '[' :: separated [','] (compactItems items) ++ [']']
  | .object members _ => openBrace :: separated [','] (compactMembers members) ++ [closeBrace]
  | .unreadable => []
  | .fault _ => []

def compactItems : List Json → List (List Char)
  | [] => []
  | j :: rest => compact j :: compactItems rest

def compactMembers : List (String × Json) → List (List Char)
  | [] => []
  | (k, j) :: rest => (quoted k ++ ':' :: compact j) :: compactMembers rest

end

def newline (depth : Nat) : List Char := '\n' :: List.replicate (2 * depth) ' '

def block (opening closing : Char) (depth : Nat) : List (List Char) → List Char
  | [] => [opening, closing]
  | parts =>
    opening :: newline (depth + 1) ++ separated (',' :: newline (depth + 1)) parts
      ++ newline depth ++ [closing]

mutual

/-- The text of a value with one part on a line, two blanks to a level. -/
def indented (depth : Nat) : Json → List Char
  | .array items _ => block '[' ']' depth (indentedItems (depth + 1) items)
  | .object members _ => block openBrace closeBrace depth (indentedMembers (depth + 1) members)
  | .null => compact .null
  | .bool b => compact (.bool b)
  | .number n => compact (.number n)
  | .string s => compact (.string s)
  | .unreadable => []
  | .fault _ => []

def indentedItems (depth : Nat) : List Json → List (List Char)
  | [] => []
  | j :: rest => indented depth j :: indentedItems depth rest

def indentedMembers (depth : Nat) : List (String × Json) → List (List Char)
  | [] => []
  | (k, j) :: rest => (quoted k ++ ':' :: ' ' :: indented depth j) :: indentedMembers depth rest

end

/-- The text of a value on one line. -/
def render (j : Json) : String := String.ofList j.compact

/-- The indented text of a value. -/
def renderIndented (j : Json) : String := String.ofList (j.indented 0)

end FilterScript.Json
