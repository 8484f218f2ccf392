import FilterScript.Script.Token

/-
Cutting a script into tokens.

`tokens` reads a script from its start.  A token takes at least one character, so the length of the
script bounds their number.  A string between back-ticks may hold blocks of script; while one of
them is open, the lexer counts its braces, and behind the last it goes on with the string.
-/
namespace FilterScript.Script.Lexer

/-- What is left of a script, and the position of the character before it. -/
structure Cursor where
  rest : List Char
  position : Position
deriving Repr

/-- A token with its place. -/
structure Lexeme where
  token : Token
  position : Position
deriving Repr, Inhabited

private def ahead (p : Position) (n : Nat) : Position := ⟨p.line, p.column + n⟩

private def nextLine (p : Position) : Position := ⟨p.line + 1, 0⟩

private def backtick : Char := Char.ofNat 96

private def quote : Char := Char.ofNat 34

private def apostrophe : Char := Char.ofNat 39

private def backslash : Char := Char.ofNat 92

private def openBrace : Char := Char.ofNat 123

private def closeBrace : Char := Char.ofNat 125

/-! ### Strings -/

/-- How a kind of string is read. -/
structure Quoting where
  /-- The character that ends it. -/
  ending : Char
  /-- Backslashes mean nothing, and lines may end inside. -/
  verbatim : Bool
  /-- A backslash at the end of a line goes on in the next. -/
  continues : Bool
  /-- It may hold blocks of script. -/
  embeds : Bool

/-- What the end of a string token was. -/
inductive Ending where
  | closed
  /-- A block of script follows. -/
  | block
  /-- The script ended first. -/
  | script

private def digitValue (radix : Nat) (c : Char) : Option Nat :=
  let v :=
    if '0' ≤ c ∧ c ≤ '9' then c.toNat - 48
    else if 'a' ≤ c ∧ c ≤ 'z' then c.toNat - 87
    else if 'A' ≤ c ∧ c ≤ 'Z' then c.toNat - 55
    else radix
  if v < radix then some v else none

/-- The digits of a numbered character; `seen` is the escape so far, its last character first. -/
private def numbered : Nat → Nat → List Char → List Char → Position →
    Except (LexFault × Position) (Char × List Char × Position)
  | 0, value, seen, rest, p =>
    if value.isValidChar then .ok (Char.ofNat value, rest, p)
    else .error (.escape (String.ofList seen.reverse), p)
  | _ + 1, _, seen, [], p => .error (.escape (String.ofList seen.reverse), p)
  | k + 1, value, seen, c :: rest, p =>
    match digitValue 16 c with
    | some v => numbered k (value * 16 + v) (c :: seen) rest (ahead p 1)
    | none => .error (.escape (String.ofList (c :: seen).reverse), ahead p 1)

private def isBlank (c : Char) : Bool := c.isWhitespace || c.toNat = 11 || c.toNat = 12

/-- The string being read: its characters with the last first, their size in bytes, and the column
up to which blanks are dropped behind a continued line. -/
structure Reading where
  chars : List Char
  size : Nat
  blanksTo : Nat

private def Reading.push (r : Reading) (c : Char) : Reading :=
  ⟨c :: r.chars, r.size + c.utf8Size, 0⟩

private def simpleEscape (q : Quoting) (c : Char) : Option Char :=
  if c = backslash then some backslash
  else if c = 't' then some '\t'
  else if c = 'n' then some '\n'
  else if c = 'r' then some '\r'
  else if c = q.ending then some c
  else none

private def escapeDigits (c : Char) : Option Nat :=
  if c = 'x' then some 2 else if c = 'u' then some 4 else if c = 'U' then some 8 else none

/-- Reads a string behind its opening mark, which stood at `start`. -/
private def stringTail (q : Quoting) (limit : Nat) (start : Position) :
    Nat → Reading → List Char → Position →
      Except (LexFault × Position) (String × Ending × Cursor)
  | 0, _, _, _ => .error (.openString, start)
  | fuel + 1, r, cs, p =>
    let finish (ending : Ending) (cs : List Char) (p : Position) :
        Except (LexFault × Position) (String × Ending × Cursor) :=
      if 0 < limit ∧ limit < r.size then .error (.longString limit, start)
      else .ok (String.ofList r.chars.reverse, ending, ⟨cs, p⟩)
    match cs with
    | [] => if q.verbatim then finish .script [] (ahead p 1) else .error (.openString, start)
    | c :: cs =>
      let p := ahead p 1
      if q.embeds ∧ c = '$' ∧ cs.head? = some openBrace then finish .block cs p
      else if 0 < limit ∧ limit < r.size then .error (.longString limit, start)
      else if c = q.ending then
        match cs with
        | d :: cs' =>
          if d = q.ending then stringTail q limit start fuel (r.push c) cs' (ahead p 1)
          else finish .closed cs p
        | [] => finish .closed cs p
      else if c = '\r' ∧ cs.head? = some '\n' then stringTail q limit start fuel r cs p
      else if c = '\n' then
        if q.verbatim then stringTail q limit start fuel (r.push c) cs (nextLine p)
        else .error (.openString, start)
      else if c = backslash ∧ !q.verbatim then
        match cs with
        | [] => if q.continues then finish .script [] (ahead p 1) else .error (.openString, start)
        | e :: cs =>
          let p := ahead p 1
          match escapeDigits e with
          | some k =>
            match numbered k 0 [e, backslash] cs p with
            | .ok (c, cs, p) => stringTail q limit start fuel (r.push c) cs p
            | .error f => .error f
          | none =>
            match simpleEscape q e with
            | some c => stringTail q limit start fuel (r.push c) cs p
            | none =>
              if e = '\n' ∧ q.continues then
                stringTail q limit start fuel { r with blanksTo := start.column + 1 } cs
                  (nextLine p)
              else if e = '\n' then .error (.openString, start)
              else .error (.escape (String.ofList [backslash, e]), p)
      else if isBlank c ∧ p.column < r.blanksTo then stringTail q limit start fuel r cs p
      else stringTail q limit start fuel (r.push c) cs p

/-! ### Numbers -/

private def isDigit (c : Char) : Bool := (digitValue 10 c).isSome

private def isNameStart (c : Char) : Bool :=
  ('a' ≤ c && c ≤ 'z') || ('A' ≤ c && c ≤ 'Z') || c = '_'

private def isNamePart (c : Char) : Bool := isNameStart c || isDigit c

/-- Digits, with the marks between them dropped. -/
private def digits (radix : Nat) : List Char → Position → List Char × List Char × Position
  | [], p => ([], [], p)
  | c :: cs, p =>
    if c = '_' then digits radix cs (ahead p 1)
    else if (digitValue radix c).isSome then
      let (ds, rest, p) := digits radix cs (ahead p 1)
      (c :: ds, rest, p)
    else ([], c :: cs, p)

private def exponentFollows : List Char → Bool
  | c :: _ => isDigit c || c = '+' || c = '-'
  | [] => false

/-- The exponent of a number, if one stands here. -/
private def exponent (cs : List Char) (p : Position) : List Char × List Char × Position :=
  match cs with
  | c :: cs' =>
    if c = 'e' ∧ exponentFollows cs' then
      match cs' with
      | d :: cs'' =>
        if isDigit d then
          let (ds, rest, p) := digits 10 cs' (ahead p 1)
          ('e' :: ds, rest, p)
        else
          let (ds, rest, p) := digits 10 cs'' (ahead p 2)
          ('e' :: d :: ds, rest, p)
      | [] => ([], cs, p)
    else ([], cs, p)
  | [] => ([], cs, p)

/-- The fraction of a number, if one stands here.  A point that a name or another point follows is
not part of the number. -/
private def fraction (cs : List Char) (p : Position) : List Char × List Char × Position :=
  match cs with
  | '.' :: d :: rest =>
    if isDigit d then
      let (ds, rest, p) := digits 10 (d :: rest) (ahead p 1)
      ('.' :: ds, rest, p)
    else if d = '_' ∨ d = '.' ∨ isNameStart d then ([], cs, p)
    else (['.', '0'], d :: rest, ahead p 1)
  | _ => ([], cs, p)

private def toNat (radix : Nat) (ds : List Char) : Nat :=
  ds.foldl (fun n c => n * radix + (digitValue radix c).getD 0) 0

private def largestInt : Nat := 2 ^ 63 - 1

/-- The single that digits stand for. -/
def readFloat? (negative : Bool) (text : List Char) : Option Single :=
  let whole := text.takeWhile isDigit
  let rest := text.dropWhile isDigit
  let (part, rest) := match rest with
    | '.' :: cs => (cs.takeWhile isDigit, cs.dropWhile isDigit)
    | _ => ([], rest)
  let significand := toNat 10 (whole ++ part)
  let places : Int := part.length
  let value (e : Int) := Decimal.toSingle negative ⟨significand, e - places⟩
  match rest with
  | [] => some (value 0)
  | _ :: cs =>
    let (down, ds) := match cs with
      | '-' :: ds => (true, ds)
      | '+' :: ds => (false, ds)
      | ds => (false, ds)
    if ds.isEmpty ∨ !ds.all isDigit then none
    else some (value (if down then -(toNat 10 ds : Int) else toNat 10 ds))

/-- The token of a decimal number: an integer if it fits one, else a float. -/
private def decimalToken (negative : Bool) (text : List Char) : Token :=
  let shown := String.ofList (if negative then '-' :: text else text)
  let n := toNat 10 text
  if text.all isDigit ∧ (n ≤ largestInt ∨ (negative ∧ n = largestInt + 1)) then
    .int (if negative then -(n : Int) else n)
  else
    match readFloat? negative text with
    | some x => .float x shown
    | none => .fault (.number shown)

/-- The token of a number in another base: its bits are those of a word. -/
private def radixToken (radix : Nat) (ds : List Char) : Token :=
  let n := toNat radix ds
  if ds.isEmpty ∨ !(ds.all fun c => (digitValue radix c).isSome) ∨ 2 ^ 64 ≤ n then
    .fault (.number (String.ofList ds))
  else .int (if n ≤ largestInt then n else (n : Int) - 2 ^ 64)

private def radixOf (c : Char) : Option (Nat × Nat) :=
  if c = 'x' ∨ c = 'X' then some (16, 16)
  else if c = 'o' ∨ c = 'O' then some (8, 10)
  else if c = 'b' ∨ c = 'B' then some (2, 10)
  else none

/-- A number from its first digit `c` on, which stands at `p`. -/
private def number (negative : Bool) (c : Char) (cs : List Char) (p : Position) : Token × Cursor :=
  let inRadix : Option (Char × Nat × Nat × List Char) :=
    match cs with
    | d :: rest =>
      if c = '0' then (radixOf d).map fun (radix, shown) => (d, radix, shown, rest) else none
    | [] => none
  match inRadix with
  | some (mark, radix, shown, rest) =>
    let (ds, rest, p) := digits shown rest (ahead p 1)
    -- A sign in front moves the digits by one, so that the mark of the base is read as one.
    (radixToken radix (if negative then mark :: ds else ds), ⟨rest, p⟩)
  | none =>
    let (whole, rest, p) := digits 10 (c :: cs) ⟨p.line, p.column - 1⟩
    let (part, rest, p) := fraction rest p
    let (power, rest, p) := exponent rest p
    (decimalToken negative (whole ++ part ++ power), ⟨rest, p⟩)

/-! ### Words, marks and comments -/

private def properName (s : List Char) : Bool := s.any (· ≠ '_')

private def wordToken (s : List Char) : Token :=
  let text := String.ofList s
  if Token.words.contains text then .word text
  else if Token.callableWords.contains text || Token.reservedWords.contains text then
    .reserved text
  else if text = "_" then .mark text
  else if properName s then .name text
  else .fault (.name text)

/-- The marks, longest first where one begins another. -/
private def marks : List String :=
  ["...", "..=", "**=", "<<=", ">>=", "===", "!==", "::=", "??=",
   "+=", "++", "-=", "->", "--", "*)", "*=", "**", "/=", "..", "==", "=>", "::", ":=", "<=", "<-",
   "<<", "<|", ">=", ">>", "!=", "!.", "||", "|=", "|>", "&&", "&=", "^=", "%=", "??", "?.", "?[",
   "#\x7b", "#!", "(*", "()",
   "+", "-", "*", "/", "(", ")", "[", "]", "\x7b", "\x7d", ";", ",", ".", "=", ":", "<", ">", "!",
   "|", "&", "^", "%", "~", "@", "$", "?", "#"]

private def reservedMarks : List String :=
  ["...", "::=", "??=", "++", "--", "::", "<|", "|>", "!.", "#!", "#", "~", "@", "$", "?"]

private def advice : String → Option String
  | "===" => some "'===' is not a valid operator. This is not JavaScript! Should it be '=='?"
  | "!==" => some "'!==' is not a valid operator. This is not JavaScript! Should it be '!='?"
  | "->" => some "'->' is not a valid symbol. This is not C or C++!"
  | "<-" => some "'<-' is not a valid symbol. This is not Go! Should it be '<='?"
  | ":=" =>
    some "':=' is not a valid assignment operator. This is not Pascal or Go! Should it be simply '='?"
  | "(*" =>
    some "'(* .. *)' is not a valid comment format. This is not Pascal! Should it be '/* .. */'?"
  | "*)" =>
    some "'(* .. *)' is not a valid comment format. This is not Pascal! Should it be '/* .. */'?"
  | _ => none

private def markToken (s : String) : Token :=
  match advice s with
  | some text => .fault (.improper text)
  | none => if reservedMarks.contains s then .reserved s else .mark s

private def strip : List Char → List Char → Option (List Char)
  | [], cs => some cs
  | _ :: _, [] => none
  | w :: ws, c :: cs => if w = c then strip ws cs else none

private def mark? (cs : List Char) : Option (String × List Char) :=
  marks.findSome? fun m => (strip m.toList cs).map fun rest => (m, rest)

/-- The negation of `in`, which no part of a name may follow. -/
private def notIn? : List Char → Option (List Char)
  | '!' :: 'i' :: 'n' :: rest =>
    match rest with
    | c :: _ => if isNamePart c then none else some rest
    | [] => some rest
  | _ => none

private def lineComment : List Char → Position → List Char × Position
  | [], p => ([], p)
  | c :: cs, p => if c = '\n' then (cs, nextLine p) else lineComment cs (ahead p 1)

/-- A comment up to its end; comments may hold comments. -/
private def blockComment : Nat → List Char → Position → List Char × Position
  | 0, cs, p => (cs, p)
  | _ + 1, [], p => ([], p)
  | depth + 1, '/' :: '*' :: cs, p => blockComment (depth + 2) cs (ahead p 2)
  | depth + 1, '*' :: '/' :: cs, p => blockComment depth cs (ahead p 2)
  | depth + 1, c :: cs, p =>
    blockComment (depth + 1) cs (if c = '\n' then nextLine p else ahead p 1)

/-- Drops blanks and comments. -/
private def skip : Nat → List Char → Position → List Char × Position
  | 0, cs, p => (cs, p)
  | fuel + 1, cs, p =>
    match cs with
    | '/' :: '/' :: rest =>
      let (cs, p) := lineComment rest (ahead p 2)
      skip fuel cs p
    | '/' :: '*' :: rest =>
      let (cs, p) := blockComment 1 rest (ahead p 2)
      skip fuel cs p
    | c :: rest =>
      if c = '\n' then skip fuel rest (nextLine p)
      else if isBlank c then skip fuel rest (ahead p 1)
      else (cs, p)
    | [] => ([], p)

/-! ### The whole script -/

/-- The state of the lexer: where it is, whether a minus sign would negate, and for each open block
inside a string how many braces are open in it. -/
structure State where
  cursor : Cursor
  unary : Bool
  blocks : List Nat

private def stringToken (q : Quoting) (limit : Nat) (start : Position) (c : Cursor) :
    Token × Position × Ending × Cursor :=
  match stringTail q limit start (c.rest.length + 1) ⟨[], 0, 0⟩ c.rest c.position with
  | .ok (s, .block, c) => (.stringPart s, start, .block, c)
  | .ok (s, .closed, c) => (.string s, start, .closed, c)
  | .ok (_, .script, c) => (.fault .openString, start, .script, c)
  | .error (f, p) => (.fault f, p, .script, ⟨[], p⟩)

private def plainQuoting : Quoting := ⟨quote, false, true, false⟩

private def charQuoting : Quoting := ⟨apostrophe, false, false, false⟩

private def textQuoting : Quoting := ⟨backtick, true, false, true⟩

private def charToken : Token → Token
  | .string s =>
    match s.toList with
    | [c] => .char c
    | _ => .fault (.char s)
  | t => t

private def ofBraces : List Nat → String → List Nat
  | [], _ => []
  | k :: ks, m =>
    if m = "\x7b" ∨ m = "#\x7b" then (k + 1) :: ks
    else if m = "\x7d" then (k - 1) :: ks
    else k :: ks

/-- Behind the opening back-tick a line may end, and does not count. -/
private def skipLineEnd (c : Cursor) : Cursor :=
  match c.rest with
  | '\r' :: '\n' :: rest => ⟨rest, nextLine c.position⟩
  | '\n' :: rest => ⟨rest, nextLine c.position⟩
  | '\r' :: rest => ⟨rest, nextLine c.position⟩
  | _ => c

/-- The next token. -/
private def step (limit : Nat) (s : State) : Lexeme × State :=
  let (cs, p) := skip (s.cursor.rest.length + 1) s.cursor.rest s.cursor.position
  let start := ahead p 1
  let answer (t : Token) (pos : Position) (c : Cursor) (blocks : List Nat) : Lexeme × State :=
    (⟨t, pos⟩, ⟨c, t.isBeforeUnary, blocks⟩)
  match cs with
  | [] => answer .finish start ⟨[], start⟩ s.blocks
  | c :: rest =>
    let next : Cursor := ⟨rest, start⟩
    if isDigit c then
      let (t, cur) := number false c rest start
      answer t start cur s.blocks
    else if isNameStart c then
      let body := rest.takeWhile isNamePart
      answer (wordToken (c :: body)) start ⟨rest.dropWhile isNamePart, ahead start body.length⟩
        s.blocks
    else if c = quote then
      let (t, pos, _, cur) := stringToken plainQuoting limit start next
      answer t pos cur s.blocks
    else if c = backtick then
      let (t, pos, ending, cur) := stringToken textQuoting limit start (skipLineEnd next)
      answer t pos cur (match ending with | .block => 0 :: s.blocks | _ => s.blocks)
    else if c = apostrophe then
      if rest.head? = some apostrophe then
        answer (.fault (.char "")) start ⟨rest.drop 1, ahead start 1⟩ s.blocks
      else
        let (t, pos, _, cur) := stringToken charQuoting limit start next
        answer (charToken t) pos cur s.blocks
    else if c = '-' ∧ s.unary ∧ (rest.head?.map isDigit).getD false then
      match rest with
      | d :: rest =>
        let (t, cur) := number true d rest (ahead start 1)
        answer t start cur s.blocks
      | [] => answer .finish start ⟨[], start⟩ s.blocks
    else
      match notIn? cs with
      | some rest => answer (.mark "!in") start ⟨rest, ahead start 2⟩ s.blocks
      | none =>
        match mark? cs with
        | some (m, rest) =>
          answer (markToken m) start ⟨rest, ahead p m.length⟩ (ofBraces s.blocks m)
        | none => answer (.fault (.unexpected c.toString)) start next s.blocks

/-- Whether a closing brace has just ended a block inside a string. -/
private def endsBlock (before after : State) (t : Token) : Bool :=
  match before.blocks, after.blocks with
  | 1 :: _, 0 :: _ => t = .mark "\x7d"
  | _, _ => false

private def run (limit : Nat) : Nat → State → List Lexeme
  | 0, _ => []
  | fuel + 1, s =>
    let (l, s') := step limit s
    match l.token with
    | .finish => [l]
    | .fault _ => [l]
    | t =>
      if endsBlock s s' t then
        let start := ahead s'.cursor.position 1
        let (t, pos, ending, cur) := stringToken textQuoting limit s'.cursor.position s'.cursor
        let blocks := match ending with
          | .block => 0 :: s'.blocks.drop 1
          | _ => s'.blocks.drop 1
        let more : Lexeme := ⟨t, if pos = s'.cursor.position then start else pos⟩
        match t with
        | .fault _ => [l, more]
        | _ => l :: more :: run limit fuel ⟨cur, t.isBeforeUnary, blocks⟩
      else l :: run limit fuel s'

/-- The tokens of a script, up to its end or to the first fault.  Strings longer than `limit` bytes
are faults, unless it is zero. -/
def tokens (limit : Nat) (script : String) : List Lexeme :=
  let cs := script.toList
  run limit (2 * cs.length + 2) ⟨⟨cs, ⟨1, 0⟩⟩, true, []⟩

end FilterScript.Script.Lexer
