import FilterScript.Json.Basic

/-
Reading JSON text.

`Json.read` answers the tree of the first value of a text and what stands behind it.  Each nested
value takes at least one character, so the length of the text bounds the nesting and `read` gives
its recursion that much fuel.
-/
namespace FilterScript.Json

/-- A text and what is left of it. -/
abbrev Rest := List Char

/-- The blanks of the format. -/
def isBlank (c : Char) : Bool := c = ' ' || c = '\n' || c = '\t' || c = '\r'

/-- Drops blanks. -/
def skipBlanks : Rest → Rest
  | [] => []
  | c :: cs => if isBlank c then skipBlanks cs else c :: cs

/-! ### Strings -/

def hexValue (c : Char) : Option Nat :=
  if '0' ≤ c ∧ c ≤ '9' then some (c.toNat - 48)
  else if 'a' ≤ c ∧ c ≤ 'f' then some (c.toNat - 87)
  else if 'A' ≤ c ∧ c ≤ 'F' then some (c.toNat - 55)
  else none

/-- Four hexadecimal digits. -/
def hexWord : Rest → Except Fault (Nat × Rest)
  | a :: b :: c :: d :: rest =>
    match hexValue a, hexValue b, hexValue c, hexValue d with
    | some a, some b, some c, some d => .ok (((a * 16 + b) * 16 + c) * 16 + d, rest)
    | _, _, _, _ => .error .malformed
  | _ => .error .truncated

/-- What a string token gives: its text, or the knowledge that its escapes name no characters. -/
inductive Token where
  | text (s : List Char)
  | unreadable

def simpleEscape (c : Char) : Option Char :=
  match c.toNat with
  | 34 => some c
  | 92 => some c
  | 47 => some c
  | 98 => some (Char.ofNat 8)
  | 102 => some (Char.ofNat 12)
  | 110 => some '\n'
  | 114 => some '\r'
  | 116 => some '\t'
  | _ => none

def isBackslash (c : Char) : Bool := c.toNat = 92

def isQuote (c : Char) : Bool := c.toNat = 34

/-- The character of an escape behind its `u`; the halves of a pair stand one behind the other.
`none` means that the escape is well formed but names no character. -/
def unicodeEscape (cs : Rest) : Except Fault (Option Char × Rest) := do
  let (high, rest) ← hexWord cs
  if high < 0xd800 ∨ 0xdfff < high then .ok (some (Char.ofNat high), rest)
  else if 0xdc00 ≤ high then .ok (none, rest)
  else
    match rest with
    | b :: u :: rest' =>
      if isBackslash b ∧ u = 'u' then
        let (low, rest'') ← hexWord rest'
        if 0xdc00 ≤ low ∧ low ≤ 0xdfff then
          .ok (some (Char.ofNat (0x10000 + (high - 0xd800) * 0x400 + (low - 0xdc00))), rest'')
        else .ok (none, rest'')
      else .ok (none, rest)
    | _ => .ok (none, rest)

/-- The rest of a string behind its opening quote.  `acc` holds the characters read so far, last
first, and is dropped once an escape names no character. -/
def stringTail : Nat → Rest → Option (List Char) → Except Fault (Token × Rest)
  | 0, _, _ => .error .truncated
  | _, [], _ => .error .truncated
  | fuel + 1, c :: cs, acc =>
    if isQuote c then
      .ok (match acc with | some s => .text s.reverse | none => .unreadable, cs)
    else if isBackslash c then
      match cs with
      | [] => .error .truncated
      | e :: rest =>
        if e = 'u' then do
          let (c?, rest) ← unicodeEscape rest
          stringTail fuel rest (do return (← c?) :: (← acc))
        else
          match simpleEscape e with
          | some c => stringTail fuel rest (acc.map (c :: ·))
          | none => .error .malformed
    else if c.toNat < 32 then .error .malformed
    else stringTail fuel cs (acc.map (c :: ·))

/-! ### Numbers

Each reader below answers a value and what is left, or a fault and nothing where the text breaks. -/

/-- A value and the text behind it; no text is left where it broke. -/
abbrev Reading := Json × Option Rest

def stopped (f : Fault) : Reading := (.fault f, none)

def digitValue (c : Char) : Option Nat :=
  if '0' ≤ c ∧ c ≤ '9' then some (c.toNat - 48) else none

def skipDigits : Rest → Rest
  | [] => []
  | c :: cs => if (digitValue c).isSome then skipDigits cs else c :: cs

def largestWord : Nat := 2 ^ 64 - 1

def largestExponent : Nat := 2 ^ 31 - 1

/-- A decimal as a token; a number beyond the range of double precision cannot be read. -/
def realToken (negative : Bool) (d : Decimal) (rest : Rest) : Reading :=
  (if d.toDoubleStepwise.isSome then .number (.real negative d) else .unreadable, some rest)

/-- Adds up the digits of an exponent; `none` when it leaves thirty-two bits. -/
def exponentDigits : Rest → Nat → Option Nat × Rest
  | [], e => (some e, [])
  | c :: cs, e =>
    match digitValue c with
    | none => (some e, c :: cs)
    | some v =>
      if largestExponent < e * 10 + v then (none, skipDigits cs) else exponentDigits cs (e * 10 + v)

def exponentSign : Rest → Bool × Rest
  | [] => (false, [])
  | c :: cs => if c = '+' then (false, cs) else if c = '-' then (true, cs) else (false, c :: cs)

/-- The exponent of a number, behind its mark. -/
def exponentPart (negative : Bool) (d : Decimal) (cs : Rest) : Reading :=
  match exponentSign cs with
  | (_, []) => stopped .truncated
  | (down, c :: rest) =>
    match digitValue c with
    | none => stopped .malformed
    | some v =>
      match exponentDigits rest v with
      | (some e, rest) =>
        realToken negative ⟨d.significand, if down then d.exponent - e else d.exponent + e⟩ rest
      | (none, rest) =>
        if d.significand ≠ 0 ∧ !down then (.unreadable, some rest)
        else (.number (.real negative ⟨0, 0⟩), some rest)

def afterDigits (negative : Bool) (d : Decimal) : Rest → Reading
  | [] => realToken negative d []
  | c :: cs =>
    if c = 'e' ∨ c = 'E' then exponentPart negative d cs else realToken negative d (c :: cs)

/-- The digits behind the point, of which `seen` says whether there was one.  Once sixty-four bits
are full the others are dropped. -/
def fractionDigits (negative : Bool) : Rest → Decimal → (seen : Bool) → Reading
  | [], d, seen => if seen then realToken negative d [] else stopped .truncated
  | c :: cs, d, seen =>
    match digitValue c with
    | none => if seen then afterDigits negative d (c :: cs) else stopped .malformed
    | some v =>
      if largestWord < d.significand * 10 + v then afterDigits negative d (skipDigits cs)
      else fractionDigits negative cs ⟨d.significand * 10 + v, d.exponent - 1⟩ true

/-- What follows the whole part of a number that filled sixty-four bits: each further digit only
raises the exponent. -/
def longWhole (negative : Bool) : Rest → Decimal → Reading
  | [], d => realToken negative d []
  | c :: cs, d =>
    if (digitValue c).isSome then longWhole negative cs ⟨d.significand, d.exponent + 1⟩
    else if c = '.' then fractionDigits negative cs d false
    else afterDigits negative d (c :: cs)

/-- A whole number that fits a word; zero keeps its sign as a real, and so does a number too large
for the signed word. -/
def wholeNumber (negative : Bool) (n : Nat) : Json :=
  if !negative then .number (.natural n)
  else if n = 0 ∨ 2 ^ 63 < n then .number (.real true ⟨n, 0⟩)
  else .number (.negative n)

def afterWhole (negative : Bool) (n : Nat) : Rest → Reading
  | [] => (wholeNumber negative n, some [])
  | c :: cs =>
    if c = '.' then fractionDigits negative cs ⟨n, 0⟩ false
    else if c = 'e' ∨ c = 'E' then exponentPart negative ⟨n, 0⟩ cs
    else (wholeNumber negative n, some (c :: cs))

def wholeDigits (negative : Bool) : Rest → Nat → Reading
  | [], n => afterWhole negative n []
  | c :: cs, n =>
    match digitValue c with
    | none => afterWhole negative n (c :: cs)
    | some v =>
      if largestWord < n * 10 + v then longWhole negative cs ⟨n, 1⟩
      else wholeDigits negative cs (n * 10 + v)

def startsWithDigit : Rest → Bool
  | [] => false
  | c :: _ => (digitValue c).isSome

/-- A number, behind its sign.  A leading zero stands alone. -/
def readNumber (negative : Bool) : Rest → Reading
  | [] => stopped .truncated
  | c :: cs =>
    match digitValue c with
    | none => stopped .malformed
    | some 0 => if startsWithDigit cs then stopped .malformed else afterWhole negative 0 cs
    | some v => wholeDigits negative cs v

/-! ### Values -/

/-- The letters of a word that must follow. -/
def readWord (value : Json) : List Char → Rest → Reading
  | [], cs => (value, some cs)
  | _ :: _, [] => stopped .truncated
  | w :: ws, c :: cs => if w = c then readWord value ws cs else stopped .malformed

def readString (cs : Rest) : Reading :=
  match stringTail (cs.length + 1) cs (some []) with
  | .ok (.text s, rest) => (.string (String.ofList s), some rest)
  | .ok (.unreadable, rest) => (.unreadable, some rest)
  | .error f => stopped f

def isOpenBrace (c : Char) : Bool := c.toNat = 123

def isCloseBrace (c : Char) : Bool := c.toNat = 125

mutual

/-- The value at the start of a text, behind its blanks. -/
def value : Nat → Rest → Reading
  | 0, _ => stopped .truncated
  | fuel + 1, cs =>
    match skipBlanks cs with
    | [] => stopped .truncated
    | c :: rest =>
      if c = 'n' then readWord .null ['u', 'l', 'l'] rest
      else if c = 't' then readWord (.bool true) ['r', 'u', 'e'] rest
      else if c = 'f' then readWord (.bool false) ['a', 'l', 's', 'e'] rest
      else if c = '-' then readNumber true rest
      else if (digitValue c).isSome then readNumber false (c :: rest)
      else if isQuote c then readString rest
      else if c = '[' then
        match skipBlanks rest with
        | [] => (.array [] (some .truncated), none)
        | d :: rest =>
          if d = ']' then (.array [] none, some rest)
          else
            let (items, stop, rest) := items fuel (d :: rest)
            (.array items stop, rest)
      else if isOpenBrace c then
        match skipBlanks rest with
        | [] => (.object [] (some .truncated), none)
        | d :: rest =>
          if isCloseBrace d then (.object [] none, some rest)
          else
            let (members, stop, rest) := members fuel (d :: rest)
            (.object members stop, rest)
      else stopped .malformed

/-- The items of an array from one of them on, up to its end. -/
def items : Nat → Rest → List Json × Option Fault × Option Rest
  | 0, _ => ([], some .truncated, none)
  | fuel + 1, cs =>
    match value fuel cs with
    | (v, none) => ([v], none, none)
    | (v, some rest) =>
      match skipBlanks rest with
      | [] => ([v], some .truncated, none)
      | c :: rest =>
        if c = ']' then ([v], none, some rest)
        else if c = ',' then
          let (vs, stop, rest) := items fuel rest
          (v :: vs, stop, rest)
        else ([v], some .malformed, none)

/-- The members of an object from one of them on, up to its end. -/
def members : Nat → Rest → List (String × Json) × Option Fault × Option Rest
  | 0, _ => ([], some .truncated, none)
  | fuel + 1, cs =>
    match skipBlanks cs with
    | [] => ([], some .truncated, none)
    | q :: rest =>
      if !isQuote q then ([], some .malformed, none)
      else
        match readString rest with
        | (.string key, some rest) =>
          match skipBlanks rest with
          | [] => ([(key, .fault .truncated)], none, none)
          | c :: rest =>
            if c ≠ ':' then ([(key, .fault .malformed)], none, none)
            else
              match value fuel rest with
              | (v, none) => ([(key, v)], none, none)
              | (v, some rest) =>
                match skipBlanks rest with
                | [] => ([(key, v)], some .truncated, none)
                | c :: rest =>
                  if isCloseBrace c then ([(key, v)], none, some rest)
                  else if c = ',' then
                    let (ms, stop, rest) := members fuel rest
                    ((key, v) :: ms, stop, rest)
                  else ([(key, v)], some .malformed, none)
        | (.fault f, _) => ([], some f, none)
        | _ => ([], some .malformed, none)

end

/-- The first value of a text, and what stands behind it if the text did not break. -/
def read (text : String) : Reading :=
  let cs := text.toList
  value (2 * cs.length + 2) cs

end FilterScript.Json
