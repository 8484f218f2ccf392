import FilterScript.Json.Reader
import FilterScript.Number.Text
import FilterScript.Text.Quoted

/-
What is said of a text that is not the JSON that was asked for.

A `Form` says what is asked for.  `Form.complaint?` reads a text along a form and stops at the first
mistake, which it names together with its line and its column, counted in bytes.  A mistake that
concerns a whole record, such as a field that is missing, is placed behind the record.

`Json.decode` answers the value of a text or the kind of its fault; a complaint is only asked for
when it answered a fault.
-/
namespace FilterScript.Json

/-- What is asked for. -/
inductive Form where
  /-- A natural number up to a bound, and what such numbers are called. -/
  | natural (name : String) (bound : Nat)
  /-- A string, and what it is called. -/
  | text (name : String)
  /-- `null`, or something. -/
  | optional (form : Form)
  /-- A record with its fields, each of which may be needed. -/
  | record (name : String) (fields : List (String × Bool × Form))

/-- A mistake.  If its place is known, it is given by how many bytes are left behind it. -/
inductive Mistake where
  | placed (message : String) (left : Nat)
  | unplaced (message : String)

/-- Reading along a text.  A mistake keeps what is left of the text. -/
abbrev Scan := ExceptT Mistake (StateM Rest)

namespace Scan

private def bytes (cs : Rest) : Nat := cs.foldl (fun n c => n + c.utf8Size) 0

/-- Skips blanks, and answers what is left. -/
private def rest : Scan Rest := do
  let cs := skipBlanks (← get)
  set cs
  return cs

/-- A mistake in what was just passed. -/
private def behind {α : Type} (message : String) : Scan α := do
  throw (.placed message (bytes (← get)))

/-- A mistake in what comes next. -/
private def ahead {α : Type} (message : String) : Scan α := do
  throw (.placed message (bytes (← get) - 1))

/-- Gives a mistake its place: here. -/
private def placing {α : Type} (scan : Scan α) : Scan α := do
  try scan
  catch
    | .placed message left => throw (.placed message left)
    | .unplaced message => behind message

/-- What is said where a value is missing. -/
private def noValue : String := "EOF while parsing a value"

private def openString : String := "EOF while parsing a string"

private def openObject : String := "EOF while parsing an object"

private def openList : String := "EOF while parsing a list"

private def ticked (s : List Char) : String :=
  String.ofList (Char.ofNat 96 :: s ++ [Char.ofNat 96])

/-- Passes the letters of a word. -/
private def word : List Char → Scan Unit
  | [] => return ()
  | w :: ws => do
    match ← get with
    | [] => behind noValue
    | c :: cs =>
      set cs
      if c = w then word ws else behind "expected ident"

/-! ### Strings -/

private def isHex (c : Char) : Bool :=
  ('0' ≤ c ∧ c ≤ '9') ∨ ('a' ≤ c ∧ c ≤ 'f') ∨ ('A' ≤ c ∧ c ≤ 'F')

private def hexDigit (c : Char) : Nat :=
  if c ≤ '9' then c.toNat - 48 else if c ≤ 'F' then c.toNat - 55 else c.toNat - 87

/-- Passes four hexadecimal digits. -/
private def hexWord : Scan Nat := do
  let cs ← get
  if bytes cs < 4 then
    set ([] : Rest)
    behind openString
  else
    let digits := cs.take 4
    if digits.all isHex then
      set (cs.drop 4)
      return digits.foldl (fun n c => n * 16 + hexDigit c) 0
    else throw (.placed "invalid escape" (bytes cs - 4))

/-- Passes one character that must follow the first half of a pair. -/
private def pairMark (isIt : Char → Bool) : Scan Unit := do
  match ← get with
  | [] => behind openString
  | c :: cs =>
    set cs
    if isIt c then return () else behind "unexpected end of hex escape"

/-- Passes the digits of an escape.  Where a string is read, its halves must make a pair. -/
private def unicodeEscape (strict : Bool) : Scan Unit := do
  let lone {α : Type} : Scan α := behind "lone leading surrogate in hex escape"
  let n ← hexWord
  if !strict ∨ n < 0xd800 ∨ 0xdfff < n then return ()
  else if 0xdc00 ≤ n then lone
  else
    pairMark fun c => c.toNat = 92
    pairMark fun c => c = 'u'
    let low ← hexWord
    if 0xdc00 ≤ low ∧ low ≤ 0xdfff then return () else lone

private def isEscape (c : Char) : Bool :=
  c.toNat = 34 || c.toNat = 92 || "/bfnrt".toList.contains c

/-- Passes the rest of a string.  One that is read is held to more than one that is skipped. -/
private def stringTail (strict : Bool) : Nat → Scan Unit
  | 0 => behind openString
  | fuel + 1 => do
    match ← get with
    | [] => behind openString
    | c :: cs =>
      if c.toNat = 34 then set cs
      else if c.toNat = 92 then
        match cs with
        | [] => do
          set cs
          behind openString
        | e :: cs' =>
          if e = 'u' then do
            set cs'
            unicodeEscape strict
            stringTail strict fuel
          else if isEscape e then do
            set cs'
            stringTail strict fuel
          else throw (.placed "invalid escape" (bytes cs - 1))
      else if c.toNat < 32 then do
        if strict then set cs
        behind ("control character (" ++ String.singleton (Char.ofNat 92) ++ "u0000-"
          ++ String.singleton (Char.ofNat 92) ++ "u001F) found while parsing a string")
      else do
        set cs
        stringTail strict fuel

/-- Passes the rest of a string, and answers it. -/
private def string (strict : Bool) : Scan String := do
  let cs ← get
  stringTail strict (cs.length + 1)
  let quoted := Char.ofNat 34 :: cs.take (cs.length - (← get).length)
  match (read (String.ofList quoted)).1 with
  | .string s => return s
  | _ => return ""

/-! ### Numbers -/

private def startsWith (p : Char → Bool) : Scan Bool := do
  match ← get with
  | [] => return false
  | c :: _ => return p c

private def digits : Scan Unit := modify fun cs => cs.dropWhile Char.isDigit

/-- Passes the exponent of a number, behind its mark. -/
private def exponent (strict : Bool) : Scan Unit := do
  if ← startsWith fun c => c = '+' ∨ c = '-' then modify (List.drop 1)
  match ← get with
  | [] => behind (if strict then noValue else "invalid number")
  | c :: cs =>
    set cs
    if c.isDigit then digits else behind "invalid number"

private def afterFraction (strict : Bool) : Scan Unit := do
  if ← startsWith fun c => c = 'e' ∨ c = 'E' then
    modify (List.drop 1)
    exponent strict

/-- Passes what follows the whole part of a number. -/
private def afterWhole (strict : Bool) : Scan Unit := do
  if ← startsWith fun c => c = '.' then
    modify (List.drop 1)
    match ← get with
    | [] => ahead (if strict then noValue else "invalid number")
    | c :: _ =>
      if c.isDigit then
        digits
        afterFraction strict
      else ahead "invalid number"
  else afterFraction strict

/-- Passes a number, behind its sign. -/
private def unsigned (strict : Bool) : Scan Unit := do
  match ← get with
  | [] => behind (if strict then noValue else "invalid number")
  | c :: cs =>
    set cs
    if c = '0' then
      if ← startsWith Char.isDigit then ahead "invalid number" else afterWhole strict
    else if c.isDigit then
      digits
      afterWhole strict
    else behind "invalid number"

/-- Passes a number, and answers it. -/
private def number (strict : Bool) : Scan Json := do
  let cs ← get
  if ← startsWith fun c => c = '-' then modify (List.drop 1)
  unsigned strict
  let j := (read (String.ofList (cs.take (cs.length - (← get).length)))).1
  match j with
  | .number _ => return j
  | _ => if strict then behind "number out of range" else return j

private def numeralText : Numeral → String
  | .natural n => "integer " ++ ticked (Nat.toDigits 10 n)
  | .negative n => "integer " ++ ticked ('-' :: Nat.toDigits 10 n)
  | .real s d =>
    "floating point " ++ ticked (((d.toDoubleStepwise.getD ⟨0, 0⟩).messageText s).toList)

/-! ### Values of the wrong kind -/

private def invalidType {α : Type} (found wanted : String) : Scan α :=
  throw (.unplaced ("invalid type: " ++ found ++ ", expected " ++ wanted))

private def wordValue (letters : List Char) (found wanted : String) : Scan Unit := do
  modify (List.drop 1)
  word letters
  invalidType found wanted

/-- Reads a value of a kind that was not asked for. -/
private def wrong (wanted : String) : Scan Unit := placing do
  match ← get with
  | [] => ahead noValue
  | c :: _ =>
    if c = 'n' then wordValue ['u', 'l', 'l'] "null" wanted
    else if c = 't' then wordValue ['r', 'u', 'e'] ("boolean " ++ ticked "true".toList) wanted
    else if c = 'f' then wordValue ['a', 'l', 's', 'e'] ("boolean " ++ ticked "false".toList) wanted
    else if c = '-' ∨ c.isDigit then
      match ← number true with
      | .number n => invalidType (numeralText n) wanted
      | _ => behind "invalid number"
    else if c.toNat = 34 then
      modify (List.drop 1)
      let s ← string true
      invalidType ("string " ++ Text.quoted s) wanted
    else if c = '[' then invalidType "sequence" wanted
    else if c.toNat = 123 then invalidType "map" wanted
    else ahead "expected value"

/-! ### Skipping -/

private def comma : List Char := [',']

private def closed (c : Char) : String := "expected " ++ ticked comma ++ " or " ++ ticked [c]

private def closeBrace : Char := Char.ofNat 125

private def noKey : String := "key must be a string"

/-- Passes the colon behind a key. -/
private def colon : Scan Unit := do
  match ← rest with
  | [] => ahead openObject
  | c :: cs => if c = ':' then set cs else ahead ("expected " ++ ticked [':'])

mutual

/-- Passes a value that nobody asked for. -/
private def skipValue : Nat → Scan Unit
  | 0 => behind noValue
  | fuel + 1 => do
    match ← rest with
    | [] => ahead noValue
    | c :: cs =>
      if c = 'n' then do
        set cs
        word ['u', 'l', 'l']
      else if c = 't' then do
        set cs
        word ['r', 'u', 'e']
      else if c = 'f' then do
        set cs
        word ['a', 'l', 's', 'e']
      else if c = '-' ∨ c.isDigit then
        let _ ← number false
      else if c.toNat = 34 then do
        set cs
        let _ ← string false
      else if c = '[' then do
        set cs
        skipItems fuel true
      else if c.toNat = 123 then do
        set cs
        skipMembers fuel true
      else ahead "expected value"

/-- Passes the rest of an array. -/
private def skipItems : Nat → (first : Bool) → Scan Unit
  | 0, _ => behind openList
  | fuel + 1, first => do
    match ← rest with
    | [] => ahead openList
    | c :: cs =>
      if c = ']' then set cs
      else if first then do
        skipValue fuel
        skipItems fuel false
      else if c = ',' then do
        set cs
        skipValue fuel
        skipItems fuel false
      else ahead (closed ']')

/-- Passes the rest of an object. -/
private def skipMembers : Nat → (first : Bool) → Scan Unit
  | 0, _ => behind openObject
  | fuel + 1, first => do
    match ← rest with
    | [] => ahead openObject
    | c :: cs =>
      if c = closeBrace then set cs
      else if !first ∧ c ≠ ',' then ahead (closed closeBrace)
      else do
        if !first then set cs
        match ← rest with
        | [] => ahead openObject
        | q :: cs =>
          if q.toNat = 34 then do
            set cs
            let _ ← string false
            colon
            skipValue fuel
            skipMembers fuel false
          else ahead noKey

end

/-! ### Records -/

/-- Goes to the next member of an object; answers whether there is one. -/
private def hasMember (first : Bool) : Scan Bool := do
  match ← rest with
  | [] => ahead openObject
  | c :: cs =>
    if c = closeBrace then return false
    else if first then if c.toNat = 34 then return true else ahead noKey
    else if c = ',' then
      set cs
      match ← rest with
      | [] => ahead noValue
      | d :: _ =>
        if d.toNat = 34 then return true
        else if d = closeBrace then ahead "trailing comma"
        else ahead noKey
    else ahead (closed closeBrace)

/-- Goes to the next item of an array; answers whether there is one. -/
private def hasItem (first : Bool) : Scan Bool := do
  match ← rest with
  | [] => ahead openList
  | c :: cs =>
    if c = ']' then return false
    else if first then return true
    else if c = ',' then
      set cs
      match ← rest with
      | [] => ahead noValue
      | d :: _ => if d = ']' then ahead "trailing comma" else return true
    else ahead (closed ']')

private def endObject : Scan Unit := do
  match ← rest with
  | [] => ahead openObject
  | c :: cs =>
    if c = closeBrace then set cs
    else if c = ',' then ahead "trailing comma"
    else ahead "trailing characters"

private def endArray : Scan Unit := do
  match ← rest with
  | [] => ahead openList
  | c :: cs =>
    if c = ']' then set cs
    else if c = ',' then
      set cs
      match ← rest with
      | [] => ahead "trailing characters"
      | d :: _ => ahead (if d = ']' then "trailing comma" else "trailing characters")
    else ahead "trailing characters"

/-- Reads the inside of a container and its end.  Of two mistakes the one inside counts, but its
place may be behind the end. -/
private def enclosed (inside finish : Scan Unit) : Scan Unit := placing fun cs =>
  let (r, cs) := inside.run cs
  let (r', cs) := finish.run cs
  match r with
  | .error m => (.error m, cs)
  | .ok () => (r', cs)

private def named (what name : String) : String := what ++ ticked name.toList

/-- A field of a record, whether it is needed, and how it is read. -/
private abbrev Field := String × Bool × Scan Unit

private def members (fields : List Field) (limit : Nat) : Nat → (first : Bool) → List String →
    Scan Unit
  | 0, _, _ => behind openObject
  | fuel + 1, first, seen => do
    if ← hasMember first then
      modify (List.drop 1)
      let name ← string true
      match fields.lookup name with
      | some (_, scan) =>
        if seen.contains name then throw (.unplaced (named "duplicate field " name))
        else
          colon
          scan
          members fields limit fuel false (name :: seen)
      | none =>
        colon
        skipValue limit
        members fields limit fuel false seen
    else
      match fields.find? fun (name, needed, _) => needed && !seen.contains name with
      | some (name, _) => throw (.unplaced (named "missing field " name))
      | none => return ()

private def items (wanted : String) (count : Nat) : Nat → List Field → Scan Unit
  | _, [] => return ()
  | i, (_, needed, scan) :: fields => do
    if ← hasItem (i = 0) then
      scan
      items wanted count (i + 1) fields
    else if needed then
      throw (.unplaced ("invalid length " ++ toString i ++ ", expected " ++ wanted ++ " with "
        ++ toString count ++ " elements"))
    else items wanted count i fields

private def record (name : String) (fields : List Field) : Scan Unit := do
  let wanted := "struct " ++ name
  match ← rest with
  | [] => ahead noValue
  | c :: cs =>
    if c = '[' then
      set cs
      enclosed (items wanted fields.length 0 fields) endArray
    else if c.toNat = 123 then
      set cs
      let limit := 2 * cs.length + 2
      enclosed (members fields limit limit true []) endObject
    else wrong wanted

/-! ### Forms -/

private def natural (name : String) (bound : Nat) : Scan Unit := do
  match ← rest with
  | [] => ahead noValue
  | c :: _ =>
    if c = '-' ∨ c.isDigit then
      placing do
        match ← number true with
        | .number (.natural n) =>
          if n ≤ bound then return ()
          else
            throw (.unplaced ("invalid value: " ++ numeralText (.natural n) ++ ", expected " ++ name))
        | .number (.negative n) =>
          throw (.unplaced ("invalid value: " ++ numeralText (.negative n) ++ ", expected " ++ name))
        | .number n => invalidType (numeralText n) name
        | _ => behind "invalid number"
    else wrong name

private def text (name : String) : Scan Unit := do
  match ← rest with
  | [] => ahead noValue
  | c :: cs =>
    if c.toNat = 34 then
      set cs
      let _ ← string true
    else wrong name

private def optional (scan : Scan Unit) : Scan Unit := do
  match ← rest with
  | 'n' :: cs =>
    set cs
    word ['u', 'l', 'l']
  | _ => scan

mutual

/-- Reads what a form asks for. -/
def ofForm : Form → Scan Unit
  | .natural name bound => natural name bound
  | .text name => text name
  | .optional form => optional (ofForm form)
  | .record name fields => record name (ofFields fields)

private def ofFields : List (String × Bool × Form) → List Field
  | [] => []
  | (name, needed, form) :: fields => (name, needed, ofForm form) :: ofFields fields

end

/-- Passes the blanks at the end of a text. -/
private def finish : Scan Unit := do
  match ← rest with
  | [] => return ()
  | _ => ahead "trailing characters"

end Scan

/-- The line and the column behind some bytes of a text. -/
def placeOf (text : String) (count : Nat) : Nat × Nat :=
  go text.toList count 1 0
where
  go : List Char → Nat → Nat → Nat → Nat × Nat
    | [], _, line, column => (line, column)
    | c :: cs, count, line, column =>
      if count < c.utf8Size then (line, column + count)
      else if c = '\n' then go cs (count - 1) (line + 1) 0
      else go cs (count - c.utf8Size) line (column + c.utf8Size)

/-- What is said of a text that is not of a form; nothing if it is. -/
def Form.complaint? (form : Form) (text : String) : Option String :=
  let placed (message : String) (left : Nat) : String :=
    let (line, column) := placeOf text (text.utf8ByteSize - left)
    message ++ " at line " ++ toString line ++ " column " ++ toString column
  match ((do Scan.ofForm form; Scan.finish : Scan Unit).run text.toList).1 with
  | .ok () => none
  | .error (.placed message left) => some (placed message left)
  | .error (.unplaced message) => some message

end FilterScript.Json
