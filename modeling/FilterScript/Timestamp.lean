import FilterScript.Json.Decoder

/-
Moments of the calendar, as they are written into the record of a run.

A timestamp is read with any offset and written in universal time.  A leap second is kept as the
sixtieth second of its minute.
-/
namespace FilterScript

/-- A moment in universal time: seconds since the start of 1970, and nanoseconds, of which a leap
second has more than a thousand million. -/
structure Timestamp where
  seconds : Int
  nanos : Nat
deriving DecidableEq, Repr

namespace Timestamp

/-! ### The calendar -/

/-- The number of a day, counted from the start of 1970. -/
def dayNumber (year : Int) (month day : Nat) : Int :=
  let y := if month ≤ 2 then year - 1 else year
  let era := y.fdiv 400
  let yearOfEra := y - era * 400
  let shifted : Int := (month + 9) % 12
  let dayOfYear := (153 * shifted + 2).fdiv 5 + day - 1
  era * 146097 + yearOfEra * 365 + yearOfEra.fdiv 4 - yearOfEra.fdiv 100 + dayOfYear - 719468

/-- The year, month and day of a day's number. -/
def dateOf (number : Int) : Int × Nat × Nat :=
  let z := number + 719468
  let era := z.fdiv 146097
  let dayOfEra := z - era * 146097
  let yearOfEra := (dayOfEra - dayOfEra.fdiv 1460 + dayOfEra.fdiv 36524
    - dayOfEra.fdiv 146096).fdiv 365
  let dayOfYear := dayOfEra - (365 * yearOfEra + yearOfEra.fdiv 4 - yearOfEra.fdiv 100)
  let shifted := (5 * dayOfYear + 2).fdiv 153
  let day := dayOfYear - (153 * shifted + 2).fdiv 5 + 1
  let month := if shifted < 10 then shifted + 3 else shifted - 9
  let year := yearOfEra + era * 400
  (if month ≤ 2 then year + 1 else year, month.toNat, day.toNat)

private def isLeapYear (y : Int) : Bool := y % 4 = 0 ∧ (y % 100 ≠ 0 ∨ y % 400 = 0)

private def daysIn (year : Int) (month : Nat) : Nat :=
  if month = 2 then (if isLeapYear year then 29 else 28)
  else if month = 4 ∨ month = 6 ∨ month = 9 ∨ month = 11 then 30
  else 31

/-- The largest year that is kept, of either sign. -/
def largestYear : Nat := 262142

/-! ### Writing -/

private def padded (width n : Nat) : List Char :=
  let ds := Nat.toDigits 10 n
  List.replicate (width - ds.length) '0' ++ ds

private def yearText (y : Int) : List Char :=
  if 0 ≤ y ∧ y ≤ 9999 then padded 4 y.toNat
  else (if y < 0 then '-' else '+') :: padded 4 y.natAbs

/-- The part of a second: nothing, or three, six or nine digits. -/
private def fraction (nanos : Nat) : List Char :=
  if nanos = 0 then []
  else if nanos % 10 ^ 6 = 0 then '.' :: padded 3 (nanos / 10 ^ 6)
  else if nanos % 1000 = 0 then '.' :: padded 6 (nanos / 1000)
  else '.' :: padded 9 nanos

/-- The text of a timestamp. -/
def text (t : Timestamp) : String :=
  let day := t.seconds.fdiv 86400
  let second := (t.seconds - day * 86400).toNat
  let (year, month, dayOfMonth) := dateOf day
  let leap := 10 ^ 9 ≤ t.nanos
  let shown := if leap then second % 60 + 1 else second % 60
  let nanos := if leap then t.nanos - 10 ^ 9 else t.nanos
  String.ofList (yearText year ++ '-' :: padded 2 month ++ '-' :: padded 2 dayOfMonth ++
    'T' :: padded 2 (second / 3600) ++ ':' :: padded 2 (second / 60 % 60) ++
    ':' :: padded 2 shown ++ fraction nanos ++ ['Z'])

/-! ### Reading -/

private abbrev Parse (α : Type) := StateT (List Char) Option α

private def digit? (c : Char) : Option Nat :=
  if '0' ≤ c ∧ c ≤ '9' then some (c.toNat - 48) else none

private def isSpace (c : Char) : Bool := c.isWhitespace || c.toNat = 11 || c.toNat = 12

private def spaces : Parse Unit := modify (·.dropWhile isSpace)

private def takeDigits : Nat → List Char → List Nat × List Char
  | 0, cs => ([], cs)
  | _, [] => ([], [])
  | k + 1, c :: cs =>
    match digit? c with
    | none => ([], c :: cs)
    | some d =>
      let (ds, rest) := takeDigits k cs
      (d :: ds, rest)

private def ofDigits (ds : List Nat) : Nat := ds.foldl (fun n d => n * 10 + d) 0

/-- A number of one to `width` digits. -/
private def number (width : Nat) : Parse Nat := do
  spaces
  match takeDigits width (← get) with
  | ([], _) => failure
  | (ds, rest) =>
    set rest
    return ofDigits ds

private def mark (c : Char) : Parse Unit := do
  spaces
  match ← get with
  | d :: rest => if c = d then set rest else failure
  | [] => failure

private def year : Parse Int := do
  spaces
  match ← get with
  | c :: rest =>
    if c = '+' ∨ c = '-' then
      set rest
      let n ← number rest.length
      return if c = '-' then -(n : Int) else n
    else return (← number 4)
  | [] => failure

/-- The nanoseconds behind a point; digits beyond the ninth are dropped. -/
private def nanoseconds : Parse Nat := do
  match ← get with
  | '.' :: rest =>
    match takeDigits 9 rest with
    | ([], _) => failure
    | (ds, rest) =>
      set (rest.dropWhile fun c => (digit? c).isSome)
      return ofDigits ds * 10 ^ (9 - ds.length)
  | _ => return 0

private def twoDigits : Parse Nat := do
  match takeDigits 2 (← get) with
  | ([a, b], rest) =>
    set rest
    return a * 10 + b
  | _ => failure

/-- The offset from universal time, in seconds. -/
private def offset : Parse Int := do
  spaces
  match ← get with
  | c :: rest =>
    if c = 'Z' ∨ c = 'z' then
      set rest
      return 0
    else if c = '+' ∨ c = '-' then
      set rest
      let hours ← twoDigits
      modify (·.dropWhile fun c => c = ':' || isSpace c)
      let minutes ← twoDigits
      if 60 ≤ minutes then failure
      let seconds : Nat := hours * 3600 + minutes * 60
      if 86400 ≤ seconds then failure
      return if c = '-' then -(seconds : Int) else seconds
    else
      match rest with
      | d :: e :: rest =>
        if c.toUpper = 'U' ∧ d.toUpper = 'T' ∧ e.toUpper = 'C' then
          set rest
          return 0
        else failure
      | _ => failure
  | [] => failure

private def separator : Parse Unit := do
  match ← get with
  | c :: rest =>
    if c = 'T' ∨ c = 't' then set rest
    else if c = ' ' then spaces
    else failure
  | [] => failure

private def timestamp : Parse Timestamp := do
  let y ← year
  mark '-'
  let month ← number 2
  mark '-'
  let day ← number 2
  separator
  let hour ← number 2
  mark ':'
  let minute ← number 2
  mark ':'
  let second ← number 2
  let nanos ← nanoseconds
  let shift ← offset
  match ← get with
  | _ :: _ => failure
  | [] =>
    if y.natAbs > largestYear ∨ month = 0 ∨ 12 < month ∨ day = 0 ∨ daysIn y month < day
        ∨ 24 ≤ hour ∨ 60 ≤ minute ∨ 60 < second then failure
    let leap := second = 60
    let clock : Int := hour * 3600 + minute * 60 + (if leap then 59 else second)
    return ⟨dayNumber y month day * 86400 + clock - shift, if leap then nanos + 10 ^ 9 else nanos⟩

/-- Reads a timestamp. -/
def parse? (text : String) : Option Timestamp := (timestamp.run text.toList).map (·.1)

/-- A timestamp on the wire. -/
def toJson (t : Timestamp) : Json := .string t.text

/-- Reads a timestamp from the wire. -/
def ofJson (j : Json) : Json.Decoded Timestamp := do
  match parse? (← Json.asString j) with
  | some t => .ok t
  | none => .error .mismatch

end Timestamp

end FilterScript
