import FilterScript.Json.Reader

/-
Decoding JSON values.

Each decoder takes a value to a typed one or to the first fault in the order of the text.  A value
is decoded either straight from the text, or from a buffer that holds it because its kind was not
yet known when it was read; the two differ in which fault some wrong values give.
-/
namespace FilterScript.Json

/-- What decoding answers. -/
abbrev Decoded (α : Type) := Except Fault α

/-- Where a value is decoded from. -/
inductive Source where
  | text
  | buffer
deriving DecidableEq, Repr

/-- The fault of a value that is not of the kind asked for: a broken token comes first. -/
def refuse {α : Type} : Json → Decoded α
  | .fault f => .error f
  | .unreadable => .error .malformed
  | _ => .error .mismatch

/-- The fault at the end of a container that broke off. -/
def atEnd : Option Fault → Decoded Unit
  | none => .ok ()
  | some f => .error f

mutual

/-- Passes over a value; only broken text stops it. -/
def skip : Json → Decoded Unit
  | .fault f => .error f
  | .array items stop => do
    skipItems items
    atEnd stop
  | .object members stop => do
    skipMembers members
    atEnd stop
  | _ => .ok ()

def skipItems : List Json → Decoded Unit
  | [] => .ok ()
  | j :: rest => do
    skip j
    skipItems rest

def skipMembers : List (String × Json) → Decoded Unit
  | [] => .ok ()
  | (_, j) :: rest => do
    skip j
    skipMembers rest

end

/-- How many containers may stand inside one another in a buffered value. -/
def deepestBuffer : Nat := 127

mutual

/-- Takes a value into a buffer, at most `levels` containers deep. -/
def hold : Nat → Json → Decoded Unit
  | _, .fault f => .error f
  | _, .unreadable => .error .malformed
  | levels, .array items stop =>
    match levels with
    | 0 => .error .malformed
    | levels + 1 => do
      holdItems levels items
      atEnd stop
  | levels, .object members stop =>
    match levels with
    | 0 => .error .malformed
    | levels + 1 => do
      holdMembers levels members
      atEnd stop
  | _, _ => .ok ()

def holdItems : Nat → List Json → Decoded Unit
  | _, [] => .ok ()
  | levels, j :: rest => do
    hold levels j
    holdItems levels rest

def holdMembers : Nat → List (String × Json) → Decoded Unit
  | _, [] => .ok ()
  | levels, (_, j) :: rest => do
    hold levels j
    holdMembers levels rest

end

/-- A truth value. -/
def asBool : Json → Decoded Bool
  | .bool b => .ok b
  | j => refuse j

/-- A string. -/
def asString : Json → Decoded String
  | .string s => .ok s
  | j => refuse j

/-- A number in single precision. -/
def asSingle : Json → Decoded Single
  | .number n =>
    match n.toSingle with
    | some x => .ok x
    | none => .error .malformed
  | j => refuse j

/-- A natural number not above a bound, written without point and exponent. -/
def asNat (bound : Nat) : Json → Decoded Nat
  | .number (.natural n) => if n ≤ bound then .ok n else .error .mismatch
  | j => refuse j

/-- The largest natural number of thirty-two bits. -/
def largest32 : Nat := 2 ^ 32 - 1

/-- The largest natural number of sixty-four bits. -/
def largest64 : Nat := 2 ^ 64 - 1

/-- A natural number of sixty-four bits. -/
def asWord64 (j : Json) : Decoded UInt64 := return UInt64.ofNat (← asNat largest64 j)

/-- A natural number of thirty-two bits. -/
def asWord32 (j : Json) : Decoded UInt32 := return UInt32.ofNat (← asNat largest32 j)

/-- Nothing. -/
def asUnit : Json → Decoded Unit
  | .null => .ok ()
  | j => refuse j

/-- A value or `null`. -/
def asOption {α : Type} (decode : Json → Decoded α) : Json → Decoded (Option α)
  | .null => .ok none
  | j => do return some (← decode j)

/-- An array of values of one kind. -/
def asList {α : Type} (decode : Json → Decoded α) : Json → Decoded (List α)
  | .array items stop => do
    let as ← items.mapM decode
    atEnd stop
    return as
  | j => refuse j

/-- What is said of an array that is longer than its kind. -/
def tooLong : Source → Fault
  | .text => .malformed
  | .buffer => .mismatch

/-- An array of as many values as `checks`, each of which passes its own check. -/
def asTuple (source : Source) (n : Nat) (check : Json → Decoded Unit) :
    Json → Decoded (List Json)
  | .array items stop => do
    (items.take n).forM check
    if n < items.length then .error (tooLong source)
    else do
      atEnd stop
      if items.length < n then .error .mismatch else .ok items
  | j => refuse j

/-! ### Records -/

/-- The fields of a record in order, each with the check that its value passes. -/
abbrev Fields := List (String × (Json → Decoded Unit))

/-- Members under their names. -/
abbrev Members := List (String × Json)

/-- The check that a decoder makes. -/
def checking {α : Type} (decode : Json → Decoded α) (j : Json) : Decoded Unit := do
  let _ ← decode j

/-- Walks the members of a record in order.  A repeated field is a mismatch before its value is
looked at; members that are no fields go to `other`. -/
def scan (fields : Fields) (other : Json → Decoded Unit) : List String → Members → Decoded Unit
  | _, [] => .ok ()
  | seen, (name, v) :: rest =>
    match fields.lookup name with
    | none => do
      other v
      scan fields other seen rest
    | some check =>
      if seen.contains name then .error .mismatch
      else do
        check v
        scan fields other (name :: seen) rest

def checkItems : Fields → List Json → Decoded Unit
  | (_, check) :: fields, j :: rest => do
    check j
    checkItems fields rest
  | _, _ => .ok ()

/-- The members of a record, which is an object, or an array with the fields in order. -/
def asRecord (source : Source) (fields : Fields) : Json → Decoded Members
  | .object members stop => do
    scan fields skip [] members
    atEnd stop
    return members
  | .array items stop => do
    checkItems fields items
    if fields.length < items.length then .error (tooLong source)
    else do
      atEnd stop
      return (fields.map (·.1)).zip items
  | j => refuse j

/-- The members of a record that only an object can give. -/
def asObject (fields : Fields) (other : Json → Decoded Unit) : Json → Decoded Members
  | .object members stop => do
    scan fields other [] members
    atEnd stop
    return members
  | j => refuse j

/-- The value of a field that must be there. -/
def Members.get {α : Type} (m : Members) (name : String) (decode : Json → Decoded α) : Decoded α :=
  match m.lookup name with
  | some v => decode v
  | none => .error .mismatch

/-- The value of a field that may be missing. -/
def Members.getD {α : Type} (m : Members) (name : String) (decode : Json → Decoded α)
    (default : α) : Decoded α :=
  match m.lookup name with
  | some v => decode v
  | none => .ok default

/-! ### Choices -/

/-- A choice under its name: the bare name, or an object whose only member is the name with the
content. -/
def asChoice {α : Type} (source : Source) (bare : String → Decoded α)
    (tagged : String → Json → Decoded α) : Json → Decoded α
  | .string s => bare s
  | .object members stop =>
    match source, members with
    | .text, [] => .error (stop.getD .malformed)
    | .text, (name, v) :: rest => do
      let a ← tagged name v
      if rest.isEmpty then do
        atEnd stop
        return a
      else .error .malformed
    | .buffer, [(name, v)] => tagged name v
    | .buffer, _ => .error .mismatch
  | .fault f => .error f
  | .unreadable => .error .malformed
  | _ =>
    match source with
    | .text => .error .malformed
    | .buffer => .error .mismatch

/-- A choice among names that carry nothing. -/
def asName {α : Type} (source : Source) (named : String → Option α) : Json → Decoded α :=
  let find (s : String) : Decoded α :=
    match named s with
    | some a => .ok a
    | none => .error .mismatch
  asChoice source find fun s v => do
    let a ← find s
    asUnit v
    return a

/-- The next member with one of two names, everything before it skipped. -/
def nextOf (tag content : String) : Members → Decoded (Option (String × Json × Members))
  | [] => .ok none
  | (name, v) :: rest =>
    if name = tag ∨ name = content then .ok (some (name, v, rest))
    else do
      skip v
      nextOf tag content rest

/-- A choice that stands in two members, its name under `tag` and what it carries under `content`,
in either order; or in an array of both.  Content in front of the name is buffered. -/
def asTagged {κ α : Type} (tag content : String) (kind : Json → Decoded κ)
    (body : κ → Source → Option Json → Decoded α) : Json → Decoded α
  | .object members stop => do
    let finish (a : α) (rest : Members) : Decoded α := do
      match ← nextOf tag content rest with
      | some _ => .error .mismatch
      | none => do
        atEnd stop
        return a
    match ← nextOf tag content members with
    | none => do
      atEnd stop
      .error .mismatch
    | some (name, v, rest) =>
      if name = tag then do
        let k ← kind v
        match ← nextOf tag content rest with
        | none => do
          atEnd stop
          body k .text none
        | some (name, v, rest) =>
          if name = tag then .error .mismatch
          else do
            let a ← body k .text (some v)
            finish a rest
      else do
        hold deepestBuffer v
        match ← nextOf tag content rest with
        | none => do
          atEnd stop
          .error .mismatch
        | some (name, w, rest) =>
          if name = tag then do
            let k ← kind w
            let a ← body k .buffer (some v)
            finish a rest
          else .error .mismatch
  | .array items stop =>
    match items with
    | [] => do
      atEnd stop
      .error .mismatch
    | [t] => do
      let _ ← kind t
      atEnd stop
      .error .mismatch
    | t :: v :: rest => do
      let k ← kind t
      let a ← body k .text (some v)
      if rest.isEmpty then do
        atEnd stop
        return a
      else .error .malformed
  | j => refuse j

/-- Content that must be there. -/
def needed {α : Type} (decode : Json → Decoded α) : Option Json → Decoded α
  | some v => decode v
  | none => .error .mismatch

/-- A choice that carries nothing: no content, or `null`. -/
def nothing {α : Type} (a : α) : Option Json → Decoded α
  | none => .ok a
  | some v => do
    asUnit v
    return a

/-! ### Texts -/

/-- Decodes a text that holds one value and blanks. -/
def decode {α : Type} (decoder : Json → Decoded α) (text : String) : Decoded α :=
  let (j, rest) := read text
  match decoder j with
  | .error f => .error f
  | .ok a =>
    match rest with
    | none => .error .malformed
    | some rest => if (skipBlanks rest).isEmpty then .ok a else .error .malformed

end FilterScript.Json
