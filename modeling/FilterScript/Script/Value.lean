import FilterScript.Number.Text
import FilterScript.Text.Quoted

/-
The values of scripts, and the texts in which they appear.

A value appears in three forms: as a script prints it, as it stands inside a printed container, and
as the host quotes it in a message.
-/
namespace FilterScript.Script

/-- A value. -/
inductive Value where
  | unit
  | bool (b : Bool)
  | int (i : Int)
  | float (x : Single)
  | char (c : Char)
  | string (s : String)
  | array (items : List Value)
  /-- The members have distinct names in ascending order. -/
  | map (members : List (String × Value))
  /-- A function by its name, with the arguments that it is already given. -/
  | function (name : String) (bound : List Value)
  | range (first last : Int) (closed : Bool)
  /-- The receiver of log messages. -/
  | log
  /-- What is thrown when a primitive refuses an argument. -/
  | refusal (text : String)
  /-- A variable that functions share. -/
  | cell (index : Nat)
deriving Repr

namespace Value

instance : Inhabited Value := ⟨unit⟩

/-- The smallest integer. -/
def minInt : Int := -(2 ^ 63)

/-- The largest integer. -/
def maxInt : Int := 2 ^ 63 - 1

/-! ### Names of types -/

/-- The full name of the type of a value. -/
def typeName : Value → String
  | unit => "()"
  | bool _ => "bool"
  | int _ => "i64"
  | float _ => "f32"
  | char _ => "char"
  | string _ => "string"
  | array _ => "array"
  | map _ => "map"
  | function .. => "Fn"
  | range _ _ false => "core::ops::range::Range<i64>"
  | range _ _ true => "core::ops::range::RangeInclusive<i64>"
  | log => "degenerate::host_rhai::LogNamespace"
  | refusal _ => "degenerate::error::ArgumentError"
  | cell _ => "()"

/-- The name of the type of a value, as scripts see it. -/
def kind : Value → String
  | range _ _ false => "range"
  | range _ _ true => "range="
  | log => "Log"
  | v => v.typeName

/-- The name of the type of an argument in messages about calls. -/
def signature : Value → String
  | string _ => "&str | ImmutableString | String"
  | range _ _ false => "Range<i64>"
  | range _ _ true => "RangeInclusive<i64>"
  | v => v.kind

/-! ### Texts -/

private def apostrophe : Char := Char.ofNat 39

/-- A character between quotes. -/
def quotedChar (c : Char) : String :=
  let body :=
    if c = apostrophe then [Char.ofNat 92, c]
    else if c = Char.ofNat 34 then [c]
    else Text.quotedChar c
  String.ofList (apostrophe :: body ++ [apostrophe])

private def rangeText (first last : Int) (closed : Bool) : String :=
  toString first ++ (if closed then "..=" else "..") ++ toString last

private def functionText (name : String) : String := "Fn(" ++ name ++ ")"

private def bracketed (items : List String) : String := "[" ++ String.intercalate ", " items ++ "]"

private def braced (members : List String) : String :=
  "#\x7b" ++ String.intercalate ", " members ++ "\x7d"

mutual

/-- The text of a value inside a printed container. -/
def itemText : Value → String
  | unit => "()"
  | bool b => if b then "true" else "false"
  | int i => toString i
  | float x => x.scriptText
  | char c => c.toString
  | string s => Text.quoted s
  | array items => bracketed (itemTexts items)
  | map members => braced (memberTexts members)
  | function name _ => functionText name
  | range first last closed => rangeText first last closed
  | v => v.kind

private def itemTexts : List Value → List String
  | [] => []
  | v :: vs => itemText v :: itemTexts vs

private def memberTexts : List (String × Value) → List String
  | [] => []
  | (name, v) :: ms => (Text.quoted name ++ ": " ++ itemText v) :: memberTexts ms

end

/-- The text that a script prints. -/
def text : Value → String
  | unit => ""
  | string s => s
  | v => v.itemText

/-- The text that a script prints for inspection. -/
def inspected : Value → String
  | char c => quotedChar c
  | v => v.itemText

mutual

private def quotedText : Value → String
  | char c => quotedChar c
  | array items => bracketed (quotedTexts items)
  | map members => braced (quotedMembers members)
  | log => typeName log
  | v => v.itemText

private def quotedTexts : List Value → List String
  | [] => []
  | v :: vs => quotedText v :: quotedTexts vs

private def quotedMembers : List (String × Value) → List String
  | [] => []
  | (name, v) :: ms => (Text.quoted name ++ ": " ++ quotedText v) :: quotedMembers ms

end

/-- The text of a value in messages of the host. -/
def shown : Value → String
  | unit => ""
  | char c => c.toString
  | string s => s
  | v => v.quotedText

mutual

/-- The text of a value in the log: containers are flattened, and strings stand bare. -/
def logText : Value → String
  | unit => "()"
  | array items => String.intercalate " " (logTexts items)
  | map members => "\x7b" ++ String.intercalate ", " (logMembers members) ++ "\x7d"
  | v => v.shown

private def logTexts : List Value → List String
  | [] => []
  | v :: vs => logText v :: logTexts vs

private def logMembers : List (String × Value) → List String
  | [] => []
  | (name, v) :: ms => (name ++ ": " ++ logText v) :: logMembers ms

end

/-! ### Containers -/

/-- The members of a map with one of them set. -/
def setMember (name : String) (v : Value) : List (String × Value) → List (String × Value)
  | [] => [(name, v)]
  | (n, w) :: rest =>
    if name < n then (name, v) :: (n, w) :: rest
    else if n = name then (name, v) :: rest
    else (n, w) :: setMember name v rest

/-- A map of members in any order; of two with one name the last counts. -/
def ofMembers (members : List (String × Value)) : Value :=
  map (members.foldl (fun ms m => setMember m.1 m.2 ms) [])

/-! ### Sizes -/

/-- How much a value holds, all its parts taken together. -/
structure Size where
  items : Nat
  members : Nat
  bytes : Nat
deriving DecidableEq, Repr

namespace Size

/-- No size. -/
def zero : Size := ⟨0, 0, 0⟩

/-- Two sizes together. -/
def add (s t : Size) : Size := ⟨s.items + t.items, s.members + t.members, s.bytes + t.bytes⟩

end Size

mutual

/-- The size of a value. -/
def size : Value → Size
  | string s => ⟨0, 0, s.utf8ByteSize⟩
  | array items => sizeItems items
  | map members => sizeMembers members
  | _ => .zero

private def sizeItems : List Value → Size
  | [] => .zero
  | v :: vs => (⟨1, 0, 0⟩ : Size).add ((size v).add (sizeItems vs))

private def sizeMembers : List (String × Value) → Size
  | [] => .zero
  | (_, v) :: ms => (⟨0, 1, 0⟩ : Size).add ((size v).add (sizeMembers ms))

end

/-- Whether a value is an array. -/
def isArray : Value → Bool
  | array _ => true
  | _ => false

/-- Whether a value is of a type that the language itself does not compare. -/
def isForeign : Value → Bool
  | range .. => true
  | log => true
  | refusal _ => true
  | _ => false

end Value

end FilterScript.Script
