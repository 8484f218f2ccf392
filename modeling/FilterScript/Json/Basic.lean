import FilterScript.Number.Decimal

/-
JSON documents.

A `Json` is what a reader has seen of a document, in the order of its text.  Reading never fails as
a whole: where the text stops being JSON, the tree holds a `fault`.  A decoder walks the tree in the
order of the text, so of two faults in one document it reports the one that stands first, whether
that is a broken token or a value of the wrong kind.
-/
namespace FilterScript

namespace Json

/-- Why a document was refused. -/
inductive Fault where
  /-- The text is not JSON. -/
  | malformed
  /-- The text ends in the middle of a value. -/
  | truncated
  /-- A value is not of the kind that was asked for. -/
  | mismatch
deriving DecidableEq, Repr

/-- A number as the text gives it: a natural of at most sixty-four bits, the negation of a positive
number of at most sixty-three, or a decimal. -/
inductive Numeral where
  | natural (n : Nat)
  | negative (n : Nat)
  | real (negative : Bool) (d : Decimal)
deriving DecidableEq, Repr

end Json

/-- A JSON value, with its members in order and every repetition kept.  `stop` is set where an array
or an object breaks off between two of its parts. -/
inductive Json where
  | null
  | bool (b : Bool)
  | number (n : Json.Numeral)
  | string (s : String)
  | array (items : List Json) (stop : Option Json.Fault)
  | object (members : List (String × Json)) (stop : Option Json.Fault)
  /-- A well-formed token that stands for no value, such as a number out of range: it may be skipped
  but not read. -/
  | unreadable
  /-- The text is broken here. -/
  | fault (f : Json.Fault)
deriving Repr

namespace Json

instance : Inhabited Json := ⟨null⟩

/-- An array that is complete. -/
def list (items : List Json) : Json := .array items none

/-- An object that is complete. -/
def record (members : List (String × Json)) : Json := .object members none

/-- A natural number. -/
def nat (n : Nat) : Json := .number (.natural n)

/-- An integer. -/
def int (i : Int) : Json := .number (if i < 0 then .negative i.natAbs else .natural i.toNat)

/-- An object with one member, which is how a choice with content is written. -/
def choice (name : String) (content : Json) : Json := .record [(name, content)]

/-- `null` for nothing. -/
def optional {α : Type} (encode : α → Json) : Option α → Json
  | none => null
  | some a => encode a

/-- The leading exponents that the wire format writes without an exponent. -/
def isPlainLead (lead : Int) : Bool := -6 ≤ lead ∧ lead ≤ 12

/-- The numeral of a finite number: its shortest digits, with at least one behind the point where no
exponent is written. -/
def Numeral.ofSingle (x : Single) : Numeral :=
  let d := x.shortest .even
  let d := if isPlainLead d.lead ∧ 0 ≤ d.exponent then
      ⟨d.significand * 10 ^ (d.exponent + 1).toNat, -1⟩ else d
  .real x.isNegative d

/-- A number on the wire; one that is not finite is written as `null`. -/
def single (x : Single) : Json := if x.isFinite then .number (Numeral.ofSingle x) else .null

/-- The number that a numeral stands for in single precision: whole numbers are rounded once. -/
def Numeral.toSingle : Numeral → Option Single
  | .natural n => some (Single.ofNat n)
  | .negative n => some (Single.ofRatio true n 1)
  | .real s d => d.toSingleStepwise s

end Json

end FilterScript
