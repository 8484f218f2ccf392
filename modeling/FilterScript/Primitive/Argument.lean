import FilterScript.Filter.Basic
import FilterScript.Script.Value

/-
The arguments of primitives.

Scripts write numbers as integers or as floats, and a primitive takes either.  Each conversion
answers what it makes of a value, or the text with which the primitive refuses it.
-/
namespace FilterScript.Argument

open Script

/-- What a conversion answers; a refusal is its text. -/
abbrev Checked (α : Type) := Except String α

/-- A number. -/
def single (v : Value) (what : String) : Checked Single :=
  match v with
  | .float x => .ok x
  | .int i => .ok (.ofInt i)
  | v => .error (what ++ " expects a number, got " ++ v.typeName)

/-- A finite number. -/
def finite (v : Value) (what : String) : Checked Single := do
  let x ← single v what
  if x.isFinite then .ok x
  else .error (what ++ " expects a finite number, got " ++ x.plainText)

/-- The integer that a value stands for, if it is whole; floats beyond the integers are held at
their ends. -/
def whole (v : Value) (what : String) : Checked Int :=
  match v with
  | .int i => .ok i
  | .float x =>
    if x.isFinite ∧ x.isWhole then .ok (x.toInt Value.minInt Value.maxInt)
    else .error (what ++ " expects a whole number, got " ++ x.plainText)
  | v => .error (what ++ " expects a whole number, got " ++ v.typeName)

/-- A natural number of thirty-two bits. -/
def word (v : Value) (what : String) : Checked UInt32 := do
  let i ← whole v what
  if 0 ≤ i ∧ i < 2 ^ 32 then .ok (UInt32.ofNat i.toNat)
  else .error (what ++ " expects a non-negative whole number, got " ++ toString i)

/-- The seed that an integer stands for: its sixty-four bits. -/
def seedOf (i : Int) : UInt64 := UInt64.ofNat (i % 2 ^ 64).toNat

/-- A seed. -/
def seed (v : Value) : Checked UInt64 :=
  let refusal : Checked UInt64 := .error ("seed expects an integer, got " ++ v.typeName)
  match v with
  | .int i => .ok (seedOf i)
  | .float x =>
    if x.isFinite ∧ x.isWhole then .ok (seedOf (x.toInt Value.minInt Value.maxInt)) else refusal
  | _ => refusal

/-- A pair of finite numbers. -/
def point (v : Value) (what : String) : Checked Point :=
  match v with
  | .array [x, y] => do return ⟨← finite x what, ← finite y what⟩
  | .array items =>
    .error (what ++ " expects a pair [x, y], got " ++ toString items.length ++ " elements")
  | _ => .error (what ++ " expects a pair [x, y]")

/-- A factor for each coordinate; one number serves for both. -/
def scale (v : Value) : Checked Point :=
  if v.isArray then point v "scale" else do return .both (← finite v "scale")

/-- A colour. -/
def color (v : Value) (what : String) : Checked Color :=
  match v with
  | .array [r, g, b] => do return ⟨← finite r what, ← finite g what, ← finite b what⟩
  | .array items =>
    .error (what ++ " expects [r, g, b], got " ++ toString items.length ++ " elements")
  | _ => .error (what ++ " expects [r, g, b]")

def option (what : String) : Value → Checked String
  | .string s => .ok s
  | v => .error (what ++ " options must be strings, got " ++ v.typeName)

/-- A list of options, of which there is at least one. -/
def options (v : Value) (what : String) : Checked (List String) :=
  match v with
  | .array [] => .error (what ++ " needs at least one option")
  | .array items => items.mapM (option what)
  | _ => .error (what ++ " expects an array of options")

end FilterScript.Argument
