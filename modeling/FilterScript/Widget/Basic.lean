import FilterScript.Json.Decoder

/-
Widgets: the controls that a script asks for and the host shows.
-/
namespace FilterScript.Widget

/-- The form of a widget, as it is announced to the host. -/
inductive Shape where
  | checkbox
  | radio (options : List String)
  | slider (low high step initial : Single)
deriving DecidableEq, Repr

/-- The value that the host last reported for a widget. -/
inductive Value where
  | checkbox (checked : Bool)
  | slider (x : Single)
  | radio (option : String)
deriving DecidableEq, Repr

namespace Shape

/-- Whether two shapes are the same to the host: numbers are compared as numbers, so the two zeros
are one. -/
def same : Shape → Shape → Bool
  | checkbox, checkbox => true
  | radio o, radio o' => o = o'
  | slider a b c d, slider a' b' c' d' => a == a' && b == b' && c == c' && d == d'
  | _, _ => false

/-- A shape on the wire. -/
def toJson : Shape → Json
  | checkbox => .string "checkbox"
  | radio options =>
    .choice "radio" (.record [("options", .list (options.map Json.string))])
  | slider low high step initial =>
    .choice "slider" (.record [("min", .single low), ("max", .single high), ("step", .single step),
      ("initial", .single initial)])

def asRadio (j : Json) : Json.Decoded Shape := do
  let options := Json.asList Json.asString
  let m ← Json.asRecord .text [("options", Json.checking options)] j
  return radio (← m.get "options" options)

def asSlider (j : Json) : Json.Decoded Shape := do
  let number := Json.checking Json.asSingle
  let m ← Json.asRecord .text
    [("min", number), ("max", number), ("step", number), ("initial", number)] j
  let field (name : String) := m.get name Json.asSingle
  return slider (← field "min") (← field "max") (← field "step") (← field "initial")

def ofName : String → Json.Decoded Shape
  | "checkbox" => .ok checkbox
  | _ => .error .mismatch

def ofMember (name : String) (j : Json) : Json.Decoded Shape :=
  match name with
  | "checkbox" => do
    Json.asUnit j
    return checkbox
  | "radio" => asRadio j
  | "slider" => asSlider j
  | _ => .error .mismatch

/-- Reads a shape from the wire. -/
def ofJson : Json → Json.Decoded Shape := Json.asChoice .text ofName ofMember

end Shape

namespace Value

/-- A value on the wire, with no mark of its kind. -/
def toJson : Value → Json
  | checkbox b => .bool b
  | slider x => .single x
  | radio s => .string s

/-- The kind of a value shows in its form: a truth value, a number or a string. -/
def ofJson (j : Json) : Json.Decoded Value := do
  Json.hold Json.deepestBuffer j
  match j with
  | .bool b => .ok (checkbox b)
  | .number _ => return slider (← Json.asSingle j)
  | .string s => .ok (radio s)
  | _ => .error .mismatch

end Value

end FilterScript.Widget
