import FilterScript.Json.Decoder
import FilterScript.Text.Quoted

/-
Operations: what a filter does to the colour of a selected pixel.
-/
namespace FilterScript

/-- One of the three axes of colour. -/
inductive ColorAxis where
  | red
  | green
  | blue
deriving DecidableEq, Repr

namespace ColorAxis

/-- The full name of an axis. -/
def name : ColorAxis → String
  | red => "red"
  | green => "green"
  | blue => "blue"

/-- The axis of a full name. -/
def ofName? : String → Option ColorAxis
  | "red" => some red
  | "green" => some green
  | "blue" => some blue
  | _ => none

/-- The axis of a full name or of its first letter. -/
def parse? : String → Option ColorAxis
  | "red" => some red
  | "r" => some red
  | "green" => some green
  | "g" => some green
  | "blue" => some blue
  | "b" => some blue
  | _ => none

/-- What is said of a text that names no axis. -/
def unknown (text : String) : String :=
  "color axis must be one of red, green, blue (got " ++ Text.quoted text ++ ")"

end ColorAxis

/-- What happens to the colour of a selected pixel. -/
inductive Operation where
  | debug
  | identity
  | invert
  | rotateColor (axis : ColorAxis) (turns : Single)
deriving DecidableEq, Repr

namespace Operation

/-- The name of an operation on the wire. -/
def name : Operation → String
  | debug => "Debug"
  | identity => "Identity"
  | invert => "Invert"
  | rotateColor .. => "RotateColor"

/-- An operation on the wire. -/
def toJson (operation : Operation) : Json :=
  match operation with
  | rotateColor axis turns =>
    .record [("kind", .string operation.name),
      ("params", .record [("axis", .string axis.name), ("turns", .single turns)])]
  | _ => .record [("kind", .string operation.name)]

/-- The kind of an operation: complete, or a rotation that still needs its axis and amount. -/
inductive Kind where
  | plain (operation : Operation)
  | rotation

/-- The kind that a name stands for. -/
def kind? : String → Option Kind
  | "Debug" => some (.plain debug)
  | "Identity" => some (.plain identity)
  | "Invert" => some (.plain invert)
  | "RotateColor" => some .rotation
  | _ => none

def asRotation (source : Json.Source) (j : Json) : Json.Decoded Operation := do
  let axis := Json.asName source ColorAxis.ofName?
  let fields := [("axis", Json.checking axis), ("turns", Json.checking Json.asSingle)]
  let m ← Json.asObject fields Json.skip j
  return rotateColor (← m.get "axis" axis) (← m.get "turns" Json.asSingle)

/-- Reads an operation from the wire. -/
def ofJson : Json → Json.Decoded Operation :=
  Json.asTagged "kind" "params" (Json.asName .text kind?) fun kind source content =>
    match kind with
    | .plain operation => Json.nothing operation content
    | .rotation => Json.needed (asRotation source) content

end Operation

end FilterScript
