import FilterScript.Filter.Operation
import FilterScript.Filter.Transform
import FilterScript.Json.Printer
import FilterScript.Digest

/-
Filters: what a script builds and a renderer applies.

A filter is a plain value.  A script changes its own copy by `Edit`s, and what it publishes is the
value at that moment.
-/
namespace FilterScript

/-- A colour as its red, green and blue parts. -/
structure Color where
  red : Single
  green : Single
  blue : Single
deriving DecidableEq, Repr

/-- A filter. -/
structure Filter where
  alpha : Single
  mask : Mask
  operation : Operation
  transform : Transform
  wrap : Bool
  defaultColor : Color
  coordinates : Bool
  repetitions : UInt32
deriving DecidableEq, Repr

namespace Filter

/-- The filter with which every script starts. -/
def initial : Filter where
  alpha := 1
  mask := .all
  operation := .invert
  transform := .identity
  wrap := false
  defaultColor := ⟨0, 0, 0⟩
  coordinates := false
  repetitions := 1

/-- One change of a filter. -/
inductive Edit where
  | mask (mask : Mask)
  | operation (operation : Operation)
  | alpha (alpha : Single)
  | defaultColor (color : Color)
  | toggleWrap
  | wrap (wrap : Bool)
  | coordinates (coordinates : Bool)
  | repetitions (times : UInt32)
  | scale (factor : Point)
  | rotate (radians : Single)
  | translate (offset : Point)
  | transform (radians : Single) (factor offset : Point)
  | identityTransform
  | reset
deriving DecidableEq, Repr

/-- The filter after a change. -/
def edit (f : Filter) : Edit → Filter
  | .mask mask => { f with mask }
  | .operation operation => { f with operation }
  | .alpha alpha => { f with alpha }
  | .defaultColor defaultColor => { f with defaultColor }
  | .toggleWrap => { f with wrap := !f.wrap }
  | .wrap wrap => { f with wrap }
  | .coordinates coordinates => { f with coordinates }
  | .repetitions repetitions => { f with repetitions }
  | .scale factor => { f with transform := f.transform.rescale factor }
  | .rotate radians => { f with transform := f.transform.rotate radians }
  | .translate offset => { f with transform := f.transform.translate offset }
  | .transform radians factor offset =>
    { f with transform := ((f.transform.rotate radians).rescale factor).translate offset }
  | .identityTransform => { f with transform := .identity }
  | .reset => initial

/-! ### On the wire -/

def colorJson (c : Color) : Json := .list [.single c.red, .single c.green, .single c.blue]

/-- A filter on the wire; the members of its transform stand among its own. -/
def toJson (f : Filter) : Json :=
  .record ([("alpha", .single f.alpha), ("mask", f.mask.toJson),
    ("operation", f.operation.toJson)] ++ f.transform.toMembers ++ [("wrap", .bool f.wrap),
    ("defaultColor", colorJson f.defaultColor), ("coordinates", .bool f.coordinates),
    ("repeat", .nat f.repetitions.toNat)])

def asColor (j : Json) : Json.Decoded Color := do
  match ← Json.asTuple .text 3 (Json.checking Json.asSingle) j with
  | [r, g, b] => return ⟨← Json.asSingle r, ← Json.asSingle g, ← Json.asSingle b⟩
  | _ => .error .mismatch

def asCount : Json → Json.Decoded Nat := Json.asNat Json.largest32

/-- The fields of a filter beside those of its transform. -/
def fields : Json.Fields :=
  [("alpha", Json.checking Json.asSingle), ("mask", Json.checking Mask.ofJson),
    ("operation", Json.checking Operation.ofJson), ("wrap", Json.checking Json.asBool),
    ("defaultColor", Json.checking asColor), ("coordinates", Json.checking Json.asBool),
    ("repeat", Json.checking asCount)]

/-- Reads a filter from the wire.  Members that are not its own are buffered, and the transform is
read from them at the end. -/
def ofJson (j : Json) : Json.Decoded Filter := do
  let m ← Json.asObject fields (Json.hold Json.deepestBuffer) j
  return {
    alpha := ← m.get "alpha" Json.asSingle
    mask := ← m.get "mask" Mask.ofJson
    operation := ← m.get "operation" Operation.ofJson
    wrap := ← m.get "wrap" Json.asBool
    defaultColor := ← m.get "defaultColor" asColor
    coordinates := ← m.get "coordinates" Json.asBool
    repetitions := UInt32.ofNat (← m.get "repeat" asCount)
    transform := ← Transform.ofMembers m }

/-- The digest of a filter on the wire, by which runs are compared. -/
def fingerprint (f : Filter) : String := Digest.ofString f.toJson.render

end Filter

end FilterScript
