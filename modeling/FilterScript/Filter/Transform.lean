import FilterScript.Filter.Mask
import FilterScript.Number.Elementary

/-
Transforms: where in the image a filter takes its colours from.
-/
namespace FilterScript

namespace Point

/-- Both coordinates the same. -/
def both (c : Single) : Point := ⟨c, c⟩

/-- Sum in each coordinate. -/
def add (p q : Point) : Point := ⟨p.x + q.x, p.y + q.y⟩

/-- Product in each coordinate. -/
def mul (p q : Point) : Point := ⟨p.x * q.x, p.y * q.y⟩

/-- A point on the wire. -/
def toJson (p : Point) : Json := .list [.single p.x, .single p.y]

/-- Reads a point from a buffer. -/
def ofJson (j : Json) : Json.Decoded Point := do
  match ← Json.asTuple .buffer 2 (Json.checking Json.asSingle) j with
  | [x, y] => return ⟨← Json.asSingle x, ← Json.asSingle y⟩
  | _ => .error .mismatch

end Point

/-- A turn, a scaling and a shift.  Calls compose onto what is already there. -/
structure Transform where
  rotation : Single
  scale : Point
  translation : Point
deriving DecidableEq, Repr

namespace Transform

/-- The transform that changes nothing. -/
def identity : Transform := ⟨0, .both 1, .both 0⟩

/-- Turns further, in radians. -/
def rotate (t : Transform) (radians : Single) : Transform :=
  { t with rotation := t.rotation + radians }

/-- Scales further. -/
def rescale (t : Transform) (factor : Point) : Transform := { t with scale := t.scale.mul factor }

/-- Shifts further. -/
def translate (t : Transform) (offset : Point) : Transform :=
  { t with translation := t.translation.add offset }

/-- The linear part of a transform, as the images of the two axes. -/
structure Axes where
  x : Point
  y : Point

/-- The images of the two axes. -/
def axes (t : Transform) : Axes :=
  let sin := t.rotation.sin
  let cos := t.rotation.cos
  ⟨⟨cos * t.scale.x, sin * t.scale.x⟩, ⟨(-sin) * t.scale.y, cos * t.scale.y⟩⟩

/-- The matrix of a transform, column by column. -/
def matrix (t : Transform) : List Single :=
  let a := t.axes
  [a.x.x, a.x.y, 0, a.y.x, a.y.y, 0, t.translation.x, t.translation.y, 1]

/-- The point from which the colour at `p` is taken. -/
def apply (t : Transform) (p : Point) : Point :=
  let a := t.axes
  ((a.x.mul (.both p.x)).add (a.y.mul (.both p.y))).add t.translation

/-- A coordinate folded back into the half-open interval from `-1` to `1`. -/
def fold (c : Single) : Single := (c + 1).remEuclid 2 - 1

/-- Whether a coordinate lies beyond the image. -/
def isOutside (c : Single) : Bool := Single.lt 1 c.abs

/-- The point that is sampled for `p`.  With `wrap` it is folded back into the image; otherwise there
is none when it lies outside. -/
def sample (t : Transform) (p : Point) (wrap : Bool) : Option Point :=
  let q := t.apply p
  if wrap then some ⟨fold q.x, fold q.y⟩
  else if isOutside q.x || isOutside q.y then none
  else some q

/-- The members of a transform on the wire. -/
def toMembers (t : Transform) : List (String × Json) :=
  [("rotation", .single t.rotation), ("scale", t.scale.toJson),
    ("translation", t.translation.toJson)]

/-- The fields of a transform on the wire. -/
def fields : Json.Fields :=
  [("rotation", Json.checking Json.asSingle), ("scale", Json.checking Point.ofJson),
    ("translation", Json.checking Point.ofJson)]

/-- Reads a transform from members that are buffered among others. -/
def ofMembers (m : Json.Members) : Json.Decoded Transform := do
  Json.scan fields Json.skip [] m
  return ⟨← m.get "rotation" Json.asSingle, ← m.get "scale" Point.ofJson,
    ← m.get "translation" Point.ofJson⟩

end Transform

end FilterScript
