import FilterScript.Json.Decoder

/-
Masks: which pixels of an image a filter touches.
-/
namespace FilterScript

/-- A pair of coordinates. -/
structure Point where
  x : Single
  y : Single
deriving DecidableEq, Repr

/-- A pixel of an image of known size. -/
structure Pixel where
  column : UInt32
  row : UInt32
  width : UInt32
  height : UInt32

/-- A rule that selects pixels.  The last four follow the sound, which only the renderer hears. -/
inductive Mask where
  | all
  | circle
  | cross
  | square
  | top
  | check
  | x
  | mod (divisor remainder : UInt32)
  | rows (bars step : UInt32)
  | equalizer
  | frequency
  | timeDomain
  | wave
deriving DecidableEq, Repr

namespace Mask

/-- The cell of the checkerboard in which a coordinate lies; cells are a quarter wide. -/
def cell (c : Single) : Int :=
  ((c + 1) / Single.quarter).floor.toInt (-(2 ^ 63)) (2 ^ 63 - 1)

/-- The place of a pixel when the rows of its image are laid one behind the other. -/
def index (pixel : Pixel) : Nat := pixel.row.toNat * pixel.width.toNat + pixel.column.toNat

/-- Whether a mask selects a pixel whose centre lies at `p`, where the image spans `-1` to `1` in
both directions and `y` grows downwards.  A period of zero selects nothing, and so does a mask that
follows the sound. -/
def covers (mask : Mask) (pixel : Pixel) (p : Point) : Bool :=
  match mask with
  | all => true
  | circle => (p.x * p.x + p.y * p.y).sqrt.lt 1
  | cross => p.x.abs.lt Single.quarter || p.y.abs.lt Single.quarter
  | square => p.x.abs.lt Single.half && p.y.abs.lt Single.half
  | top => p.y.lt 0
  | check => (cell p.x + cell p.y) % 2 = 0
  | x => (p.x - p.y).abs.lt Single.quarter || (p.x + p.y).abs.lt Single.quarter
  | mod divisor remainder =>
    divisor ≠ 0 && index pixel % divisor.toNat = remainder.toNat
  | rows bars step =>
    let period := bars.toNat + step.toNat
    period ≠ 0 && pixel.row.toNat % period < bars.toNat
  | equalizer => false
  | frequency => false
  | timeDomain => false
  | wave => false

/-- The name of a mask on the wire. -/
def name : Mask → String
  | all => "All"
  | circle => "Circle"
  | cross => "Cross"
  | square => "Square"
  | top => "Top"
  | check => "Check"
  | x => "X"
  | mod .. => "Mod"
  | rows .. => "Rows"
  | equalizer => "Equalizer"
  | frequency => "Frequency"
  | timeDomain => "TimeDomain"
  | wave => "Wave"

/-- A mask on the wire. -/
def toJson (mask : Mask) : Json :=
  match mask with
  | mod divisor remainder =>
    .record [("kind", .string mask.name),
      ("params", .record [("divisor", .nat divisor.toNat), ("remainder", .nat remainder.toNat)])]
  | rows bars step =>
    .record [("kind", .string mask.name),
      ("params", .record [("rows", .nat bars.toNat), ("step", .nat step.toNat)])]
  | _ => .record [("kind", .string mask.name)]

/-- The kind of a mask: complete, or in need of two whole numbers under names. -/
inductive Kind where
  | plain (mask : Mask)
  | pair (first second : String) (make : UInt32 → UInt32 → Mask)

/-- The kind that a name stands for. -/
def kind? : String → Option Kind
  | "All" => some (.plain all)
  | "Circle" => some (.plain circle)
  | "Cross" => some (.plain cross)
  | "Square" => some (.plain square)
  | "Top" => some (.plain top)
  | "Check" => some (.plain check)
  | "X" => some (.plain x)
  | "Mod" => some (.pair "divisor" "remainder" mod)
  | "Rows" => some (.pair "rows" "step" rows)
  | "Equalizer" => some (.plain equalizer)
  | "Frequency" => some (.plain frequency)
  | "TimeDomain" => some (.plain timeDomain)
  | "Wave" => some (.plain wave)
  | _ => none

def asPair (first second : String) (j : Json) : Json.Decoded (UInt32 × UInt32) := do
  let number := Json.asNat Json.largest32
  let m ← Json.asObject [(first, Json.checking number), (second, Json.checking number)] Json.skip j
  return (UInt32.ofNat (← m.get first number), UInt32.ofNat (← m.get second number))

/-- Reads a mask from the wire. -/
def ofJson : Json → Json.Decoded Mask :=
  Json.asTagged "kind" "params" (Json.asName .text kind?) fun kind _ content =>
    match kind with
    | .plain mask => Json.nothing mask content
    | .pair first second make => do
      let (a, b) ← Json.needed (asPair first second) content
      return make a b

end Mask

end FilterScript
