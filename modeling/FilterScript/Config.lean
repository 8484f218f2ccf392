import FilterScript.Json.Complaint
import FilterScript.Json.Decoder
import FilterScript.Logger

/-
The limits under which scripts run.
-/
namespace FilterScript

/-- The limits of a run.  A size or a number of operations that is zero is no limit. -/
structure Config where
  /-- How deep expressions may be nested, at global level and in functions. -/
  maxExprDepth : UInt64
  maxCallLevels : UInt64
  maxStringSize : UInt64
  maxArraySize : UInt64
  maxMapSize : UInt64
  maxOperations : UInt64
  logLimitPerFrame : UInt32
deriving DecidableEq, Repr

/-- Why a configuration is refused. -/
inductive Config.Fault where
  | noExprDepth
  | noCallLevels
deriving DecidableEq, Repr

namespace Config

/-- What is said of a configuration that is refused. -/
def Fault.message : Fault → String
  | noExprDepth => "invalid config: maxExprDepth must be positive"
  | noCallLevels => "invalid config: maxCallLevels must be positive"

/-- The limits that hold unless something else is said. -/
def standard : Config where
  maxExprDepth := 64
  maxCallLevels := 64
  maxStringSize := 10000
  maxArraySize := 10000
  maxMapSize := 500
  maxOperations := 0
  logLimitPerFrame := UInt32.ofNat Logger.defaultLimit

/-- Refuses limits under which nothing can run. -/
def validate (c : Config) : Except Fault Unit :=
  if c.maxExprDepth = 0 then .error .noExprDepth
  else if c.maxCallLevels = 0 then .error .noCallLevels
  else .ok ()

/-- The stack of a script before nesting is accounted for, in bytes. -/
def baseStack : Nat := 8 * 1024 * 1024

/-- The stack of one level of calls or of expressions, in bytes. -/
def stackPerLevel : Nat := 256 * 1024

private def saturate (n : Nat) : Nat := min n Json.largest64

/-- The stack that the deepest nesting within the limits needs; each step stays within a word. -/
def stackSize (c : Config) : Nat :=
  let levels := saturate (c.maxCallLevels.toNat + c.maxExprDepth.toNat)
  saturate (baseStack + saturate (levels * stackPerLevel))

/-- A configuration on the wire. -/
def toJson (c : Config) : Json :=
  .record [("maxExprDepth", .nat c.maxExprDepth.toNat),
    ("maxCallLevels", .nat c.maxCallLevels.toNat),
    ("maxStringSize", .nat c.maxStringSize.toNat), ("maxArraySize", .nat c.maxArraySize.toNat),
    ("maxMapSize", .nat c.maxMapSize.toNat), ("maxOperations", .nat c.maxOperations.toNat),
    ("logLimitPerFrame", .nat c.logLimitPerFrame.toNat)]

/-- The fields of a configuration on the wire. -/
def fields : Json.Fields :=
  [("maxExprDepth", Json.checking Json.asWord64), ("maxCallLevels", Json.checking Json.asWord64),
    ("maxStringSize", Json.checking Json.asWord64), ("maxArraySize", Json.checking Json.asWord64),
    ("maxMapSize", Json.checking Json.asWord64), ("maxOperations", Json.checking Json.asWord64),
    ("logLimitPerFrame", Json.checking Json.asWord32)]

/-- Reads a configuration from the wire.  A field that is left out has its standard value. -/
def ofJson (j : Json) : Json.Decoded Config := do
  let m ← Json.asRecord .text fields j
  return {
    maxExprDepth := ← m.getD "maxExprDepth" Json.asWord64 standard.maxExprDepth
    maxCallLevels := ← m.getD "maxCallLevels" Json.asWord64 standard.maxCallLevels
    maxStringSize := ← m.getD "maxStringSize" Json.asWord64 standard.maxStringSize
    maxArraySize := ← m.getD "maxArraySize" Json.asWord64 standard.maxArraySize
    maxMapSize := ← m.getD "maxMapSize" Json.asWord64 standard.maxMapSize
    maxOperations := ← m.getD "maxOperations" Json.asWord64 standard.maxOperations
    logLimitPerFrame := ← m.getD "logLimitPerFrame" Json.asWord32 standard.logLimitPerFrame }

/-- What a configuration looks like on the wire. -/
def form : Json.Form :=
  let size : Json.Form := .natural "usize" Json.largest64
  .record "EngineConfig" [("maxExprDepth", false, size), ("maxCallLevels", false, size),
    ("maxStringSize", false, size), ("maxArraySize", false, size), ("maxMapSize", false, size),
    ("maxOperations", false, .natural "u64" Json.largest64),
    ("logLimitPerFrame", false, .natural "u32" Json.largest32)]

end Config

end FilterScript
