import FilterScript.Filter.Basic
import FilterScript.Widget.Basic

/-
The messages between a host and the scripts it runs.

What a host says is tagged in a member of its own; what a script says is an object with one member,
or a bare name when it carries nothing.
-/
namespace FilterScript

/-- What a host says. -/
inductive HostMessage where
  /-- Replace whatever runs by this script. -/
  | script (source : String)
  /-- The display is ready for a new frame. -/
  | frame
  | checkbox (name : String) (value : Bool)
  | radio (name : String) (value : String)
  | slider (name : String) (value : Single)
  /-- Forget every widget. -/
  | clearWidgets
deriving DecidableEq, Repr

namespace HostMessage

/-- The value that a message reports for a widget. -/
def update? : HostMessage → Option (String × Widget.Value)
  | checkbox name value => some (name, .checkbox value)
  | radio name value => some (name, .radio value)
  | slider name value => some (name, .slider value)
  | _ => none

private def tagged (tag : String) (content : Json) : Json :=
  .record [("tag", .string tag), ("content", content)]

private def named (name : String) (value : Json) : Json :=
  .record [("name", .string name), ("value", value)]

/-- A message on the wire. -/
def toJson : HostMessage → Json
  | script source => tagged "script" (.string source)
  | frame => .record [("tag", .string "frame")]
  | checkbox name value => tagged "checkbox" (named name (.bool value))
  | radio name value => tagged "radio" (named name (.string value))
  | slider name value => tagged "slider" (named name (.single value))
  | clearWidgets => .record [("tag", .string "clearWidgets")]

/-- The kind of a message: complete, a script, or the report of a widget's value. -/
inductive Kind where
  | plain (message : HostMessage)
  | script
  | checkbox
  | radio
  | slider

/-- The kind that a tag stands for. -/
def kind? : String → Option Kind
  | "script" => some .script
  | "frame" => some (.plain frame)
  | "checkbox" => some .checkbox
  | "radio" => some .radio
  | "slider" => some .slider
  | "clearWidgets" => some (.plain clearWidgets)
  | _ => none

private def asReport {α : Type} (value : Json → Json.Decoded α) (make : String → α → HostMessage)
    (j : Json) : Json.Decoded HostMessage := do
  let fields := [("name", Json.checking Json.asString), ("value", Json.checking value)]
  let m ← Json.asObject fields Json.skip j
  return make (← m.get "name" Json.asString) (← m.get "value" value)

/-- Reads a message from the wire. -/
def ofJson : Json → Json.Decoded HostMessage :=
  Json.asTagged "tag" "content" (Json.asName .text kind?) fun kind _ content =>
    match kind with
    | .plain message => Json.nothing message content
    | .script => do return script (← Json.needed Json.asString content)
    | .checkbox => Json.needed (asReport Json.asBool checkbox) content
    | .radio => Json.needed (asReport Json.asString radio) content
    | .slider => Json.needed (asReport Json.asSingle slider) content

end HostMessage

/-- What a script says. -/
inductive WorkerMessage where
  /-- Apply this filter and show it. -/
  | render (filter : Filter)
  /-- The run has ended.  It is said once for each run, behind any error. -/
  | done
  | error (text : String)
  | widget (name : String) (shape : Widget.Shape)
  | clear
  | save
  | resolution (n : UInt32)
  | record
  | oscillatorFrequency (hertz : Single)
  | oscillatorGain (gain : Single)
  | decibelRange (low high : Single)
deriving DecidableEq, Repr

namespace WorkerMessage

/-- A message on the wire. -/
def toJson : WorkerMessage → Json
  | render filter => .choice "render" filter.toJson
  | done => .string "done"
  | error text => .choice "error" (.string text)
  | widget name shape =>
    .choice "widget" (.record [("name", .string name), ("widget", shape.toJson)])
  | clear => .string "clear"
  | save => .string "save"
  | resolution n => .choice "resolution" (.nat n.toNat)
  | record => .string "record"
  | oscillatorFrequency hertz => .choice "oscillatorFrequency" (.single hertz)
  | oscillatorGain gain => .choice "oscillatorGain" (.single gain)
  | decibelRange low high =>
    .choice "decibelRange" (.record [("min", .single low), ("max", .single high)])

/-- The message of a name that carries nothing. -/
def plain? : String → Option WorkerMessage
  | "done" => some done
  | "clear" => some clear
  | "save" => some save
  | "record" => some record
  | _ => none

def ofName (name : String) : Json.Decoded WorkerMessage :=
  match plain? name with
  | some m => .ok m
  | none => .error .mismatch

def asWidget (j : Json) : Json.Decoded WorkerMessage := do
  let m ← Json.asRecord .text [("name", Json.checking Json.asString),
    ("widget", Json.checking Widget.Shape.ofJson)] j
  return widget (← m.get "name" Json.asString) (← m.get "widget" Widget.Shape.ofJson)

def asRange (j : Json) : Json.Decoded WorkerMessage := do
  let number := Json.checking Json.asSingle
  let m ← Json.asRecord .text [("min", number), ("max", number)] j
  return decibelRange (← m.get "min" Json.asSingle) (← m.get "max" Json.asSingle)

def ofMember (name : String) (j : Json) : Json.Decoded WorkerMessage :=
  match name with
  | "render" => return render (← Filter.ofJson j)
  | "error" => return error (← Json.asString j)
  | "widget" => asWidget j
  | "resolution" => return resolution (UInt32.ofNat (← Json.asNat Json.largest32 j))
  | "oscillatorFrequency" => return oscillatorFrequency (← Json.asSingle j)
  | "oscillatorGain" => return oscillatorGain (← Json.asSingle j)
  | "decibelRange" => asRange j
  | _ => do
    let m ← ofName name
    Json.asUnit j
    return m

/-- Reads a message from the wire. -/
def ofJson : Json → Json.Decoded WorkerMessage := Json.asChoice .text ofName ofMember

/-- Whether a message says that its run has ended. -/
def isDone (m : WorkerMessage) : Bool := m = done

/-- The filter that a message shows. -/
def filter? : WorkerMessage → Option Filter
  | render filter => some filter
  | _ => none

/-- The text of an error message. -/
def errorText? : WorkerMessage → Option String
  | error text => some text
  | _ => none

end WorkerMessage

end FilterScript
