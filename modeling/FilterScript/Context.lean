import FilterScript.Random
import FilterScript.Thread

/-
The context of a run: everything that the primitives of a script act on.

Each run starts from a fresh context, so nothing leaks from one run into the next.  An action on the
context either gives a value or finds that the run was cancelled, and it keeps what was changed
before in both cases.
-/
namespace FilterScript

/-- The state of a run. -/
structure Context where
  filter : Filter
  random : Random
  /-- The widgets that the host was told of, with the shape that it knows. -/
  declared : List (String × Widget.Shape)
  logger : Logger

/-- The run was replaced, or its host went away. -/
inductive Cancelled where
  | cancelled

/-- An action on the context. -/
abbrev Action := ExceptT Cancelled (StateT Context Thread)

namespace Context

/-- The context with which a run starts, whatever its number. -/
def fresh (_ : RunId) (logLimit : Nat) : Context :=
  ⟨.initial, .initial, [], .ofLimit logLimit⟩

end Context

namespace Action

/-- Asks the surroundings of the run. -/
def request (r : Request) : Action r.Reply := ExceptT.lift (StateT.lift (Thread.request r))

/-- Gives up if a condition does not hold. -/
def require (b : Bool) : Action Unit := if b then return () else throw .cancelled

/-- Gives up if the run was cancelled. -/
def checkpoint : Action Unit := do require (!(← request .isCancelled))

/-- Sends a message to the host. -/
def post (m : WorkerMessage) : Action Unit := do
  checkpoint
  require (← request (.post m))

/-- Changes the filter. -/
def edit (e : Filter.Edit) : Action Unit := modify fun c => { c with filter := c.filter.edit e }

/-- Shows the filter as it is now. -/
def publish : Action Unit := do post (.render (← get).filter)

/-- Hands in a continuation. -/
def suspend : Action Unit := do
  checkpoint
  require (← request .suspend)

/-- A new frame has begun. -/
def resumed : Action Unit := modify fun c => { c with logger := c.logger.resetFrame }

/-- Waits for the next frame. -/
def awaitFrame : Action Unit := do
  suspend
  match ← request .await with
  | some .frame => resumed
  | some .cancelled => throw .cancelled
  | none => throw .cancelled

/-- Shows the filter, and waits for the next frame. -/
def render : Action Unit := do
  publish
  awaitFrame

/-- How long a sleeping run goes without looking whether it was cancelled. -/
def slice : Duration := 10 * Duration.perMilli

/-- Sleeps for a while, at most `slices` slices long. -/
def sleepSlices : Nat → Duration → Action Unit
  | 0, _ => checkpoint
  | slices + 1, time => do
    checkpoint
    if time = 0 then return ()
    else
      let step := min time slice
      let _ ← request (.pause step)
      sleepSlices slices (time - step)

/-- Sleeps for a while. -/
def sleep (time : Duration) : Action Unit := sleepSlices (time / slice + 2) time

/-- Works for a while without looking up.  It is told like a sleep, but nobody sleeps: it only takes
time. -/
def work (time : Duration) : Action Unit := do
  let _ ← request (.pause time)

/-- Tells the host of a widget, unless it knows the widget in this shape. -/
def declareWidget (name : String) (shape : Widget.Shape) : Action Unit := do
  let known := match (← get).declared.lookup name with
    | some s => s.same shape
    | none => false
  if known then return ()
  else
    let _ ← request (.declare name)
    post (.widget name shape)
    modify fun c =>
      { c with declared := (name, shape) :: c.declared.filter fun d => d.1 ≠ name }

/-- What a registry that holds only the value of one name says. -/
def registryOf (name : String) (value : Option Widget.Value) : Widget.Registry :=
  match value with
  | some v => Widget.Registry.empty.update name v
  | none => .empty

/-- Whether a box is checked. -/
def checkbox (name : String) : Action Bool := do
  declareWidget name .checkbox
  return (registryOf name (← request (.widgetValue name))).checkbox name

/-- The option that is selected, empty if there is none. -/
def radio (name : String) (options : List String) : Action String := do
  declareWidget name (.radio options)
  return ((registryOf name (← request (.widgetValue name))).radio name options).getD ""

/-- The place of a slider. -/
def slider (name : String) (low high step initial : Single) : Action Single := do
  declareWidget name (.slider low high step initial)
  return (registryOf name (← request (.widgetValue name))).slider name initial

/-- Restarts the random stream. -/
def seed (n : UInt64) : Action Unit := modify fun c => { c with random := .ofSeed n }

/-- Draws a number from zero up to one. -/
def random : Action Single := do
  let (x, r) := (← get).random.number
  modify fun c => { c with random := r }
  return x

/-- Draws one of some items. -/
def choose {α : Type} (items : List α) : Action (Option α) := do
  let (x, r) := (← get).random.choose items
  modify fun c => { c with random := r }
  return x

/-- Logs a message within the budget of the frame; answers whether it was logged. -/
def log (level : LogLevel) (text : String) : Action Bool := do
  let (accepted, records, logger) := (← get).logger.log level text
  modify fun c => { c with logger := logger }
  records.forM fun r => do
    let _ ← request (.log r)
  return accepted

end Action

end FilterScript
