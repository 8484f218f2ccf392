import FilterScript.Context
import FilterScript.Primitive.Argument

/-
The primitives: what a script can tell the filter, the host and its own run.

A call is decided in two steps.  `Primitive.select` looks at the name and the arguments and answers a
command, or the refusal of an argument, or that there is no such primitive for arguments of these
types.  Only a command acts, and of all commands only a choice can still be refused: whether there is
something to choose from is up to the random stream.
-/
namespace FilterScript

open Script

/-- What a script can tell the host to do, beside showing a filter. -/
inductive Directive where
  | clear
  | save
  | record
  | resolution (n : UInt32)
  | oscillatorFrequency (hertz : Single)
  | oscillatorGain (gain : Single)
  | decibelRange (low high : Single)

/-- The message of a directive. -/
def Directive.message : Directive → WorkerMessage
  | clear => .clear
  | save => .save
  | record => .record
  | resolution n => .resolution n
  | oscillatorFrequency hertz => .oscillatorFrequency hertz
  | oscillatorGain gain => .oscillatorGain gain
  | decibelRange low high => .decibelRange low high

/-- What a call of a primitive does. -/
inductive Command where
  | edit (e : Filter.Edit)
  /-- Start over, and tell the host to clear the image. -/
  | reboot
  | direct (d : Directive)
  | render
  | frame
  | sleep (time : Duration)
  /-- A time that no clock can hold. -/
  | sleepBeyond
  | elapsed
  | delta
  | checkbox (name : String)
  | radio (name : String) (options : List String)
  | slider (name : String) (low high step initial : Single)
  | seed (n : UInt64)
  | choose (items : List Value)
  | random
  | answer (v : Value)
  /-- More numbers than any memory holds. -/
  | countBeyond
  | log (level : LogLevel) (text : String)

/-- Why a call of a primitive fails. -/
inductive Refusal where
  | argument (text : String)
  | assertion (text : String)
deriving DecidableEq, Repr

/-- What a refused call throws. -/
def Refusal.value : Refusal → Value
  | argument text => .refusal text
  | assertion text => .string text

namespace Primitive

/-- What a call comes to. -/
abbrev Decision := Except Refusal Command

def edit (e : Filter.Edit) : Decision := .ok (.edit e)

def checked {α : Type} (c : Argument.Checked α) (f : α → Decision) : Decision :=
  match c with
  | .ok a => f a
  | .error text => .error (.argument text)

/-! ### Masks and operations -/

/-- The mask of a primitive without arguments. -/
def plainMask? : String → Option Mask
  | "all" => some .all
  | "circle" => some .circle
  | "cross" => some .cross
  | "square" => some .square
  | "top" => some .top
  | "check" => some .check
  | "x" => some .x
  | "equalizer" => some .equalizer
  | "frequency" => some .frequency
  | "timeDomain" => some .timeDomain
  | "wave" => some .wave
  | _ => none

/-- The operation of a primitive without arguments. -/
def plainOperation? : String → Option Operation
  | "identity" => some .identity
  | "invert" => some .invert
  | "debugColor" => some .debug
  | _ => none

def rotateColor (axis : String) (turns : Value) : Decision :=
  match ColorAxis.parse? axis with
  | none => .error (.argument (ColorAxis.unknown axis))
  | some a => checked (Argument.finite turns "rotateColor") fun t =>
    edit (.operation (.rotateColor a t))

def pairOfWords (what : String) (f : UInt32 → UInt32 → Mask) (a b : Value) : Decision :=
  checked (Argument.word a what) fun m =>
    checked (Argument.word b what) fun n => edit (.mask (f m n))

/-! ### Time -/

def thousand : Single := .ofNat 1000

/-- The longest sleep in seconds that a clock can hold. -/
def longestSleep : Single := .ofNat (2 ^ 63)

/-- A sleep of some milliseconds, none if they are negative. -/
def sleep (ms : Single) : Decision :=
  let ms := if Single.lt 0 ms then ms else 0
  let seconds := ms / thousand
  if longestSleep.le seconds then .ok .sleepBeyond
  else
    match seconds.view with
    | .finite _ m e =>
      let s : Dyadic := ⟨m, e⟩
      -- Whole nanoseconds, halves to even.
      let n := s.numerator * Duration.perSecond
      let q := n / s.denominator
      let twice := 2 * (n % s.denominator)
      let up := s.denominator < twice ∨ (twice = s.denominator ∧ q % 2 = 1)
      .ok (.sleep (if up then q + 1 else q))
    | _ => .ok (.sleep 0)

/-! ### Widgets -/

def sliderLow : Single := 0

def sliderHigh : Single := 1

def sliderStep : Single := Decimal.toSingle false ⟨1, -3⟩

def slider (name : String) (low high step : Value) (initial : Option Value) : Decision :=
  let finite (v : Value) := Argument.finite v "slider"
  checked (finite low) fun l => checked (finite high) fun h => checked (finite step) fun s =>
    match initial with
    | none => .ok (.slider name l h s l)
    | some v => checked (finite v) fun i => .ok (.slider name l h s i)

/-! ### Directives -/

/-- The resolution that a value asks for: a whole number of thirty-two bits. -/
def resolution? (v : Value) : Option UInt32 :=
  match v with
  | .int i => if 0 ≤ i ∧ i < 2 ^ 32 then some (UInt32.ofNat i.toNat) else none
  | .float x =>
    if x.isFinite ∧ x.isWhole ∧ Single.le 0 x ∧ x.le (.ofNat (2 ^ 32 - 1)) then
      some (UInt32.ofNat (x.toInt 0 (2 ^ 32 - 1)).toNat)
    else none
  | _ => none

/-- The most values that fit into memory, sixteen bytes each. -/
def mostValues : Nat := (2 ^ 63 - 1) / 16

/-- The numbers from zero up to `n`, as an array that stays within the limit. -/
def count (limit : Nat) (n : Int) : Decision :=
  let k := n.toNat
  if 0 < limit ∧ limit < k then
    .error (.argument ("range(" ++ toString n ++ ") exceeds the array size limit of "
      ++ toString limit))
  else if mostValues < k then .ok .countBeyond
  else .ok (.answer (.array ((List.range k).map fun (i : Nat) => .int i)))

def level? : String → Option LogLevel
  | "info" => some .info
  | "warn" => some .warn
  | "error" => some .error
  | _ => none

/-! ### Selection -/

def nullary (name : String) : Option Decision :=
  match plainMask? name, plainOperation? name with
  | some m, _ => some (edit (.mask m))
  | none, some o => some (edit (.operation o))
  | none, none =>
    match name with
    | "wrap" => some (edit .toggleWrap)
    | "identityTransform" => some (edit .identityTransform)
    | "reset" => some (edit .reset)
    | "reboot" => some (.ok .reboot)
    | "render" => some (.ok .render)
    | "frame" => some (.ok .frame)
    | "elapsed" => some (.ok .elapsed)
    | "delta" => some (.ok .delta)
    | "random" => some (.ok .random)
    | "clear" => some (.ok (.direct .clear))
    | "save" => some (.ok (.direct .save))
    | "record" => some (.ok (.direct .record))
    | _ => none

def unary (limit : Nat) (name : String) (v : Value) : Option Decision :=
  match name, v with
  | "alpha", v => some (checked (Argument.finite v name) fun a => edit (.alpha a))
  | "defaultColor", v => some (checked (Argument.color v name) fun c => edit (.defaultColor c))
  | "wrap", .bool b => some (edit (.wrap b))
  | "coordinates", .bool b => some (edit (.coordinates b))
  | "repeat", v => some (checked (Argument.word v name) fun n =>
      if n = 0 then .error (.argument "repeat expects at least 1") else edit (.repetitions n))
  | "scale", v => some (checked (Argument.scale v) fun p => edit (.scale p))
  | "rotate", v => some (checked (Argument.finite v name) fun r => edit (.rotate r))
  | "translate", v => some (checked (Argument.point v name) fun p => edit (.translate p))
  | "sleep", .int ms => some (sleep (.ofInt ms))
  | "sleep", .float ms =>
    some (if ms.isFinite then sleep ms
      else .error (.argument "sleep expects a finite duration"))
  | "checkbox", .string s => some (.ok (.checkbox s))
  | "slider", .string s => some (.ok (.slider s sliderLow sliderHigh sliderStep sliderLow))
  | "seed", v => some (checked (Argument.seed v) fun n => .ok (.seed n))
  | "choose", .array vs => some (.ok (.choose vs))
  | "resolution", v => some (match resolution? v with
      | some n => .ok (.direct (.resolution n))
      | none => .ok (.answer .unit))
  | "oscillatorFrequency", v =>
    some (checked (Argument.finite v name) fun x => .ok (.direct (.oscillatorFrequency x)))
  | "oscillatorGain", v =>
    some (checked (Argument.finite v name) fun x => .ok (.direct (.oscillatorGain x)))
  | "assert", .bool b =>
    some (if b then .ok (.answer .unit) else .error (.assertion "assertion failed"))
  | "range", .int n => some (count limit n)
  | _, _ => none

def binary (name : String) (v w : Value) : Option Decision :=
  match name, v, w with
  | "mod", v, w => some (pairOfWords name Mask.mod v w)
  | "rows", v, w => some (pairOfWords name Mask.rows v w)
  | "rotateColor", .string s, w => some (rotateColor s w)
  | "radio", .string s, w => some (checked (Argument.options w name) fun os => .ok (.radio s os))
  | "decibelRange", v, w => some (checked (Argument.finite v name) fun l =>
      checked (Argument.finite w name) fun h => .ok (.direct (.decibelRange l h)))
  | "assert", .bool b, w =>
    some (if b then .ok (.answer .unit) else .error (.assertion w.logText))
  | name, .log, w => (level? name).map fun l => .ok (.log l w.logText)
  | _, _, _ => none

/-- What a call of a primitive comes to, where arrays hold at most `limit` values; nothing if there
is no such primitive. -/
def select (limit : Nat) (name : String) (args : List Value) : Option Decision :=
  match args with
  | [] => nullary name
  | [v] => unary limit name v
  | [v, w] => binary name v w
  | [r, s, t] =>
    if name = "transform" then
      some (checked (Argument.finite r name) fun r => checked (Argument.scale s) fun s =>
        checked (Argument.point t name) fun t => edit (.transform r s t))
    else none
  | [.string s, low, high, step] =>
    if name = "slider" then some (slider s low high step none) else none
  | [.string s, low, high, step, initial] =>
    if name = "slider" then some (slider s low high step (some initial)) else none
  | _ => none

/-! ### Effects -/

/-- What a call gives, or why it is refused. -/
abbrev Result := Except Refusal Value

/-- The refusal of a choice among nothing. -/
def nothingToChoose : Refusal := .argument "choose needs a non-empty array"

/-- What comes of a choice. -/
def chosen : Option Value → Result
  | some v => .ok v
  | none => .error nothingToChoose

/-- How long it takes to copy some texts: a nanosecond for each byte. -/
def copyTime (texts : List String) : Duration :=
  texts.foldl (fun time text => time + text.utf8ByteSize) 0

/-- The thread dies. -/
def dies : Action Result := ExceptT.lift (StateT.lift Thread.crash)

/-- Does what a call comes to. -/
def perform : Command → Action Result
  | .edit e => do
    Action.edit e
    return .ok .unit
  | .reboot => do
    Action.edit .reset
    Action.post .clear
    return .ok .unit
  | .direct d => do
    Action.post d.message
    return .ok .unit
  | .render => do
    Action.render
    return .ok .unit
  | .frame => do
    Action.awaitFrame
    return .ok .unit
  | .sleep time => do
    Action.sleep time
    return .ok .unit
  | .sleepBeyond => dies
  | .elapsed => do return .ok (.float (Duration.millis (← Action.request .elapsed)))
  | .delta => do return .ok (.float (Duration.millis (← Action.request .delta)))
  | .checkbox name => do return .ok (.bool (← Action.checkbox name))
  | .radio name options => do
    -- The run asks for no sleep here.  The pause only stands for the time in which it copies the
    -- options and does not look whether it was cancelled.
    Action.work (copyTime options)
    return .ok (.string (← Action.radio name options))
  | .slider name low high step initial => do
    return .ok (.float (← Action.slider name low high step initial))
  | .seed n => do
    Action.seed n
    return .ok .unit
  | .choose items => do return chosen (← Action.choose items)
  | .random => do return .ok (.float (← Action.random))
  | .answer v => return .ok v
  | .countBeyond => dies
  | .log level text => do
    let _ ← Action.log level text
    return .ok .unit

end Primitive

end FilterScript
