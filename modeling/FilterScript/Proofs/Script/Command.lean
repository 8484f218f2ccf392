/-
What commands ask for, and what they leave alone.

`Takes` says of an action that it keeps to a protocol and leads from where one thing holds to where
another does.  What holds is about the memory of the protocol and about the context.  The actions that
primitives are made of have a rule each; most of their requests are plain, which means that a protocol
remembers nothing of them.

A command is put together from these actions, so it is gone through once, for all protocols and for
everything that is to be kept: `perform_takes`.  What has to be known for it is said by `Spares`, and it
depends on the command.  Of a command that has nothing to do with widgets nothing has to be known about
widgets.  `Keeps` is the case of a protocol that remembers nothing.
-/
import FilterScript.Primitive.Basic
import FilterScript.Proofs.Thread.Exchange

namespace FilterScript

/-- Whether a request is about something else than messages, widgets and the log. -/
def Request.isPlain : Request → Bool
  | post _ => false
  | declare _ => false
  | widgetValue _ => false
  | log _ => false
  | _ => true

/-- The context of a run that has told its host of a widget. -/
def Context.declaring (c : Context) (name : String) (shape : Widget.Shape) : Context :=
  { c with declared := (name, shape) :: c.declared.filter fun d => d.1 ≠ name }

/-- Whether the host knows of a widget in this shape. -/
def Context.knows (c : Context) (name : String) (shape : Widget.Shape) : Bool :=
  match c.declared.lookup name with
  | some s => s.same shape
  | none => false

namespace Command

/-- The change of the filter that a command makes. -/
def edit? : Command → Option Filter.Edit
  | edit e => some e
  | reboot => some .reset
  | _ => none

/-- Whether a command ends the thread. -/
def isDeadly : Command → Bool
  | sleepBeyond => true
  | countBeyond => true
  | _ => false

/-- The widget that a command reads, in the shape that it asks for. -/
def widget? : Command → Option (String × Widget.Shape)
  | checkbox name => some (name, .checkbox)
  | radio name options => some (name, .radio options)
  | slider name low high step initial => some (name, .slider low high step initial)
  | _ => none

/-- The message that a command logs. -/
def message? : Command → Option (LogLevel × String)
  | log level text => some (level, text)
  | _ => none

/-- Whether a command waits for the next frame. -/
def resumes : Command → Bool
  | render => true
  | frame => true
  | _ => false

/-- Whether a command posts a message, beside telling of a widget. -/
def Posts : Command → Context → WorkerMessage → Prop
  | reboot, _, m => m = .clear
  | direct d, _, m => m = d.message
  | render, c, m => m = .render c.filter
  | _, _, _ => False

end Command

namespace Action

variable {α β μ : Type} {P : Protocol μ} {A B : μ → Context → Prop} {C : α → μ → Context → Prop}

/-- From where `A` holds an action keeps to a protocol, and it leads to where `C` holds
unless it gives up. -/
def Takes (P : Protocol μ) (A : μ → Context → Prop) (C : α → μ → Context → Prop)
    (a : Action α) : Prop :=
  ∀ u c, A u c → (a.run.run c).Follows P
    (fun v x => match x.1 with | .ok y => C y v x.2 | .error _ => True) u

namespace Takes

theorem pure {y : α} (h : ∀ u c, A u c → C y u c) : Takes P A C (pure y : Action α) :=
  fun u c hA => .done (h u c hA)

theorem throw (e : Cancelled) : Takes P A C (throw e : Action α) := fun _ _ _ => .done trivial

theorem bind {a : Action α} {f : α → Action β} {D : β → μ → Context → Prop} (ha : Takes P A C a)
    (hf : ∀ y, Takes P (C y) D (f y)) : Takes P A D (a >>= f) := by
  intro u c hA
  refine Thread.Follows.bind (ha u c hA) ?_
  rintro v ⟨y, c'⟩ hv
  cases y with
  | ok y => exact hf y v c' hv
  | error e => exact .done trivial

/-- An action whose value is turned into another one. -/
theorem map {a : Action α} {f : α → β} (ha : Takes P A (fun _ => B) a) :
    Takes P A (fun _ => B) (a >>= fun x => Pure.pure (f x)) :=
  .bind ha fun _ => .pure fun _ _ hB => hB

/-- A request, and what is made of its reply. -/
theorem request {r : Request} {f : r.Reply → Action α} (hr : ∀ u c, A u c → P.Allows u r)
    (hf : ∀ x, Takes P (fun v c => ∃ u, A u c ∧ v = P.after u r x) C (f x)) :
    Takes P A C (Action.request r >>= f) :=
  fun u c hA => .ask (hr u c hA) fun x => hf x _ c ⟨u, hA, rfl⟩

/-- Who reads the context knows it. -/
theorem get {f : Context → Action α} (hf : ∀ c, Takes P (fun u c' => A u c' ∧ c' = c) C (f c)) :
    Takes P A C (MonadState.get >>= f) :=
  fun u c hA => hf c u c ⟨hA, rfl⟩

theorem modify {f : Context → Context} (h : ∀ u c, A u c → B u (f c)) :
    Takes P A (fun _ => B) (modify f : Action Unit) :=
  fun u c hA => .done (h u c hA)

theorem mono {a : Action α} (ha : Takes P B C a) (h : ∀ u c, A u c → B u c) : Takes P A C a :=
  fun u c hA => ha u c (h u c hA)

end Takes

/-! ### The actions that ask for plain things -/

section Plain

variable (hplain : ∀ u {r : Request}, r.isPlain = true → P.Allows u r ∧ ∀ x, P.after u r x = u)
include hplain

/-- A plain request leaves everything as it is. -/
theorem request_takes {r : Request} (hr : r.isPlain = true) {f : r.Reply → Action α}
    (hf : ∀ x, Takes P A C (f x)) : Takes P A C (Action.request r >>= f) := by
  refine .request (fun u c _ => (hplain u hr).1) fun x => (hf x).mono ?_
  rintro v c ⟨u, hA, rfl⟩
  rw [(hplain u hr).2 x]
  exact hA

theorem checkpoint_takes : Takes P A (fun _ => A) checkpoint := by
  refine request_takes hplain rfl fun b => ?_
  cases b with
  | true => exact .throw _
  | false => exact .pure fun _ _ hA => hA

theorem post_takes {m : WorkerMessage}
    (hm : ∀ u c, A u c → P.Allows u (.post m) ∧ B (P.after u (.post m) true) c) :
    Takes P A (fun _ => B) (post m) := by
  refine .bind (checkpoint_takes hplain) fun _ => .request (fun u c hA => (hm u c hA).1) fun b => ?_
  cases b with
  | true =>
      refine .pure ?_
      rintro v c ⟨u, hA, rfl⟩
      exact (hm u c hA).2
  | false => exact .throw _

theorem suspend_takes : Takes P A (fun _ => A) suspend := by
  refine .bind (checkpoint_takes hplain) fun _ => request_takes hplain rfl fun b => ?_
  cases b with
  | true => exact .pure fun _ _ hA => hA
  | false => exact .throw _

/-- A new frame starts the budget of the log anew. -/
theorem awaitFrame_takes (h : ∀ u c, A u c → B u { c with logger := c.logger.resetFrame }) :
    Takes P A (fun _ => B) awaitFrame := by
  refine .bind (suspend_takes hplain) fun _ => request_takes hplain rfl fun x => ?_
  match x with
  | some .frame => exact .modify h
  | some .cancelled => exact .throw _
  | none => exact .throw _

theorem sleepSlices_takes (n : Nat) (time : Duration) :
    Takes P A (fun _ => A) (sleepSlices n time) := by
  induction n generalizing time with
  | zero => exact checkpoint_takes hplain
  | succ n ih =>
      refine .bind (checkpoint_takes hplain) fun _ => ?_
      split
      · exact .pure fun _ _ hA => hA
      · exact request_takes hplain rfl fun _ => ih _

end Plain

/-! ### The log -/

end Action

/-- Some records may be written one after the other, which leads from one memory to another. -/
def Protocol.Writes {μ : Type} (P : Protocol μ) : List LogRecord → μ → μ → Prop
  | [], u, v => v = u
  | r :: rest, u, v => P.Allows u (.log r) ∧ P.Writes rest (P.after u (.log r) ()) v

/-- A protocol that remembers nothing of the log lets everything be written. -/
theorem Protocol.writes_of_plain {μ : Type} {P : Protocol μ} {u : μ}
    (h : ∀ r, P.Allows u (.log r) ∧ P.after u (.log r) () = u) (records : List LogRecord) :
    P.Writes records u u := by
  induction records with
  | nil => rfl
  | cons r rest ih =>
      refine ⟨(h r).1, ?_⟩
      rw [(h r).2]
      exact ih

namespace Action

variable {α β μ : Type} {P : Protocol μ} {A B : μ → Context → Prop} {C : Bool → μ → Context → Prop}

theorem forM_log_takes (records : List LogRecord) :
    Takes P (fun u c => ∃ v, P.Writes records u v ∧ B v c) (fun _ => B)
      (records.forM fun r => do let _ ← Action.request (.log r)) := by
  induction records with
  | nil =>
      refine .pure ?_
      rintro u c ⟨v, rfl, hB⟩
      exact hB
  | cons r rest ih =>
      refine .bind (C := fun _ u c => ∃ v, P.Writes rest u v ∧ B v c) ?_ fun _ => ih
      refine .request ?_ fun _ => .pure ?_
      · rintro u c ⟨v, ⟨hallowed, -⟩, -⟩
        exact hallowed
      · rintro w c ⟨u, ⟨v, ⟨-, hrest⟩, hB⟩, rfl⟩
        exact ⟨v, hrest, hB⟩

/-- A message that is logged writes what the budget lets through. -/
theorem log_takes {level : LogLevel} {text : String}
    (h : ∀ u c, A u c → ∃ v, P.Writes (c.logger.log level text).2.1 u v ∧
      C (c.logger.log level text).1 v { c with logger := (c.logger.log level text).2.2 }) :
    Takes P A C (log level text) := by
  refine .get fun c => .bind (.modify (B := fun u c' => ∃ v,
    P.Writes (c.logger.log level text).2.1 u v ∧ C (c.logger.log level text).1 v c') ?_) fun _ =>
    .bind (forM_log_takes _) fun _ => .pure fun _ _ hC => hC
  rintro u c' ⟨hA, rfl⟩
  exact h u c' hA

/-! ### Widgets -/

/-- What has to be known of a widget that is announced, if that is needed, and then read. -/
structure Tells (P : Protocol μ) (A B : μ → Context → Prop) (name : String)
    (shape : Widget.Shape) : Prop where
  /-- One that the host knows is only read. -/
  known : ∀ {u c}, A u c → c.knows name shape = true →
    P.Allows u (.widgetValue name) ∧ ∀ x, B (P.after u (.widgetValue name) x) c
  /-- Another one is marked and announced before. -/
  unknown : ∀ {u c}, A u c → c.knows name shape = false →
    let v := P.after u (.declare name) ()
    let w := P.after v (.post (.widget name shape)) true
    P.Allows u (.declare name) ∧ P.Allows v (.post (.widget name shape)) ∧
      P.Allows w (.widgetValue name) ∧
      ∀ x, B (P.after w (.widgetValue name) x) (c.declaring name shape)

theorem widget_takes {name : String} {shape : Widget.Shape} {f : Option Widget.Value → α}
    (hplain : ∀ u {r : Request}, r.isPlain = true → P.Allows u r ∧ ∀ x, P.after u r x = u)
    (h : Tells P A B name shape) : Takes P A (fun _ => B)
      (do declareWidget name shape; return f (← Action.request (.widgetValue name))) := by
  -- Behind the declaration the widget may be read.
  have hdeclare : Takes P A (fun _ u c => P.Allows u (.widgetValue name) ∧
      ∀ x, B (P.after u (.widgetValue name) x) c) (declareWidget name shape) := by
    refine .get fun c => ?_
    show Takes _ _ _ (if c.knows name shape then Pure.pure () else _)
    cases hknown : c.knows name shape with
    | true =>
        refine .pure ?_
        rintro u c' ⟨hA, rfl⟩
        exact h.known hA hknown
    | false =>
        refine .request ?_ fun _ => .bind (post_takes hplain (B := fun w c' =>
          P.Allows w (.widgetValue name) ∧
            ∀ x, B (P.after w (.widgetValue name) x) (c'.declaring name shape)) ?_) fun _ =>
          .modify fun _ _ hw => hw
        · rintro u c' ⟨hA, rfl⟩
          exact (h.unknown hA hknown).1
        · rintro v c' ⟨u, ⟨hA, rfl⟩, rfl⟩
          obtain ⟨-, hpost, hread⟩ := h.unknown hA hknown
          exact ⟨hpost, hread⟩
  refine .bind hdeclare fun _ => .request (fun _ _ hread => hread.1) fun x => .pure ?_
  rintro v c ⟨u, hread, rfl⟩
  exact hread.2 x

end Action

/-! ### The walk through the commands -/

open FilterScript.Action

/-- What has to be known for a command to keep to a protocol and to keep an invariant. -/
structure Command.Spares {μ : Type} (P : Protocol μ) (Inv : μ → Context → Prop)
    (command : Command) : Prop where
  plain : ∀ u {r : Request}, r.isPlain = true → P.Allows u r ∧ ∀ x, P.after u r x = u
  stop : command.isDeadly = true → ∀ {u c}, Inv u c → P.MayStop u
  random : ∀ {u c} (random : Random), Inv u c → Inv u { c with random }
  edit : ∀ {e}, command.edit? = some e → ∀ {u c}, Inv u c →
    Inv u { c with filter := c.filter.edit e }
  post : ∀ {u c m}, command.Posts c m → Inv u c →
    P.Allows u (.post m) ∧ Inv (P.after u (.post m) true) c
  resume : command.resumes = true → ∀ {u c}, Inv u c →
    Inv u { c with logger := c.logger.resetFrame }
  log : ∀ {level text}, command.message? = some (level, text) → ∀ {u c}, Inv u c →
    ∃ v, P.Writes (c.logger.log level text).2.1 u v ∧
      Inv v { c with logger := (c.logger.log level text).2.2 }
  widget : ∀ {name shape}, command.widget? = some (name, shape) → Tells P Inv Inv name shape

/-- **A command keeps what it spares.** -/
theorem Command.Spares.perform_takes {μ : Type} {P : Protocol μ} {Inv : μ → Context → Prop}
    {command : Command} (h : command.Spares P Inv) :
    Takes P Inv (fun _ => Inv) (Primitive.perform command) := by
  have hdraw (c : Context) (random : Random) : Takes P (fun u c' => Inv u c' ∧ c' = c)
      (fun _ => Inv) (modify fun c => { c with random }) := .modify fun _ _ hu => h.random random hu.1
  cases command with
  | edit e => exact .map (.modify fun _ _ hu => h.edit rfl hu)
  | reboot =>
      exact .bind (.modify fun _ _ hu => h.edit rfl hu) fun _ =>
        .map (post_takes h.plain fun _ _ hu => h.post rfl hu)
  | direct d => exact .map (post_takes h.plain fun _ _ hu => h.post rfl hu)
  | render =>
      refine .map (.bind (.get fun c => post_takes h.plain ?_) fun _ =>
        awaitFrame_takes h.plain fun _ _ hu => h.resume rfl hu)
      rintro u c' ⟨hu, rfl⟩
      exact h.post rfl hu
  | frame => exact .map (awaitFrame_takes h.plain fun _ _ hu => h.resume rfl hu)
  | sleep time => exact .map (sleepSlices_takes h.plain _ _)
  | sleepBeyond => exact fun _ _ hu => .crash (h.stop rfl hu)
  | elapsed => exact request_takes h.plain rfl fun _ => .pure fun _ _ hu => hu
  | delta => exact request_takes h.plain rfl fun _ => .pure fun _ _ hu => hu
  | checkbox name => exact .map (widget_takes h.plain (h.widget rfl))
  | radio name options =>
      exact .bind (request_takes h.plain rfl fun _ => .pure fun _ _ hu => hu) fun _ =>
        .map (widget_takes h.plain (h.widget rfl))
  | slider name low high step initial => exact .map (widget_takes h.plain (h.widget rfl))
  | seed n => exact .map (.modify fun _ _ hu => h.random (.ofSeed n) hu)
  | choose items => exact .map (.get fun c => .map (hdraw c _))
  | random => exact .map (.get fun c => .map (hdraw c _))
  | answer v => exact .pure fun _ _ hu => hu
  | countBeyond => exact fun _ _ hu => .crash (h.stop rfl hu)
  | log level text => exact .map (log_takes fun _ _ hu => h.log rfl hu)

/-! ### Protocols that remember nothing -/

namespace Action

variable {α β : Type} {P : Protocol Unit} {A : Context → Prop}

/-- An action that keeps to a protocol, and that keeps a property of the context. -/
def Keeps (P : Protocol Unit) (A : Context → Prop) (a : Action α) : Prop :=
  Takes P (fun _ => A) (fun _ _ => A) a

namespace Keeps

theorem pure (y : α) : Keeps P A (pure y) := Takes.pure fun _ _ hA => hA

theorem bind {a : Action α} {f : α → Action β} (ha : Keeps P A a) (hf : ∀ y, Keeps P A (f y)) :
    Keeps P A (a >>= f) :=
  Takes.bind ha hf

theorem modify {f : Context → Context} (hf : ∀ c, A c → A (f c)) :
    Keeps P A (modify f : Action Unit) :=
  Takes.modify fun _ c hA => hf c hA

/-- What is kept holds where a branch of the action ends with an answer. -/
theorem of_goes {a : Action α} {c c' : Context} {xs : List Exchange} {y : α} (ha : Keeps P A a)
    (hA : A c) (h : (a.run.run c).Goes xs (.done (.ok y, c'))) : A c' := by
  obtain ⟨-, s, hend⟩ := (ha () c hA).goes h
  cases hend with
  | done hA' => exact hA'

end Keeps

section Allowed

variable (hall : ∀ r, P.Allows () r)
include hall

theorem allowed_plain (u : Unit) {r : Request} (_ : r.isPlain = true) :
    P.Allows u r ∧ ∀ x, P.after u r x = u :=
  ⟨hall r, fun _ => rfl⟩

theorem post_keeps (m : WorkerMessage) : Keeps P A (post m) :=
  post_takes (allowed_plain hall) fun _ _ hA => ⟨hall _, hA⟩

theorem writes_allowed (records : List LogRecord) : P.Writes records () () :=
  Protocol.writes_of_plain (fun r => ⟨hall (.log r), rfl⟩) records

variable (hA : ∀ c declared random logger, A c → A { c with declared, random, logger })
include hA

theorem log_keeps (level : LogLevel) (text : String) : Keeps P A (log level text) :=
  log_takes fun _ c h => ⟨(), writes_allowed hall _, hA c c.declared c.random _ h⟩

/-- **A command that is no change of the filter keeps all that is about the filter only.** -/
theorem perform_keeps {c : Command} (hedit : c.edit? = none)
    (hdeadly : c.isDeadly = true → P.MayStop ()) : Keeps P A (Primitive.perform c) := by
  refine Command.Spares.perform_takes
    { plain := allowed_plain hall
      stop := fun h _ _ _ => hdeadly h
      random := fun {_ c} random h => hA c c.declared random c.logger h
      edit := fun {_} h => ?_
      post := fun {_ _ _} _ h => ⟨hall _, h⟩
      resume := fun _ {_ c} h => hA c c.declared c.random _ h
      log := fun {_ _} _ {_ c} h => ⟨(), writes_allowed hall _, hA c c.declared c.random _ h⟩
      widget := fun {name shape} _ =>
        { known := fun {_ _} h _ => ⟨hall _, fun _ => h⟩
          unknown := fun {_ c} h _ =>
            ⟨hall _, hall _, hall _, fun _ => hA c _ c.random c.logger h⟩ } }
  rw [hedit] at h
  cases h

end Allowed

end Action

end FilterScript
