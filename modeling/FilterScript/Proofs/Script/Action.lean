/-
The primitives keep to the protocol.

An action on the context leads from one stage to another, unless it finds that
the run was replaced; then the run knows, and that is the stage `told`.  The
actions that need more than one request are read off piece by piece: marking a
widget leads to `marked`, from where only a look at the flag leads back, and
handing in a continuation leads to `parked`, from where only its signal does.
-/
import FilterScript.Primitive.Basic
import FilterScript.Proofs.Thread.Conduct

namespace FilterScript.Action

variable {α β : Type} {s t u : Stage}

/-- Where an action ends that was to lead to a stage. -/
def endsIn (t : Stage) (u : Stage) (x : Except Cancelled α × Context) : Prop :=
  match x.1 with
  | .ok _ => u = t
  | .error _ => u = .told

/-- An action leads from a stage to a stage, in every context. -/
def Leads (s t : Stage) (a : Action α) : Prop :=
  ∀ c, Thread.Conforms (endsIn t) s (a.run.run c)

namespace Leads

theorem pure (a : α) : Leads s s (pure a : Action α) := fun _ => .done rfl

/-- Giving up is for those who know. -/
theorem throw (e : Cancelled) : Leads .told t (throw e : Action α) := fun _ => .done rfl

theorem bind {a : Action α} {f : α → Action β} (ha : Leads s t a)
    (hf : ∀ x, Leads t u (f x)) : Leads s u (a >>= f) := by
  intro c
  refine Thread.Follows.bind (ha c) ?_
  rintro v ⟨x, c'⟩ hv
  cases x with
  | ok x =>
      cases hv
      exact hf x c'
  | error e => exact .done hv

/-- A request, and what is made of its reply. -/
theorem request {r : Request} {f : r.Reply → Action α} (hr : s.Allows r)
    (hf : ∀ x, Leads (s.after r x) t (f x)) : Leads s t (Action.request r >>= f) :=
  fun c => .ask hr fun x => hf x c

theorem get {f : Context → Action α} (hf : ∀ c, Leads s t (f c)) : Leads s t (MonadState.get >>= f) :=
  fun c => hf c c

theorem modify (f : Context → Context) : Leads s s (modify f : Action Unit) := fun _ => .done rfl

theorem ite {b : Prop} [Decidable b] {a a' : Action α} (ha : Leads s t a) (ha' : Leads s t a') :
    Leads s t (if b then a else a') := by
  split
  · exact ha
  · exact ha'

end Leads

/-! ### The parts of the actions -/

theorem require_leads (b : Bool) : Leads (if b then s else .told) s (require b) := by
  cases b with
  | true => exact .pure ()
  | false => exact .throw _

/-- A look at the flag leads back to where everything may be asked. -/
theorem checkpoint_leads (hs : s = .free ∨ s = .marked) : Leads s .free checkpoint := by
  rcases hs with rfl | rfl
  all_goals
    refine .request trivial fun b => ?_
    cases b with
    | true => exact require_leads false
    | false => exact require_leads true

theorem post_leads {m : WorkerMessage} (hm : m.isFinal = false) (hs : s = .free ∨ s = .marked) :
    Leads s .free (post m) := by
  refine .bind (checkpoint_leads hs) fun _ => .request hm fun b => ?_
  cases b with
  | true => exact require_leads true
  | false => exact require_leads false

theorem publish_leads : Leads .free .free publish := .get fun _ => post_leads rfl (.inl rfl)

/-- Handing in a continuation leads to the wait for its signal. -/
theorem suspend_leads : Leads .free .parked suspend := by
  refine .bind (checkpoint_leads (.inl rfl)) fun _ => .request trivial fun b => ?_
  cases b with
  | true => exact require_leads true
  | false => exact require_leads false

theorem awaitFrame_leads : Leads .free .free awaitFrame := by
  refine .bind suspend_leads fun _ => .request trivial fun x => ?_
  match x with
  | some .frame => exact .modify _
  | some .cancelled => exact .throw _
  | none => exact .throw _

theorem render_leads : Leads .free .free render := .bind publish_leads fun _ => awaitFrame_leads

theorem sleepSlices_leads (n : Nat) (time : Duration) : Leads .free .free (sleepSlices n time) := by
  induction n generalizing time with
  | zero => exact checkpoint_leads (.inl rfl)
  | succ n ih =>
      refine .bind (checkpoint_leads (.inl rfl)) fun _ => .ite (.pure ()) ?_
      exact .request trivial fun _ => ih _

theorem work_leads (time : Duration) : Leads .free .free (work time) :=
  .request trivial fun _ => .pure _

/-- Between the mark and the message the run looks once whether it was replaced. -/
theorem declareWidget_leads (name : String) (shape : Widget.Shape) :
    Leads .free .free (declareWidget name shape) := by
  refine .get fun c => .ite (.pure ()) ?_
  refine .request trivial fun _ => .bind (post_leads rfl (.inr rfl)) fun _ => .modify _

theorem checkbox_leads (name : String) : Leads .free .free (checkbox name) :=
  .bind (declareWidget_leads _ _) fun _ => .request trivial fun _ => .pure _

theorem radio_leads (name : String) (options : List String) :
    Leads .free .free (radio name options) :=
  .bind (declareWidget_leads _ _) fun _ => .request trivial fun _ => .pure _

theorem slider_leads (name : String) (low high step initial : Single) :
    Leads .free .free (slider name low high step initial) :=
  .bind (declareWidget_leads _ _) fun _ => .request trivial fun _ => .pure _

theorem random_leads : Leads .free .free random :=
  .get fun _ => .bind (.modify _) fun _ => .pure _

theorem choose_leads (items : List α) : Leads .free .free (choose items) :=
  .get fun _ => .bind (.modify _) fun _ => .pure _

theorem forM_log_leads (records : List LogRecord) :
    Leads .free .free (records.forM fun r => do let _ ← Action.request (.log r)) := by
  induction records with
  | nil => exact .pure ()
  | cons r rest ih =>
      exact .bind (.request trivial fun _ => .pure ()) fun _ => ih

theorem log_leads (level : LogLevel) (text : String) : Leads .free .free (log level text) :=
  .get fun _ => .bind (.modify _) fun _ => .bind (forM_log_leads _) fun _ => .pure _

end FilterScript.Action

namespace FilterScript

open FilterScript.Action

theorem Directive.isFinal_message (d : Directive) : d.message.isFinal = false := by
  cases d <;> rfl

theorem Primitive.dies_leads {s : Stage} : Leads .free s Primitive.dies := fun _ => .crash rfl

/-- **Every primitive keeps to the protocol**, and leaves the run where it may ask
for anything. -/
theorem Primitive.perform_leads (c : Command) : Leads .free .free (Primitive.perform c) := by
  cases c with
  | edit e => exact .bind (.modify _) fun _ => .pure _
  | reboot => exact .bind (.modify _) fun _ => .bind (post_leads rfl (.inl rfl)) fun _ => .pure _
  | direct d => exact .bind (post_leads d.isFinal_message (.inl rfl)) fun _ => .pure _
  | render => exact .bind render_leads fun _ => .pure _
  | frame => exact .bind awaitFrame_leads fun _ => .pure _
  | sleep time => exact .bind (sleepSlices_leads _ _) fun _ => .pure _
  | sleepBeyond => exact dies_leads
  | elapsed => exact .request trivial fun _ => .pure _
  | delta => exact .request trivial fun _ => .pure _
  | checkbox name => exact .bind (checkbox_leads _) fun _ => .pure _
  | radio name options =>
      exact .bind (work_leads _) fun _ => .bind (radio_leads _ _) fun _ => .pure _
  | slider name low high step initial =>
      exact .bind (slider_leads _ _ _ _ _) fun _ => .pure _
  | seed n => exact .bind (.modify _) fun _ => .pure _
  | choose items => exact .bind (choose_leads _) fun _ => .pure _
  | random => exact .bind random_leads fun _ => .pure _
  | answer v => exact .pure _
  | countBeyond => exact dies_leads
  | log level text => exact .bind (log_leads _ _) fun _ => .pure _

end FilterScript
