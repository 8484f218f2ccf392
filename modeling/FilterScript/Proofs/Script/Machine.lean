/-
The machine keeps to a protocol if the primitives do.

What a script does is a computation over the machine that can be interrupted, and the
machine asks for nothing but what its primitives ask for.  So it is proved once, for
whatever protocol one has in mind, that a script keeps to it.  A `Discipline` is what
has to be known for that: a protocol, where a run stands in it between two actions, and
that every action leads from there to there again.

An interruption tells where it leaves the run: an error that says that the run was
replaced leaves a run that knows, every other one a run that may go on.  A computation
that catches interruptions answers them as values, so `Leads` lets the last place
depend on the value with which a computation ends.
-/
import FilterScript.Proofs.Script.Action
import FilterScript.Script.Machine

namespace FilterScript

/-- Where a run stands between two actions of its script. -/
inductive Place where
  /-- It may do anything. -/
  | free
  /-- It has learned that it was replaced. -/
  | told

/-- How an action ends, for those to whom `Stands` says where a run stands that has a
context. -/
def Action.endsAt {σ α : Type} (Stands : Place → σ → Context → Prop) (u : σ)
    (x : Except Cancelled α × Context) : Prop :=
  match x.1 with
  | .ok _ => Stands .free u x.2
  | .error _ => Stands .told u x.2

/-- Whether an action keeps to a protocol and leads from where a run may do anything to
there, or to where a run stands that was told. -/
def Action.KeepsTo {σ α : Type} (P : Protocol σ) (Stands : Place → σ → Context → Prop)
    (a : Action α) : Prop :=
  ∀ u c, Stands .free u c → (a.run.run c).Follows P (Action.endsAt Stands) u

/-- A protocol that the actions of scripts keep to. -/
structure Discipline (σ : Type) where
  protocol : Protocol σ
  /-- Where a run stands that has this context. -/
  Stands : Place → σ → Context → Prop
  mayStop : ∀ u c, Stands .free u c → protocol.MayStop u
  checkpoint : Action.checkpoint.KeepsTo protocol Stands
  log : ∀ level text, (Action.log level text).KeepsTo protocol Stands
  /-- A primitive does only what a call can come to. -/
  perform : ∀ {limit name args command}, Primitive.select limit name args = some (.ok command) →
    (Primitive.perform command).KeepsTo protocol Stands

/-- The protocol that the host relies on is one that the actions keep to. -/
def Discipline.conduct : Discipline Stage where
  protocol := Stage.protocol
  Stands
    | .free, s, _ => s = .free
    | .told, s, _ => s = .told
  mayStop _ _ hs := hs
  checkpoint := fun _ c hs => hs ▸ Action.checkpoint_leads (.inl rfl) c
  log level text := fun _ c hs => hs ▸ Action.log_leads level text c
  perform _ := fun _ c hs => hs ▸ Primitive.perform_leads _ c

end FilterScript

namespace FilterScript.Script

/-- Where an interruption leaves the run. -/
def Interrupt.place : Interrupt → Place
  | .error e =>
    match e.fault with
    | .terminated => .told
    | _ => .free
  | _ => .free

/-- Where a computation leaves the run that ended like this. -/
def placeAfter {α : Type} : Except Interrupt α → Place
  | .ok _ => .free
  | .error i => i.place

theorem Interrupt.place_error {e : Error} (h : e.fault ≠ .terminated) :
    (Interrupt.error e).place = .free := by
  simp only [Interrupt.place]

namespace Eval

variable {α β σ : Type} {D : Discipline σ} {s : Place} {q : α → Place} {p : β → Place}
  {c : Context}

/-- Where a computation ends that was to leave the run at `q a` if it ends with `a`. -/
def endsAt (D : Discipline σ) (q : α → Place) (u : σ) (x : Except Interrupt α × Machine) : Prop :=
  match x.1 with
  | .ok a => D.Stands (q a) u x.2.context
  | .error i => D.Stands i.place u x.2.context

/-- A computation leads from a place to one that depends on its value, with a machine
whose context is `c`. -/
def LeadsFrom (D : Discipline σ) (c : Context) (s : Place) (q : α → Place) (e : Eval α) : Prop :=
  ∀ u m, m.context = c → D.Stands s u m.context → (e.run.run m).Follows D.protocol (endsAt D q) u

/-- A computation leads from a place to one that depends on its value. -/
def Leads (D : Discipline σ) (s : Place) (q : α → Place) (e : Eval α) : Prop :=
  ∀ c, LeadsFrom D c s q e

/-- A computation that starts and ends where everything may be asked. -/
def Orderly (D : Discipline σ) (e : Eval α) : Prop := Leads D .free (fun _ => .free) e

namespace LeadsFrom

theorem bind {e : Eval α} {f : α → Eval β} (he : LeadsFrom D c s q e)
    (hf : ∀ a, Leads D (q a) p (f a)) : LeadsFrom D c s p (e >>= f) := by
  intro u m hc hu
  refine Thread.Follows.bind (he u m hc hu) ?_
  rintro v ⟨x, m'⟩ hv
  cases x with
  | ok a => exact hf a _ v m' rfl hv
  | error i => exact .done hv

/-- Work on the machine leaves its context alone. -/
theorem set {m : Machine} (hm : m.context = c) :
    LeadsFrom D c s (fun _ => s) (set m : Eval PUnit) := by
  intro u m' hc hu
  rw [hc, ← hm] at hu
  exact .done hu

end LeadsFrom

namespace Leads

theorem pure (a : α) : Leads D (q a) q (pure a : Eval α) :=
  fun _ _ _ _ hu => .done hu

theorem throw (i : Interrupt) : Leads D i.place q (throw i : Eval α) :=
  fun _ _ _ _ hu => .done hu

theorem bind {e : Eval α} {f : α → Eval β} (he : Leads D s q e)
    (hf : ∀ a, Leads D (q a) p (f a)) : Leads D s p (e >>= f) :=
  fun c => (he c).bind hf

theorem ite {b : Prop} [Decidable b] {e e' : Eval α} (he : Leads D s q e)
    (he' : Leads D s q e') : Leads D s q (if b then e else e') := by
  split
  · exact he
  · exact he'

/-- Who reads the machine knows its context. -/
theorem getFrom {f : Machine → Eval β} (hf : ∀ m, LeadsFrom D m.context s p (f m)) :
    Leads D s p (MonadState.get >>= f) :=
  fun _ u m _ hu => hf m u m rfl hu

theorem get {f : Machine → Eval β} (hf : ∀ m, Leads D s p (f m)) :
    Leads D s p (MonadState.get >>= f) :=
  getFrom fun m => hf m m.context

theorem modify {f : Machine → Machine} (hf : ∀ m, (f m).context = m.context) :
    Leads D s (fun _ => s) (modify f : Eval PUnit) := by
  intro c u m hc hu
  rw [← hf m] at hu
  exact .done hu

theorem fail {f : Fault} {pos : Position} (hf : f ≠ .terminated) :
    Leads D .free q (fail f pos : Eval α) := by
  have ht := Leads.throw (D := D) (q := q) (.error (.at f pos))
  rwa [Interrupt.place_error (e := .at f pos) hf] at ht

/-- An attempt ends with what became of the computation, and the run stands where
that left it. -/
theorem attempt {e : Eval α} (he : Leads D s (fun _ => .free) e) :
    Leads D s placeAfter (Eval.attempt e) := by
  intro c u m hc hu
  refine Thread.Follows.bind (he c u m hc hu) ?_
  rintro v ⟨x, m'⟩ hv
  cases x with
  | ok a => exact .done hv
  | error i => exact .done hv

end Leads

/-! ### What every orderly computation is made of -/

namespace Orderly

theorem pure (a : α) : Orderly D (pure a : Eval α) := Leads.pure (q := fun _ => .free) a

theorem throw {i : Interrupt} (hi : i.place = .free) : Orderly D (throw i : Eval α) := by
  have ht := Leads.throw (D := D) (q := fun _ : α => Place.free) i
  rwa [hi] at ht

theorem bind {e : Eval α} {f : α → Eval β} (he : Orderly D e) (hf : ∀ a, Orderly D (f a)) :
    Orderly D (e >>= f) :=
  Leads.bind he hf

theorem get {f : Machine → Eval β} (hf : ∀ m, Orderly D (f m)) :
    Orderly D (MonadState.get >>= f) :=
  Leads.get hf

theorem ite {b : Prop} [Decidable b] {e e' : Eval α} (he : Orderly D e) (he' : Orderly D e') :
    Orderly D (if b then e else e') :=
  Leads.ite he he'

theorem fail {f : Fault} {pos : Position} (hf : f ≠ .terminated) :
    Orderly D (fail f pos : Eval α) :=
  Leads.fail hf

theorem mapM_loop {f : α → Eval β} (hf : ∀ a, Orderly D (f a)) (l : List α) (done : List β) :
    Orderly D (List.mapM.loop f l done) := by
  induction l generalizing done with
  | nil => exact .pure _
  | cons a rest ih => exact .bind (hf a) fun b => ih (b :: done)

theorem mapM {f : α → Eval β} (hf : ∀ a, Orderly D (f a)) (l : List α) : Orderly D (l.mapM f) :=
  mapM_loop hf l []

theorem ofAnswer (a : Except String α) (pos : Position) : Orderly D (ofAnswer a pos) := by
  cases a with
  | ok v => exact .pure v
  | error text => exact .fail (by simp)

theorem ofPart {a : Except Fault α} {pos : Position} (ha : a ≠ .error .terminated) :
    Orderly D (ofPart a pos) := by
  cases a with
  | ok v => exact .pure v
  | error f => exact .fail fun hf => ha (by rw [hf])

/-- An action of the context that finds the run cancelled ends in the one error
that says so. -/
theorem act {a : Action α} (ha : a.KeepsTo D.protocol D.Stands) (pos : Position) :
    Orderly D (act a pos) := by
  intro c u m hc hu
  refine Thread.Follows.bind (ha u m.context hu) ?_
  rintro v ⟨x, c'⟩ hv
  cases x with
  | ok a => exact .done hv
  | error e => exact .done hv

theorem tick (pos : Position) : Orderly D (tick pos) := by
  refine Leads.getFrom fun m => .bind (.set rfl) fun _ => .ite (.fail (by simp)) ?_
  exact act D.checkpoint pos

theorem concluding {e : Eval α} (he : Orderly D e) {f : Machine → Machine}
    (hf : ∀ m, (f m).context = m.context) : Orderly D (concluding e f) := by
  intro c u m hc hu
  refine Thread.Follows.bind (he c u m hc hu) ?_
  rintro v ⟨x, m'⟩ hv
  refine .done ?_
  rw [endsAt, hf m']
  exact hv

theorem enclosed {e : Eval α} (he : Orderly D e) : Orderly D (enclosed e) :=
  .get fun _ => .concluding he fun _ => rfl

end Orderly

/-! ### Variables

Work on the variables asks for nothing and is never interrupted, so it may be done
in any place.
-/

/-- A computation that leaves the run where it is, wherever that is. -/
def Neutral (D : Discipline σ) (e : Eval α) : Prop := ∀ s, Leads D s (fun _ => s) e

namespace Neutral

theorem orderly {e : Eval α} (he : Neutral D e) : Orderly D e := he .free

theorem pure (a : α) : Neutral D (pure a : Eval α) := fun s => Leads.pure (q := fun _ => s) a

theorem bind {e : Eval α} {f : α → Eval β} (he : Neutral D e) (hf : ∀ a, Neutral D (f a)) :
    Neutral D (e >>= f) :=
  fun s => .bind (he s) fun a => hf a s

theorem get {f : Machine → Eval β} (hf : ∀ m, Neutral D (f m)) :
    Neutral D (MonadState.get >>= f) :=
  fun s => .get fun m => hf m s

theorem modify {f : Machine → Machine} (hf : ∀ m, (f m).context = m.context) :
    Neutral D (modify f : Eval PUnit) :=
  fun _ => .modify hf

theorem declare (name : String) (constant : Bool) (v : Value) :
    Neutral D (declare name constant v) :=
  .modify fun _ => rfl

theorem find? (name : String) : Neutral D (find? name) := .get fun _ => .pure _

theorem setCell (i : Nat) (v : Value) : Neutral D (setCell i v) := .modify fun _ => rfl

theorem content (v : Value) : Neutral D (content v) := by
  unfold Eval.content
  split
  · exact .get fun _ => .pure _
  · exact .pure _

theorem variableAt? (i : Nat) : Neutral D (variableAt? i) := by
  refine .get fun m => ?_
  split
  · exact .bind (content _) fun _ => .pure _
  · exact .pure _

theorem setVariable (i : Nat) (v : Value) : Neutral D (setVariable i v) := by
  refine fun s => .getFrom fun m => ?_
  split
  · split
    · exact setCell _ _ s _
    · exact .set rfl
  · exact Neutral.pure _ s _

theorem setThis (v : Value) : Neutral D (setThis v) := by
  refine fun s => .getFrom fun m => ?_
  split
  · exact setCell _ _ s _
  · exact .set rfl
  · exact Neutral.pure _ s _

theorem share (i : Nat) : Neutral D (share i) := by
  refine fun s => .getFrom fun m => ?_
  split
  · split
    · exact Neutral.pure _ s _
    · exact .bind (.set rfl) fun _ => Neutral.pure _ s
  · exact Neutral.pure _ s _

theorem outside? (name : String) : Neutral D (outside? name) := by
  unfold Eval.outside?
  split
  · exact .pure _
  · refine .get fun m => ?_
    split
    · exact .pure _
    · exact .pure _

end Neutral

namespace Orderly

theorem lookup (name : String) (pos : Position) : Orderly D (lookup name pos) := by
  refine .bind (Neutral.find? name).orderly fun n => ?_
  split
  · refine .bind (Neutral.variableAt? _).orderly fun x => ?_
    split
    · exact .pure _
    · exact .fail (by simp)
  · refine .bind (Neutral.outside? name).orderly fun v => ?_
    split
    · exact .pure _
    · exact .fail (by simp)

theorem checkSize (v : Value) (pos : Position) : Orderly D (checkSize v pos) := by
  refine .get fun m => ?_
  split
  · exact .fail (by simp)
  · exact .pure _

end Orderly

end Eval

end FilterScript.Script
