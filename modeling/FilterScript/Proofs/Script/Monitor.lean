/-
Watching what scripts ask for.

Much that is to be known of scripts is about few of their requests: what they post,
which widgets they mark and which they read.  A `Monitor` remembers something of these
requests and says which of them it allows; all others it lets pass.  What it remembers
is tied to the context of the run by `Inv`, and the fields of a monitor say that `Inv`
survives the few actions that have to do with the filter or with widgets.  Every
script keeps to every monitor, whatever it asks for besides.
-/
import FilterScript.Proofs.Script.Command
import FilterScript.Proofs.Script.Outcome

namespace FilterScript

/-- Whether a request is about something else than messages and widgets. -/
def Request.isAside : Request → Bool
  | post _ => false
  | declare _ => false
  | widgetValue _ => false
  | _ => true

theorem Request.isAside_of_isPlain {r : Request} (h : r.isPlain = true) : r.isAside = true := by
  cases r <;> first | rfl | cases h

/-- Whether scripts change filters in this way: a call comes to it, or it is the part of
starting over that is about the filter. -/
def Filter.Edit.IsMade (e : Filter.Edit) : Prop :=
  e = .reset ∨ ∃ limit name args, Primitive.select limit name args = some (.ok (.edit e))

/-- A way to watch scripts. -/
structure Monitor (μ : Type) where
  protocol : Protocol μ
  /-- What ties the memory to the context of a run that goes on. -/
  Inv : μ → Context → Prop
  mayStop : ∀ u, protocol.MayStop u
  aside : ∀ u {r : Request}, r.isAside = true → protocol.Allows u r ∧ ∀ x, protocol.after u r x = u
  /-- The log and the random numbers make no difference. -/
  irrelevant : ∀ {u c} (logger : Logger) (random : Random), Inv u c →
    Inv u { c with logger, random }
  render : ∀ {u c}, Inv u c → protocol.Allows u (.post (.render c.filter)) ∧
    Inv (protocol.after u (.post (.render c.filter)) true) c
  direct : ∀ {u c} (d : Directive), Inv u c → protocol.Allows u (.post d.message) ∧
    Inv (protocol.after u (.post d.message) true) c
  edit : ∀ {u c} {e : Filter.Edit}, e.IsMade → Inv u c → Inv u { c with filter := c.filter.edit e }
  /-- A widget that the host knows may be read. -/
  known : ∀ {u c name shape}, Inv u c → c.knows name shape = true →
    protocol.Allows u (.widgetValue name)
  read : ∀ {u c} (name : String) (x : Option Widget.Value), Inv u c →
    Inv (protocol.after u (.widgetValue name) x) c
  mark : ∀ {u c} (name : String), Inv u c → protocol.Allows u (.declare name)
  /-- Another one may be announced when it was marked, and read afterwards. -/
  announce : ∀ {u c name shape}, Inv u c → c.knows name shape = false →
    let v := protocol.after u (.declare name) ()
    let w := protocol.after v (.post (.widget name shape)) true
    protocol.Allows v (.post (.widget name shape)) ∧ protocol.Allows w (.widgetValue name) ∧
      Inv w (c.declaring name shape)

namespace Monitor

open FilterScript.Action

variable {μ : Type} (M : Monitor μ)

theorem plain (u : μ) {r : Request} (hr : r.isPlain = true) :
    M.protocol.Allows u r ∧ ∀ x, M.protocol.after u r x = u :=
  M.aside u (Request.isAside_of_isPlain hr)

/-- The log is written as if nobody watched. -/
theorem writes (u : μ) (records : List LogRecord) : M.protocol.Writes records u u :=
  Protocol.writes_of_plain
    (fun r => ⟨(M.aside u (r := .log r) rfl).1, (M.aside u (r := .log r) rfl).2 ()⟩) records

/-- **Every primitive keeps to every monitor.** -/
theorem spares {limit : Nat} {name : String} {args : List Script.Value} {c : Command}
    (h : Primitive.select limit name args = some (.ok c)) : c.Spares M.protocol M.Inv where
  plain := M.plain
  stop _ {u _} _ := M.mayStop u
  random {_ c} random hu := M.irrelevant c.logger random hu
  edit {e} he := M.edit <| by
    cases c <;> cases he
    · exact .inr ⟨limit, name, args, h⟩
    · exact .inl rfl
  post {u _ _} hm hu := by
    cases c <;> cases hm
    · exact M.direct .clear hu
    · exact M.direct _ hu
    · exact M.render hu
  resume _ {_ c} hu := M.irrelevant c.logger.resetFrame c.random hu
  log {_ _} _ {u c} hu := ⟨u, M.writes u _, M.irrelevant _ c.random hu⟩
  widget _ :=
    { known := fun hu hknown => ⟨M.known hu hknown, fun x => M.read _ x hu⟩
      unknown := fun hu hknown =>
        let ⟨hpost, hread, hinv⟩ := M.announce hu hknown
        ⟨M.mark _ hu, hpost, hread, fun x => M.read _ x hinv⟩ }

/-- So every script keeps to it. -/
def discipline (M : Monitor μ) : Discipline μ where
  protocol := M.protocol
  Stands
    | .free, u, c => M.Inv u c
    | .told, _, _ => True
  mayStop u _ _ := M.mayStop u
  checkpoint := fun u c hu => checkpoint_takes M.plain u c hu
  log _ _ := fun u c hu => log_takes (C := fun _ => M.Inv)
    (fun u c hu => ⟨u, M.writes u _, M.irrelevant _ c.random hu⟩) u c hu
  perform h := fun u c hu => (M.spares h).perform_takes u c hu

/-- **The thread of every script keeps to every monitor**, from any memory that fits a
fresh context. -/
theorem scriptThread_follows (M : Monitor μ) (config : Config) (id : RunId) (script : String) {u : μ}
    (hu : M.Inv u (Context.fresh id config.logLimitPerFrame.toNat)) :
    (Session.scriptThread config id script).Follows M.protocol (fun _ _ => True) u := by
  have hfinish : ∀ v (o : Outcome),
      (Thread.request (.finish o)).Follows M.protocol (fun _ _ => True) v := fun v o =>
    .ask (M.aside v rfl).1 fun _ => .done trivial
  refine Thread.Follows.bind (Q := fun _ _ => True) ?_ fun v x _ => hfinish v x.1
  simp only [Script.run]
  split
  · exact .done trivial
  next p _ =>
    refine Thread.Follows.bind (Script.Program.run_follows M.discipline p.simplify _ hu) ?_
    rintro v ⟨ending, c⟩ -
    cases ending with
    | completed => exact .done trivial
    | failed e => exact .ask (M.aside v rfl).1 fun _ => .done trivial

end Monitor

end FilterScript
