/-
The course of a run: the commands that it carries out one after the other.

A script has no other way to ask for something than to carry out commands, those to which its calls come
and the messages that it prints.  Before each of its steps it looks whether the run was replaced, and
that is as good as a sleep of no time.  So the exchanges of a run are those of commands that it carried
out, behind them those of the one that it is at, and when it leaves it asks for nothing that could be
noticed: it looks once more, and reports how it ended.

The machine keeps to every discipline.  Here the memory is everything that was exchanged, and what is
allowed is to go on from exchanges that commands account for.
-/
import FilterScript.Proofs.Interpreter.Trace
import FilterScript.Proofs.Script.Notices

namespace FilterScript

/-- Whether a script may carry out a command: a call comes to it, or it prints a message. -/
def Command.IsMade (command : Command) : Prop :=
  (∃ level text, command = .log level text) ∨
    ∃ limit name args, Primitive.select limit name args = some (.ok command)

/-- What a run may ask for when it leaves. -/
def Request.isParting : Request → Bool
  | isCancelled => true
  | finish _ => true
  | _ => false

/-- A run carries out some commands one after the other. -/
inductive CarriesOut (start : Context) : List Command → List Exchange → Context → Prop where
  | nil : CarriesOut start [] [] start
  | snoc {commands : List Command} {command : Command} {xs ys : List Exchange} {c c' : Context}
      {result : Primitive.Result} (h : CarriesOut start commands xs c)
      (hdone : ((Primitive.perform command).run.run c).Goes ys (.done (.ok result, c'))) :
      CarriesOut start (commands ++ [command]) (xs ++ ys) c'

/-- A run has carried out some commands and is at another one, or has left behind that. -/
inductive Underway (start : Context) : List Command → Command → List Exchange → Prop where
  | here {commands : List Command} {command : Command} {xs ys zs : List Exchange} {c : Context}
      {t : Thread (Except Cancelled Primitive.Result × Context)} (h : CarriesOut start commands xs c)
      (hat : ((Primitive.perform command).run.run c).Goes ys t)
      (hparting : ∀ z ∈ zs, z.request.isParting = true) :
      Underway start commands command (xs ++ ys ++ zs)

/-- Some exchanges are those of a run that carries out commands. -/
def Accounted (start : Context) (xs : List Exchange) : Prop :=
  ∃ commands command, (∀ c ∈ command :: commands, c.IsMade) ∧ Underway start commands command xs

variable {start c c' : Context} {commands commands' : List Command} {command : Command}
  {xs ys : List Exchange}

/-! ### Courses -/

/-- A course of one command more. -/
theorem CarriesOut.of_snoc (h : CarriesOut start (commands ++ [command]) xs c') :
    ∃ ys zs c v, xs = ys ++ zs ∧ CarriesOut start commands ys c ∧
      ((Primitive.perform command).run.run c).Goes zs (.done (.ok v, c')) := by
  generalize hall : commands ++ [command] = all at h
  cases h with
  | nil => simp at hall
  | @snoc commands' command' ys zs c _ v h hdone =>
      obtain ⟨rfl, hcommand⟩ := List.append_inj' hall rfl
      cases hcommand
      exact ⟨ys, zs, c, v, rfl, h, hdone⟩

theorem CarriesOut.of_nil (h : CarriesOut start [] xs c) : xs = [] ∧ c = start := by
  generalize hnone : ([] : List Command) = commands at h
  cases h with
  | nil => exact ⟨rfl, rfl⟩
  | snoc _ _ => simp at hnone

theorem CarriesOut.of_singleton (h : CarriesOut start [command] xs c) :
    ∃ v, ((Primitive.perform command).run.run start).Goes xs (.done (.ok v, c)) := by
  have hlast : CarriesOut start ([] ++ [command]) xs c := h
  obtain ⟨ys, zs, c₁, v, rfl, hnone, hdone⟩ := hlast.of_snoc
  obtain ⟨rfl, rfl⟩ := hnone.of_nil
  exact ⟨v, hdone⟩

/-- A course can be cut anywhere. -/
theorem CarriesOut.of_append (h : CarriesOut start (commands ++ commands') xs c') :
    ∃ ys zs c, xs = ys ++ zs ∧ CarriesOut start commands ys c ∧ CarriesOut c commands' zs c' := by
  induction commands' using List.reverseRecOn generalizing xs c' with
  | nil => exact ⟨xs, [], c', by simp, by simpa using h, .nil⟩
  | append_singleton rest command ih =>
      rw [← List.append_assoc] at h
      obtain ⟨ys, zs, c₁, v, rfl, hrest, hdone⟩ := h.of_snoc
      obtain ⟨ws, ws', c₂, rfl, hfirst, hsecond⟩ := ih hrest
      exact ⟨ws, ws' ++ zs, c₂, by simp, hfirst, hsecond.snoc hdone⟩

/-- A run that has carried out commands may be at a sleep of no time, of which nothing shows yet. -/
theorem CarriesOut.underway (h : CarriesOut start commands xs c) :
    Underway start commands (.sleep 0) xs := by
  have hat : Underway start commands (.sleep 0) (xs ++ [] ++ []) := .here h (.stay _) (by simp)
  simpa using hat

theorem Underway.parting {x : Exchange} (h : Underway start commands command xs)
    (hx : x.request.isParting = true) : Underway start commands command (xs ++ [x]) := by
  obtain ⟨hdone, hat, hparting⟩ := h
  rw [List.append_assoc]
  refine .here hdone hat fun z hz => ?_
  rcases List.mem_append.mp hz with hz | hz
  · exact hparting z hz
  · exact List.mem_singleton.mp hz ▸ hx

theorem Primitive.sleep_zero : sleep (.ofInt 0) = .ok (.sleep 0) := by
  have hnegative : Single.lt 0 (.ofInt 0) = false := by decide +kernel
  have hlong : longestSleep.le (0 / thousand) = false := by decide +kernel
  have hview : ((0 : Single) / thousand).view = .finite false 0 (-149) := by decide +kernel
  unfold sleep
  simp only [hnegative, hlong, Bool.false_eq_true, if_false, hview]
  rfl

theorem isMade_sleep : (Command.sleep 0).IsMade :=
  .inr ⟨0, "sleep", [.int 0], congrArg some Primitive.sleep_zero⟩

/-! ### Remembering everything -/

/-- A protocol that remembers everything and allows to go on from what is good. -/
def Protocol.recording (Good : List Exchange → Prop) : Protocol (List Exchange) where
  Allows xs _ := Good xs
  after xs r x := xs ++ [⟨r, x⟩]
  MayStop := Good

namespace Thread

variable {α : Type} {Good : List Exchange → Prop} {Q : List Exchange → α → Prop} {t t' : Thread α}

/-- A computation all whose branches are good. -/
theorem follows_recording (hgood : ∀ ys u, t.Goes ys u → Good (xs ++ ys))
    (hdone : ∀ ys a, t.Goes ys (.done a) → Q (xs ++ ys) a) : t.Follows (.recording Good) Q xs := by
  induction t generalizing xs with
  | done a => exact .done (by simpa using hdone [] a (.stay _))
  | crash => exact .crash (show Good xs by simpa using hgood [] _ (.stay _))
  | spin => exact .spin (show Good xs by simpa using hgood [] _ (.stay _))
  | ask r k ih =>
      refine .ask (show Good xs by simpa using hgood [] _ (.stay _)) fun x => ih x ?_ ?_
      · intro ys u h
        simpa [Protocol.recording] using hgood (⟨r, x⟩ :: ys) u (.ask h)
      · intro ys a h
        simpa [Protocol.recording] using hdone (⟨r, x⟩ :: ys) a (.ask h)

/-- Along a branch the memory holds the exchanges. -/
theorem Follows.recorded (h : t.Follows (.recording Good) Q xs) (hgoes : t.Goes ys t') :
    t'.Follows (.recording Good) Q (xs ++ ys) := by
  induction hgoes generalizing xs with
  | stay t => simpa using h
  | @ask r k x ys u _ ih => simpa [Protocol.recording] using ih (h.of_ask.2 x)

/-- So all branches are good, if it is good to be done. -/
theorem Follows.good (h : t.Follows (.recording Good) (fun xs _ => Good xs) xs)
    (hgoes : t.Goes ys t') : Good (xs ++ ys) := by
  cases h.recorded hgoes with
  | done hgood => exact hgood
  | crash hgood => exact hgood
  | spin hgood => exact hgood
  | ask hgood _ => exact hgood

end Thread

/-! ### The course of a script -/

section Script

variable {α : Type} {a : Action α}

/-- Where a run stands whose exchanges are remembered. -/
def Context.StandsAt (start : Context) : Place → List Exchange → Context → Prop
  | .free, xs, c => ∃ commands, (∀ command ∈ commands, command.IsMade) ∧ CarriesOut start commands xs c
  | .told, xs, _ => Accounted start xs

theorem accounted_of_stands {place : Place} (h : start.StandsAt place xs c) : Accounted start xs := by
  cases place with
  | free =>
      obtain ⟨commands, hmade, hcourse⟩ := h
      exact ⟨commands, .sleep 0, List.forall_mem_cons.mpr ⟨isMade_sleep, hmade⟩, hcourse.underway⟩
  | told => exact h

/-- An action that goes along with a command. -/
theorem Action.keepsTo_recording (hmade : command.IsMade)
    (hat : ∀ {c ys t}, (a.run.run c).Goes ys t → ∃ t', ((Primitive.perform command).run.run c).Goes ys t')
    (hdone : ∀ {c c' ys y}, (a.run.run c).Goes ys (.done (.ok y, c')) →
      ∃ v, ((Primitive.perform command).run.run c).Goes ys (.done (.ok v, c'))) :
    a.KeepsTo (.recording (Accounted start)) start.StandsAt := by
  rintro xs c ⟨commands, hall, hcourse⟩
  have hgood (ys : List Exchange) (t : Thread (Except Cancelled α × Context))
      (h : (a.run.run c).Goes ys t) : Accounted start (xs ++ ys) := by
    obtain ⟨t', ht'⟩ := hat h
    have hunderway : Underway start commands command (xs ++ ys ++ []) := .here hcourse ht' (by simp)
    rw [List.append_nil] at hunderway
    exact ⟨commands, command, List.forall_mem_cons.mpr ⟨hmade, hall⟩, hunderway⟩
  refine Thread.follows_recording hgood ?_
  rintro ys ⟨y, c'⟩ h
  cases y with
  | error e => exact hgood ys _ h
  | ok y =>
      obtain ⟨v, hv⟩ := hdone h
      refine ⟨commands ++ [command], fun c hc => ?_, hcourse.snoc hv⟩
      rcases List.mem_append.mp hc with hc | hc
      · exact hall c hc
      · exact List.mem_singleton.mp hc ▸ hmade

/-- Every script keeps to what its commands account for. -/
def Discipline.recording (start : Context) : Discipline (List Exchange) where
  protocol := .recording (Accounted start)
  Stands := start.StandsAt
  mayStop _ _ h := accounted_of_stands h
  -- A sleep of no time begins with the look, and goes no further.
  checkpoint := Action.keepsTo_recording isMade_sleep (fun h => ⟨_, (h.bind _).bind _⟩)
    fun h => ⟨.ok .unit, (h.bind _).bind _⟩
  log level text := Action.keepsTo_recording (.inl ⟨level, text, rfl⟩) (fun h => ⟨_, h.bind _⟩)
    fun h => ⟨.ok .unit, h.bind _⟩
  perform {limit name args _} h := Action.keepsTo_recording (.inr ⟨limit, name, args, h⟩)
    (fun h => ⟨_, h⟩) fun h => ⟨_, h⟩

/-- **What the thread of a script exchanges is accounted for by commands.** -/
theorem scriptThread_accounted {config : Config} {id : RunId} {script : String} {t : Thread Unit}
    (h : (Session.scriptThread config id script).Goes xs t) :
    Accounted (.fresh id config.logLimitPerFrame.toNat) xs := by
  set start := Context.fresh id config.logLimitPerFrame.toNat
  have hleave {xs : List Exchange} {x : Exchange} (hxs : Accounted start xs)
      (hx : x.request.isParting = true) : Accounted start (xs ++ [x]) := by
    obtain ⟨commands, command, hmade, hunderway⟩ := hxs
    exact ⟨commands, command, hmade, hunderway.parting hx⟩
  have hbegin : start.StandsAt .free [] start := ⟨[], by simp, .nil⟩
  suffices (Session.scriptThread config id script).Follows (.recording (Accounted start))
      (fun xs _ => Accounted start xs) [] from this.good h
  refine Thread.Follows.bind (Q := fun xs _ => Accounted start xs) ?_ fun xs x hxs =>
    .ask hxs fun _ => .done (hleave hxs rfl)
  simp only [Script.run]
  split
  · exact .done (accounted_of_stands hbegin)
  next p _ =>
    refine Thread.Follows.bind (Script.Program.run_follows (.recording start) p.simplify _ hbegin) ?_
    rintro xs ⟨ending, c⟩ hxs
    have hall : Accounted start xs := accounted_of_stands hxs
    cases ending with
    | completed => exact .done hall
    | failed e => exact .ask hall fun _ => .done (hleave hall rfl)

end Script

/-- **The exchanges of every run of every history are accounted for by commands.** -/
theorem System.Begun.accounted {config : Config} {platform : Platform} {ms : List Move} {r : RunId}
    {script : String} (h : System.Begun config platform ms r script) :
    Accounted (.fresh r config.logLimitPerFrame.toNat)
      ((System.ofConfig config platform).exchanges r ms) := by
  obtain ⟨t, -, hgoes⟩ := h.goes
  exact scriptThread_accounted hgoes

/-- What such exchanges tell of: what the commands tell that were carried out, and perhaps what the one
tells that the run is at. -/
theorem Accounted.notices (h : Accounted start xs) :
    ∃ commands command ys c, (∀ c ∈ command :: commands, c.IsMade) ∧ CarriesOut start commands ys c ∧
      (notices xs = FilterScript.notices ys ∨
        notices xs = FilterScript.notices ys ++ command.notices c) := by
  obtain ⟨commands, command, hmade, @⟨ys, zs, ws, c, t, hcourse, hat, hparting⟩⟩ := h
  have hleaving : FilterScript.notices ws = [] := by
    refine List.filterMap_eq_nil_iff.mpr fun w hw => ?_
    have hw := hparting w hw
    obtain ⟨q, x⟩ := w
    cases q <;> first | rfl | cases hw
  refine ⟨commands, command, ys, c, hmade, hcourse, ?_⟩
  rw [notices_append, notices_append, hleaving, List.append_nil]
  rcases Command.notices_eq_or hat with hnone | hall
  · exact .inl (by rw [hnone, List.append_nil])
  · exact .inr (by rw [hall])

end FilterScript
