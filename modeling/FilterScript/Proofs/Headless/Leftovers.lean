/-
What a run finds of the runs before it.

A headless run may end while its script goes on: the frames are spent, or the script has
stalled.  Then the run is still current when the next one begins, and something that it
said may still be in the outbox.  A transcript is everything that the host hears, from
whichever run, so nothing of this may be left when the next run has begun.

Between two headless runs the outbox holds messages of the current run only, which is
`Tidy`.  Replacing that run clears the outbox, and from then on the host hears of the
newest run only, which is `Alone`.
-/
import FilterScript.Proofs.Headless.Calls
import FilterScript.Proofs.Interpreter.Marks
import FilterScript.Proofs.Interpreter.Output

namespace FilterScript

/-- Whether a call is in no phase but those of the calls with which a headless run takes
its turns. -/
def HostPhase.isTurn : HostPhase → Bool
  | ready => true
  | collecting _ => true
  | held _ => true
  | woken .. => true
  | settling => true
  | _ => false

/-- Whether a call is one with which a headless run takes its turns. -/
def Call.isTurn : Call → Bool
  | settle => true
  | poll => true
  | frame _ => true
  | takeDiagnostics => true
  | _ => false

/-- Whether something is noted of what the host took in or handed out. -/
def Note.isTaken : Note → Bool
  | .collected .. => true
  | .handed _ => true
  | _ => false

namespace Session

/-- Whether the outbox holds messages of the current run only. -/
def Tidy (s : Session) : Prop := ∀ x ∈ s.interpreter.outbox, s.current? = some x.1

/-- Whether nobody but the newest run has anything in the outbox. -/
structure Alone (s : Session) (r : RunId) : Prop where
  newest : s.newest = r
  outbox : ∀ x ∈ s.interpreter.outbox, x.1 = r

theorem Alone.congr {s t : Session} {r : RunId} (h : s.Alone r)
    (hgeneration : t.interpreter.generation = s.interpreter.generation)
    (houtbox : t.interpreter.outbox = s.interpreter.outbox) : t.Alone r :=
  ⟨hgeneration.trans h.newest, houtbox ▸ h.outbox⟩

theorem interpreter_advanceRun {s t : Session} {r : RunId} (h : s.advanceRun r = some t) :
    t.interpreter = s.interpreter := by
  obtain ⟨_, _, _, _, _, hinterpreter, _⟩ := advanceRun_some h
  exact hinterpreter

end Session

namespace System

open Session

variable {config : Config} {H B : List Note} {S T : System} {s t : Session} {phase : HostPhase}
  {r : RunId}

theorem handedOut_stepNotes : handedOut (s.stepNotes r) = [] :=
  handedOut_eq_nil fun _ hbatch => by simpa using of_mem_stepNotes hbatch

theorem handedOut_receiveNotes : handedOut s.receiveNotes = [] := by
  refine handedOut_eq_nil fun batch hbatch => ?_
  obtain ⟨run, o, -, he⟩ := of_mem_receiveNotes hbatch
  cases he

theorem handedOut_failNotes {reason : String} : handedOut (s.failNotes reason) = [] := by
  refine handedOut_eq_nil fun batch hbatch => ?_
  obtain ⟨run, -, he⟩ := of_mem_failNotes hbatch
  cases he

/-! ### The turns of a run

What the host takes in comes from the current run, and that is the newest.
-/

/-- What is new in the outbox is of the current run. -/
theorem Alone.added {run : CurrentRun} (h : s.Alone r) (hS : Sound ⟨s, phase⟩)
    (hc : s.interpreter.current = some run) (ms : List WorkerMessage) :
    ∀ x ∈ s.interpreter.outbox ++ ms.map fun m => (run.id, m), x.1 = r := by
  intro x hx
  rcases List.mem_append.mp hx with hx | hx
  · exact h.outbox x hx
  · obtain ⟨m, -, rfl⟩ := List.mem_map.mp hx
    exact (hS.live run hc).newest.trans h.newest

theorem Alone.ending {run : CurrentRun} {w : Worker} {o : Outcome} (h : s.Alone r)
    (hS : Sound ⟨s, phase⟩) (hc : s.interpreter.current = some run) (hending : s.Ending run w o t) :
    t.Alone r := by
  refine ⟨?_, ?_⟩
  · rw [Session.newest, hending.interpreter, Sound.generation_finish]
    exact h.newest
  · rw [hending.interpreter, Ledger.outbox_finish o hc]
    exact Alone.added h hS hc o.farewell

theorem Alone.receive (h : s.Alone r) (hS : Sound ⟨s, phase⟩) (hp : Sound.isPlain phase = true)
    (hr : s.receive = some t) : t.Alone r := by
  obtain ⟨run, w, stage, hc, -, -, hreceipt⟩ := hS.receipt hp hr
  cases hreceipt with
  | message m rest he hnotes hi hview =>
      refine ⟨?_, ?_⟩
      · rw [Session.newest, hi]
        exact h.newest
      · rw [hi]
        exact Alone.added h hS hc [m]
  | suspend hs he hsignal hnotes hi hview =>
      exact h.congr (by rw [hi]; rfl) (by rw [hi]; rfl)
  | ended o hsent ho hnotes hending => exact Alone.ending h hS hc hending

/-- The host goes on with a call of a turn. -/
theorem Alone.goOn (h : s.Alone r) (hS : Sound ⟨s, phase⟩) (hphase : phase.isTurn = true) :
    (goOn s phase).1.session.Alone r ∧ (goOn s phase).1.phase.isTurn = true ∧
      ∀ x ∈ handedOut (goOn s phase).2, x.1 = r := by
  have hnone : ∀ x ∈ handedOut [], x.1 = r := by
    intro x hx
    cases hx
  cases phase with
  | ready => exact ⟨h, rfl, hnone⟩
  | collecting purpose =>
      cases hr : s.receive with
      | some t =>
          simp only [System.goOn, hr, handedOut_receiveNotes]
          exact ⟨Alone.receive h hS rfl hr, rfl, hnone⟩
      | none =>
          simp only [System.goOn, hr]
          cases purpose with
          | poll =>
              refine ⟨⟨h.newest, by simp [System.run, take]⟩, rfl, ?_⟩
              rw [show handedOut (System.run s .poll).2 = s.interpreter.outbox from
                List.append_nil _]
              exact h.outbox
          | frame moment =>
              simp only [System.run]
              split
              · exact ⟨h, rfl, hnone⟩
              · exact ⟨h.congr (by simp) (by simp), rfl, hnone⟩
  | held moment =>
      refine ⟨h.congr ?_ ?_, rfl, hnone⟩
      · simp only [System.goOn, interpreter_decide]
        rfl
      · simp only [System.goOn, interpreter_decide]
        rfl
  | woken moment awaited =>
      refine ⟨h.congr ?_ ?_, rfl, hnone⟩
      · cases awaited <;> simp [System.goOn, release, Interpreter.resume]
      · cases awaited <;> simp [System.goOn, release, Interpreter.resume]
  | settling =>
      simp only [System.goOn]
      split
      · exact ⟨h, rfl, hnone⟩
      · split
        next t hr =>
          rw [handedOut_receiveNotes]
          exact ⟨Alone.receive h hS rfl hr, rfl, hnone⟩
        · exact ⟨h, rfl, hnone⟩
  | _ => cases hphase

theorem kept_alone (config : Config) (H : List Note) (r : RunId) :
    Kept config H fun B S => S.phase.isTurn = true ∧ S.session.Alone r ∧
      ∀ x ∈ handedOut B, x.1 = r where
  thread hS hP ht := by
    obtain ⟨hphase, halone, hheard⟩ := hP
    have hinterpreter := interpreter_advanceRun ht
    refine ⟨hphase, halone.congr (by rw [hinterpreter]) (by rw [hinterpreter]), ?_⟩
    rw [handedOut_append, handedOut_stepNotes, List.append_nil]
    exact hheard
  wait time hP := ⟨hP.1, hP.2.1.congr rfl rfl, hP.2.2⟩
  host hS hP _ := by
    obtain ⟨hphase, halone, hheard⟩ := hP
    obtain ⟨halone', hphase', hheard'⟩ := Alone.goOn halone hS.sound hphase
    refine ⟨hphase', halone', fun x hx => ?_⟩
    rw [handedOut_append] at hx
    exact (List.mem_append.mp hx).elim (hheard x) (hheard' x)

theorem call_alone {c : Call} (hc : c.isTurn = true) (h : s.Alone r) :
    (call s c).1.phase.isTurn = true ∧ (call s c).1.session.Alone r ∧
      ∀ x ∈ handedOut (call s c).2, x.1 = r := by
  cases c with
  | settle => exact ⟨rfl, h, by simp [call, handedOut]⟩
  | poll => exact ⟨rfl, h, by simp [call, handedOut]⟩
  | frame moment => exact ⟨rfl, h, by simp [call, handedOut]⟩
  | takeDiagnostics => exact ⟨rfl, h.congr rfl rfl, by simp [call, handedOut]⟩
  | _ => cases hc

/-- Throughout a call of a turn the host hears of the newest run only. -/
theorem Called.alone {c : Call} (h : Called c S B T) (hS : Reached config H S)
    (hc : c.isTurn = true) (ha : S.session.Alone r) :
    T.session.Alone r ∧ ∀ x ∈ handedOut B, x.1 = r :=
  ((kept_alone config H r).called h hS (call_alone hc ha)).1.2

/-- Behind a poll the outbox is empty. -/
theorem Called.outbox_poll (h : Called .poll S B T) (hS : Reached config H S) :
    T.session.interpreter.outbox = [] := by
  have hkept : Kept config H fun _ S => S.phase = .collecting .poll ∨
      S.phase = .ready ∧ S.session.interpreter.outbox = [] := by
    refine ⟨fun hS hP ht => ?_, fun time hP => hP, fun {B s phase} hS hP hready => ?_⟩
    · rw [interpreter_advanceRun ht]
      exact hP
    · rcases hP with rfl | ⟨rfl, -⟩
      · cases hr : s.receive with
        | some t => exact Or.inl (by simp only [System.goOn, hr])
        | none => exact Or.inr (by simp only [System.goOn, hr]; exact ⟨rfl, rfl⟩)
      · exact absurd rfl hready
  obtain ⟨hend, hready⟩ := hkept.called h hS (Or.inl rfl)
  rcases hend with hphase | ⟨-, houtbox⟩
  · rw [hready] at hphase
    cases hphase
  · exact houtbox

/-- A call that is over as soon as it has begun, and has nothing to do with the runs. -/
theorem Called.still {c : Call} (h : Called c S B T) (hS : Reached config H S)
    (hc : c.isWidgets = true ∨ c = .takeDiagnostics) :
    T.session.interpreter.current = S.session.interpreter.current ∧
      T.session.interpreter.outbox = S.session.interpreter.outbox := by
  have hkept : Kept config H fun _ U => U.phase = .ready ∧
      U.session.interpreter.current = S.session.interpreter.current ∧
        U.session.interpreter.outbox = S.session.interpreter.outbox := by
    refine ⟨fun hS hP ht => ?_, fun time hP => hP, fun hS hP hready => absurd hP.1 hready⟩
    rw [interpreter_advanceRun ht]
    exact hP
  have hbegin : (call S.session c).1.phase = .ready ∧
      (call S.session c).1.session.interpreter.current = S.session.interpreter.current ∧
        (call S.session c).1.session.interpreter.outbox = S.session.interpreter.outbox := by
    cases c with
    | update name value => exact ⟨rfl, rfl, rfl⟩
    | clearWidgets => exact ⟨rfl, rfl, rfl⟩
    | takeDiagnostics => exact ⟨rfl, rfl, rfl⟩
    | _ => simp [Call.isWidgets] at hc
  exact (hkept.called h hS hbegin).1.2

/-! ### From one run to the next -/

/-- A run that stalls is current, and the outbox is left to it. -/
theorem GivenUp.tidy (h : GivenUp S B T) (hS : Reached config H S) (ha : S.session.Alone r) :
    T.session.Tidy := by
  obtain ⟨ms, ms', hms, hms', hready, hphase, hunsettled, hplay⟩ := h
  have halone := (kept_alone config H r).begun hms hready hS (call_alone (c := .settle) rfl ha)
  have hreached : Reached config (H ++ (S.play (.call .settle :: ms)).2)
      (S.play (.call .settle :: ms)).1 := hS.append ⟨_, rfl⟩
  rw [play_append] at hplay
  generalize S.play (.call .settle :: ms) = X at hphase hunsettled hplay halone hreached
  obtain ⟨⟨x, phase⟩, A⟩ := X
  cases hphase
  have htidy : x.Tidy := by
    cases hc : x.interpreter.current with
    | none => simp [isSettled, Interpreter.state, hc] at hunsettled
    | some run =>
        intro m hm
        rw [Sound.current?_eq_some hc, (hreached.sound.live run hc).newest, halone.2.1.newest,
          halone.2.1.outbox m hm]
  have hkept : Kept config (H ++ A) fun _ U => U.phase = .ready ∧ U.session.Tidy := by
    refine ⟨fun hS hP ht => ⟨hP.1, ?_⟩, fun time hP => hP, fun hS hP hready => absurd hP.1 hready⟩
    rw [Tidy, current?, interpreter_advanceRun ht]
    exact hP.2
  have hgiveUp : (System.mk x .settling).step .giveUp = (⟨x, .ready⟩, []) := rfl
  have hrest := hkept.play (B := []) hms' (by simpa [hgiveUp] using hreached.step .giveUp)
    ⟨rfl, htidy⟩
  have hend : (System.play ⟨x, .ready⟩ ms').1 = T := by
    simpa [play, hgiveUp] using congrArg Prod.fst hplay
  rw [hend] at hrest
  exact hrest.2

/-- So is one that was cut off; one that has ended leaves nothing. -/
theorem Turns.tidy {a : Allowance} {delivered : Nat} {said : List WorkerMessage}
    {result : Except Stall Transcript} (h : Turns a delivered said S result B T)
    (hS : Reached config H S) (ha : S.session.Alone r) : T.session.Tidy := by
  induction h generalizing H with
  | stall hsettle => exact hsettle.tidy hS ha
  | last hsettle hpoll hend hdiagnostics =>
      have hsettled := hS.append hsettle.exists_play
      have hpolled := hsettled.append hpoll.exists_play
      intro x hx
      rw [(hdiagnostics.still hpolled (Or.inr rfl)).2, hpoll.outbox_poll hsettled] at hx
      cases hx
  | frame moment hsettle hpoll hgoes hleft hframe hrest ih =>
      have hsettled := hS.append hsettle.exists_play
      have hpolled := hsettled.append hpoll.exists_play
      have halone := (hsettle.alone hS rfl ha).1
      exact ih (hpolled.append hframe.exists_play)
        (hframe.alone hpolled rfl (hpoll.alone hsettled rfl halone).1).1

theorem quiet_stepNotes {r : RunId} : ∀ n ∈ s.stepNotes r, n.isTaken = false := by
  intro n hn
  rcases of_mem_stepNotes hn with ⟨_, rfl⟩ | rfl | ⟨_, rfl⟩ | ⟨_, rfl⟩ <;> rfl

/-- What is noted when the next run begins: why there is no thread for it, if there is none. -/
def refusalNotes (s : Session) : List Note :=
  s.refusal?.toList.map fun reason => .refused (s.newest + 1) reason

theorem quiet_refusalNotes : ∀ n ∈ refusalNotes s, n.isTaken = false := by
  intro n hn
  obtain ⟨reason, -, rfl⟩ := List.mem_map.mp hn
  rfl

/-- The host has brought its interpreter to `i` and done nothing else; `B` is what was noted since. -/
structure Replacing (s : Session) (i : Interpreter) (B : List Note) (t : Session) : Prop where
  interpreter : t.interpreter = i
  platform : t.platform = s.platform
  values : ∀ name, t.surroundings.widgets.value? name = s.surroundings.widgets.value? name
  quiet : ∀ n ∈ B, n.isTaken = false

namespace Replacing

variable {i : Interpreter} {u : Session}

theorem thread (h : Replacing s i B t) (ht : t.advanceRun r = some u) :
    Replacing s i (B ++ t.stepNotes r) u where
  interpreter := (interpreter_advanceRun ht).trans h.interpreter
  platform := (platform_advanceRun ht).trans h.platform
  values name := (value?_advanceRun ht name).trans (h.values name)
  quiet n hn := (List.mem_append.mp hn).elim (h.quiet n) (quiet_stepNotes n)

theorem wait (h : Replacing s i B t) (time : Duration) : Replacing s i B (t.wait time) :=
  ⟨h.interpreter, h.platform, h.values, h.quiet⟩

/-- The host tells the last run that it is replaced. -/
theorem flag (s : Session) : Replacing s s.interpreter s.abandonNotes s.flag where
  interpreter := by simp only [Session.flag, interpreter_onCurrent]
  platform := by simp only [Session.flag, platform_onCurrent]
  values := by simp only [Session.flag, surroundings_onCurrent, implies_true]
  quiet n hn := by
    obtain ⟨run, -, rfl⟩ := of_mem_abandonNotes hn
    rfl

/-- The host lets go of the last run. -/
theorem forget (h : Replacing s s.interpreter B t) :
    Replacing s s.interpreter.supersede B t.forget where
  interpreter := by rw [interpreter_forget, h.interpreter]
  platform := by simpa only [Session.forget, platform_onCurrent] using h.platform
  values := by simpa only [Session.forget, surroundings_onCurrent] using h.values
  quiet := h.quiet

end Replacing

/-- The host has replaced the last run and done nothing else; `B` is what was noted since. -/
abbrev Replaced (s : Session) (B : List Note) (t : Session) : Prop :=
  Replacing s s.interpreter.supersede B t

theorem Replaced.newest (h : Replaced s B t) : t.newest = s.newest := by
  rw [Session.newest, h.interpreter, Sound.generation_supersede]
  rfl

theorem Replaced.refusal?_eq (h : Replaced s B t) : t.refusal? = s.refusal? := by
  have hconfig : s.interpreter.supersede.config = s.interpreter.config := by
    rw [Interpreter.supersede]
    split <;> rfl
  rw [refusal?, refusal?, h.platform, h.interpreter, hconfig, Sound.generation_supersede]

/-- How far the host is with a call that starts a script, when it was at `s` before; `Q` holds from
the beginning of the run on. -/
inductive Starting (s : Session) (script : String) (moment : Moment)
    (Q : List Note → Session → Prop) (B : List Note) : System → Prop where
  | flagged {t : Session} (h : Replacing s s.interpreter B t) :
      Starting s script moment Q B ⟨t, .flagged script moment⟩
  | cleared {t : Session} (h : Replaced s B t) :
      Starting s script moment Q B ⟨t, .cleared script moment⟩
  | refused {t : Session} (reason : String) (hrefused : s.refusal? = some reason) (hq : Q B t) :
      Starting s script moment Q B ⟨t, .refused reason⟩
  | begun {t : Session} (hq : Q B t) : Starting s script moment Q B ⟨t, .ready⟩

/-- A run begins: whatever holds when the host has replaced the last run, is kept by
threads and by time, and by the end of a run that got no thread, holds behind the call. -/
theorem Called.begins {script : String} {moment : Moment} {Q : List Note → Session → Prop}
    (h : Called (.start script moment) S B T) (hS : Reached config H S)
    (hbegin : ∀ {B s}, Reached config (H ++ B) ⟨s, .cleared script moment⟩ →
      Replaced S.session B s → Q (B ++ refusalNotes s) (s.begin script moment))
    (hfail : ∀ {B s reason}, S.session.refusal? = some reason →
      Reached config (H ++ B) ⟨s, .refused reason⟩ → Q B s →
        Q (B ++ s.failNotes reason) (s.fail reason))
    (hthread : ∀ {B s t phase r}, phase.isFlagged = false → Reached config (H ++ B) ⟨s, phase⟩ →
      Q B s → s.advanceRun r = some t → Q (B ++ s.stepNotes r) t)
    (hwait : ∀ {B s} time, Q B s → Q B (s.wait time)) : Q B T.session := by
  have hkept : Kept config H (Starting S.session script moment Q) := by
    refine ⟨fun {B s t phase r} hS hP ht => ?_, fun time hP => ?_, fun {B s phase} hS hP hready => ?_⟩
    · cases hP with
      | flagged h => exact .flagged (h.thread ht)
      | cleared h => exact .cleared (h.thread ht)
      | refused reason hrefused hq => exact .refused reason hrefused (hthread rfl hS hq ht)
      | begun hq => exact .begun (hthread rfl hS hq ht)
    · cases hP with
      | flagged h => exact .flagged (h.wait time)
      | cleared h => exact .cleared (h.wait time)
      | refused reason hrefused hq => exact .refused reason hrefused (hwait time hq)
      | begun hq => exact .begun (hwait time hq)
    · cases hP with
      | flagged h =>
          rw [goOn, List.append_nil]
          exact .cleared h.forget
      | cleared h =>
          have hq := hbegin hS h
          have hrefusal := h.refusal?_eq
          unfold refusalNotes at hq
          cases hr : s.refusal? with
          | none =>
              simp only [goOn, hr]
              exact .begun (by simpa [hr] using hq)
          | some reason =>
              simp only [goOn, hr]
              exact .refused reason (hrefusal.symm.trans hr) (by simpa [hr, Session.newest] using hq)
      | refused reason hrefused hq => exact .begun (hfail hrefused hS hq)
      | begun hq => exact absurd rfl hready
  obtain ⟨u, phase⟩ := T
  obtain ⟨hend, hready⟩ := hkept.called h hS (.flagged (.flag S.session))
  cases hend with
  | begun hq => exact hq
  | _ => cases hready

/-- A tidy host that replaces its run keeps nothing: the outbox was that of the run. -/
theorem outbox_supersede (htidy : s.Tidy) : s.interpreter.supersede.outbox = [] := by
  rw [Interpreter.supersede]
  cases hc : s.interpreter.current with
  | none =>
      refine List.eq_nil_iff_forall_not_mem.mpr fun x hx => ?_
      have hx' := htidy x hx
      simp [current?, hc] at hx'
  | some run =>
      refine List.filter_eq_nil_iff.mpr fun x hx => ?_
      have hx' := htidy x hx
      simp only [current?, hc, Option.map_some, Option.some.injEq] at hx'
      simp [hx']

/-- When a run begins nothing of the others is left. -/
theorem alone_begin {script : String} {moment : Moment} (h : s.interpreter.outbox = []) :
    (s.begin script moment).Alone (s.newest + 1) := by
  refine ⟨?_, ?_⟩
  · rw [Session.newest, interpreter_begin]
    rfl
  · rw [interpreter_begin]
    intro x hx
    rw [show s.interpreter.start.1.outbox = [] from h] at hx
    cases hx

/-- A run that got no thread is alone with its error. -/
theorem Alone.fail {reason : String} (h : s.Alone r) (hS : Sound ⟨s, .refused reason⟩) :
    (s.fail reason).Alone r := by
  obtain ⟨run, w, hc, -, -, -, -, hending⟩ := hS.failure
  exact Alone.ending h hS hc hending

/-- When the call that starts a run is over the run is alone. -/
theorem Called.alone_start {script : String} {moment : Moment}
    (h : Called (.start script moment) S B T) (hS : Reached config H S) (htidy : S.session.Tidy) :
    T.session.Alone (S.session.newest + 1) := by
  refine h.begins (Q := fun _ s => s.Alone (S.session.newest + 1)) hS ?_ ?_ ?_ ?_
  · intro B s hR hreplaced
    exact hreplaced.newest ▸ alone_begin (by rw [hreplaced.interpreter, outbox_supersede htidy])
  · exact fun _ hR hq => Alone.fail hq hR.sound
  · exact fun _ _ hq ht => hq.congr (by rw [interpreter_advanceRun ht])
      (by rw [interpreter_advanceRun ht])
  · exact fun _ hq => hq.congr rfl rfl

/-- **Between its runs the host keeps messages of the current run only.** -/
theorem HostHistory.tidy (h : HostHistory config H S) : S.session.Tidy := by
  induction h with
  | fresh platform =>
      intro x hx
      cases hx
  | send h hc hcall ih =>
      obtain ⟨hcurrent, houtbox⟩ := hcall.still h.reached (Or.inl hc)
      rw [Tidy, current?, hcurrent, houtbox]
      exact ih
  | run h hrun ih =>
      obtain ⟨moment, S₁, B₁, B₂, hstart, hturns, rfl⟩ := hrun
      exact hturns.tidy (h.reached.append hstart.exists_play) (hstart.alone_start h.reached ih)

end System

end FilterScript
