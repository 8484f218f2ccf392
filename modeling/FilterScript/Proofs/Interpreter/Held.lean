/-
The clock of a run is held only while a frame is delivered to it.

A run that reads its clock while the host sets it has to wait.  The host holds the clock
of the current run when it begins to deliver a frame and lets go of it at the end of the
same call, so nobody waits for a clock between two calls.
-/
import FilterScript.Proofs.Interpreter.Sound

namespace FilterScript

/-- Whether a frame is being delivered. -/
def HostPhase.isHolding : HostPhase → Bool
  | held _ => true
  | woken .. => true
  | _ => false

namespace System

/-- Whether no clock is held but that of the current run, and that only while a frame is
delivered. -/
def Timely (S : System) : Prop :=
  ∀ r w, S.session.worker? r = some w → w.link.isClockHeld = true →
    S.phase.isHolding = true ∧ S.session.current? = some r

variable {S T : System} {ns : List Note} {s t : Session} {r : RunId} {w' : Worker}

/-- A clock that is held behind a change of a link was held before. -/
theorem held_of_onLink {o : Option Worker} {f : Link → Link}
    (hf : ∀ l, (f l).isClockHeld = l.isClockHeld) (h : o.map (·.onLink f) = some w')
    (hheld : w'.link.isClockHeld = true) : ∃ w, o = some w ∧ w.link.isClockHeld = true := by
  obtain ⟨w, hw, rfl⟩ := Option.map_eq_some_iff.mp h
  exact ⟨w, hw, (hf w.link).symm.trans hheld⟩

theorem isClockHeld_wakeAll (ws : List Wakeup) (l : Link) :
    (Link.wakeAll ws l).isClockHeld = l.isClockHeld := by
  rw [Link.wakeAll_eq]

/-- The same behind a change of the current link. -/
theorem held_of_onCurrent {f : Link → Link} (hkeeps : Link.KeepsRun f)
    (hf : ∀ l, (f l).isClockHeld = l.isClockHeld) (h : (s.onCurrent f).worker? r = some w')
    (hheld : w'.link.isClockHeld = true) :
    ∃ w, s.worker? r = some w ∧ w.link.isClockHeld = true := by
  rw [Session.worker?_onCurrent hkeeps] at h
  split at h
  · exact held_of_onLink hf h hheld
  · exact ⟨w', h, hheld⟩

/-- A run that begins holds no clock. -/
theorem held_of_begin {script : String} {moment : Moment}
    (h : (s.begin script moment).worker? r = some w') (hheld : w'.link.isClockHeld = true) :
    ∃ w, s.worker? r = some w ∧ w.link.isClockHeld = true := by
  rw [Session.worker?_begin] at h
  split at h
  · cases h
    cases hheld
  · exact held_of_onLink (isClockHeld_wakeAll _) h hheld

theorem held_of_ending {run : CurrentRun} {w : Worker} {o : Outcome}
    (hw : s.worker? run.id = some w) (hending : s.Ending run w o t) (h : t.worker? r = some w')
    (hheld : w'.link.isClockHeld = true) :
    ∃ w, s.worker? r = some w ∧ w.link.isClockHeld = true := by
  rw [hending.worker] at h
  split at h
  next hr =>
    cases h
    exact ⟨w, hr ▸ hw, (isClockHeld_wakeAll _ (w.link.remaining [])).symm.trans hheld⟩
  next => exact held_of_onLink (isClockHeld_wakeAll _) h hheld

namespace Timely

/-- Where no frame is delivered before a move that holds no clock, none is held behind
it. -/
theorem of_held (h : Timely S) (hS : S.phase.isHolding = false)
    (hview : ∀ r w', T.session.worker? r = some w' → w'.link.isClockHeld = true →
      ∃ w, S.session.worker? r = some w ∧ w.link.isClockHeld = true) : Timely T := by
  intro r w' hw' hheld
  obtain ⟨w, hw, hheld'⟩ := hview r w' hw' hheld
  rw [(h r w hw hheld').1] at hS
  cases hS

/-- A step of a thread. -/
theorem thread {phase : HostPhase} {r' : RunId} (h : Timely ⟨s, phase⟩)
    (hs : s.advanceRun r' = some t) : Timely ⟨t, phase⟩ := by
  obtain ⟨v, u, l, hv, hstep, hinterpreter, hview⟩ := Session.advanceRun_some hs
  intro r w hw hheld
  rw [show (System.mk t phase).session.current? = s.current? by
    simp only [Session.current?, hinterpreter]]
  rw [hview] at hw
  split at hw
  next hr =>
    subst hr
    cases hw
    exact h r v hv ((Thread.spares_of_step hstep).isClockHeld.symm.trans hheld)
  next => exact h r w hw hheld

/-- The host lets go of the clock that it holds. -/
theorem release {moment : Moment} {awaited : Bool} (h : Timely ⟨s, .woken moment awaited⟩) :
    Timely ⟨s.release moment awaited, .ready⟩ := by
  intro r w hw hheld
  have hview : (s.onCurrent fun l => (l.advance moment).releaseClock).worker? r = some w := by
    rw [← hw]
    cases awaited <;> rfl
  have hkeeps : Link.KeepsRun fun l => (l.advance moment).releaseClock := fun _ => rfl
  rw [Session.worker?_onCurrent hkeeps] at hview
  split at hview
  · obtain ⟨v, -, rfl⟩ := Option.map_eq_some_iff.mp hview
    cases hheld
  next hr => exact absurd (h r w hview hheld).2 hr

/-- Whatever the host takes in. -/
theorem receive {phase : HostPhase} (h : Timely ⟨s, phase⟩) (hS : Sound ⟨s, phase⟩)
    (hp : Sound.isPlain phase = true) (hphase : phase.isHolding = false) (hr : s.receive = some t) :
    Timely ⟨t, phase⟩ := by
  obtain ⟨run, v, stage, -, hv, -, hreceipt⟩ := hS.receipt hp hr
  refine h.of_held hphase fun r w' hw hheld => ?_
  have hread {rest : List RunEvent}
      (hw : (if r = run.id then some (v.onLink (Link.remaining rest)) else s.worker? r) = some w') :
      ∃ w, s.worker? r = some w ∧ w.link.isClockHeld = true := by
    split at hw
    next hid =>
      cases hw
      exact ⟨v, hid ▸ hv, hheld⟩
    next => exact ⟨w', hw, hheld⟩
  cases hreceipt with
  | message m rest he hnotes hi hview => exact hread ((hview r).symm.trans hw)
  | suspend hs he hsignal hnotes hi hview => exact hread ((hview r).symm.trans hw)
  | ended o hsent ho hnotes hending => exact held_of_ending hv hending hw hheld

/-- Every move. -/
theorem moves (h : Timely S) (hS : Sound S) (hm : Moves S ns T) : Timely T := by
  cases hm with
  | thread hs phase => exact h.thread hs
  | release s moment awaited => exact h.release
  | hold s moment hc =>
      intro r w hw hheld
      refine ⟨rfl, ?_⟩
      have hkeeps : Link.KeepsRun Link.holdClock := fun _ => rfl
      rw [Session.worker?_onCurrent hkeeps] at hw
      rw [show (System.mk (s.onCurrent Link.holdClock) (.held moment)).session.current? =
        s.current? by simp only [Session.current?, Session.interpreter_onCurrent]]
      split at hw
      next hr => exact hr
      next => exact (h r w hw hheld).2
  | tick s moment =>
      intro r w hw hheld
      rw [Session.worker?_decide] at hw
      obtain ⟨v, hv, hheld'⟩ := held_of_onLink (isClockHeld_wakeAll _) hw hheld
      refine ⟨rfl, ?_⟩
      simp only [Session.current?, Session.interpreter_decide]
      exact (h r v hv hheld').2
  | flag s script moment =>
      exact h.of_held rfl fun r w' => held_of_onCurrent Session.keepsRun_cancel fun _ => rfl
  | leave s =>
      exact h.of_held rfl fun r w' => held_of_onCurrent Session.keepsRun_cancel fun _ => rfl
  | forget s script moment =>
      exact h.of_held rfl fun r w' => held_of_onCurrent Session.keepsRun_shut fun _ => rfl
  | begin s script moment => exact h.of_held rfl fun r w' => held_of_begin
  | refuse s script moment => exact h.of_held rfl fun r w' => held_of_begin
  | fail s reason =>
      obtain ⟨run, v, -, hv, -, -, -, hending⟩ := hS.failure
      exact h.of_held rfl fun r w' => held_of_ending hv hending
  | @receive s t phase hr hphase =>
      have hphases : Sound.isPlain phase = true ∧ phase.isHolding = false := by
        rcases hphase with ⟨purpose, rfl⟩ | rfl <;> exact ⟨rfl, rfl⟩
      exact h.receive hS hphases.1 hphases.2 hr
  | vacate s =>
      exact h.of_held rfl fun r w' => held_of_onCurrent Session.keepsRun_shut fun _ => rfl
  | stop s =>
      refine h.of_held rfl fun r w' hw hheld => ?_
      rw [Session.worker?_decide] at hw
      exact held_of_onLink (isClockHeld_wakeAll _) hw hheld
  | wait s phase time => exact h
  | _ => exact h.of_held rfl fun r w' hw hheld => ⟨w', hw, hheld⟩

end Timely

/-- **No clock is held between two calls, in any history.** -/
theorem timely_play (config : Config) (platform : Platform) (ms : List Move) :
    Timely ((ofConfig config platform).play ms).1 := by
  have hplay := play_induction (P := fun _ S => Sound S ∧ Timely S)
    (fun hP hm => ⟨hP.1.moves hm, hP.2.moves hP.1 hm⟩) (H := [])
    ⟨sound_ofConfig config platform, fun r w hw => by cases hw⟩ ms
  exact hplay.2

end System

end FilterScript
