/-
A described script keeps its pace, whatever the schedule.

`Pace` adds to the place of a run in its behaviour what the host knows of it: nobody has
replaced it, it is alone in the outbox, and the widgets have the values that its script
was described for.  Neither the threads of older runs nor the passing of time nor what
the host takes in changes any of this, and a frame takes a run that waits for it one
segment farther.
-/
import FilterScript.Proofs.Headless.Along
import FilterScript.Proofs.Headless.Leftovers

namespace FilterScript

/-- A run that nobody has replaced, alone with its host, with the widgets that its script
was described for, after so many frames. -/
structure Pace (c : Course) (r : RunId) (n : Nat) (H : List Note) (s : Session) : Prop where
  alone : s.Alone r
  values : ∀ name, s.surroundings.widgets.value? name = c.value? name
  kept : .abandoned r ∉ H
  along : ∃ w, s.worker? r = some w ∧ Along c r H w n

namespace Pace

open Session FilterScript.System

variable {config : Config} {c : Course} {r : RunId} {n : Nat} {H B : List Note} {s t : Session}
  {phase : HostPhase}

theorem congr (h : Pace c r n H s) (halone : t.Alone r)
    (hwidgets : t.surroundings.widgets = s.surroundings.widgets)
    (hworker : ∀ w, s.worker? r = some w → ∃ w', t.worker? r = some w' ∧ w'.thread = w.thread ∧
      (w'.link.signal = w.link.signal ∨ w.thread = .crash ∨
        w.thread.Conforms Stage.isOver .ended))
    (hB : ∀ n ∈ B, n.isBy r = false) (hkept : .abandoned r ∉ B) : Pace c r n (H ++ B) t := by
  obtain ⟨w, hw, halong⟩ := h.along
  obtain ⟨w', hw', hthread, hsignal⟩ := hworker w hw
  refine ⟨halone, fun name => ?_, fun ha => ?_, w', hw', halong.congr hthread hsignal hB⟩
  · rw [hwidgets]
    exact h.values name
  · exact (List.mem_append.mp ha).elim h.kept hkept

/-- The host looks after other things. -/
theorem other (h : Pace c r n H s) (halone : t.Alone r) (hworkers : t.workers = s.workers)
    (hwidgets : t.surroundings.widgets = s.surroundings.widgets) : Pace c r n H t := by
  have hsame : ∀ w, s.worker? r = some w → t.worker? r = some w := by
    intro w hw
    rw [worker?, hworkers]
    exact hw
  rw [← List.append_nil H]
  exact h.congr halone hwidgets (fun w hw => ⟨w, hsame w hw, rfl, Or.inl rfl⟩) (by simp) (by simp)

/-- The host changes the clock of the run. -/
theorem clock {f : Link → Link} (h : Pace c r n H s) (hf : Link.KeepsRun f)
    (hsignal : ∀ l, (f l).signal = l.signal) : Pace c r n H (s.onCurrent f) := by
  rw [← List.append_nil H]
  refine h.congr (h.alone.congr (by simp) (by simp)) (by simp) (fun w hw => ?_) (by simp) (by simp)
  rw [worker?_onCurrent hf, hw]
  split
  · exact ⟨w.onLink f, rfl, rfl, Or.inl (hsignal _)⟩
  · exact ⟨w, rfl, rfl, Or.inl rfl⟩

/-- **A step of any thread.** -/
theorem thread {r' : RunId} (h : Pace c r n H s) (hS : Reached config H ⟨s, phase⟩)
    (hflagged : phase.isFlagged = false) (hs : s.advanceRun r' = some t) :
    Pace c r n (H ++ s.stepNotes r') t := by
  have hinterpreter := interpreter_advanceRun hs
  obtain ⟨v, u, l, hv, hstep, -, hview⟩ := advanceRun_some hs
  obtain ⟨w, hw, halong⟩ := h.along
  refine ⟨h.alone.congr (by rw [hinterpreter]) (by rw [hinterpreter]), fun name => ?_, ?_, ?_⟩
  · rw [value?_advanceRun hs]
    exact h.values name
  · intro ha
    rcases List.mem_append.mp ha with ha | ha
    · exact h.kept ha
    · simpa using of_mem_stepNotes ha
  by_cases hr : r = r'
  · subst hr
    obtain rfl : w = v := Option.some.inj (hw.symm.trans hv)
    refine ⟨⟨l, u⟩, (hview r).trans (if_pos rfl), ?_⟩
    by_cases hc : s.current? = some r
    · obtain ⟨run, hrun, rfl⟩ := Option.map_eq_some_iff.mp hc
      obtain ⟨v, stage, hv', hconf, hopen, hcancelled, hst⟩ := hS.sound.live_worker hrun
      cases hw.symm.trans hv'
      exact halong.step hw hconf hst hopen (hcancelled.trans hflagged) h.values hstep
    · -- A run that is not current was not replaced, so its end was taken in.
      have hnone : w.thread.step s.isQueued w.link s.surroundings = none := by
        have hstarted : s.worker? r ≠ none := by simp [hw]
        rcases (hS.ledger.books r).settled hstarted hc with ⟨o, ho⟩ | ha
        · rcases hS.reported_or_crash ho with hreported | ⟨w', hw', hcrash⟩
          · exact halong.step_eq_none_of_reported hreported
          · cases hw.symm.trans hw'
            rw [hcrash]
            rfl
        · exact absurd ha h.kept
      rw [hnone] at hstep
      cases hstep
  · exact ⟨w, ((hview r).trans (if_neg hr)).trans hw,
      halong.congr rfl (Or.inl rfl) (Sound.isBy_stepNotes (Ne.symm hr))⟩

/-- Whatever the host takes in. -/
theorem receive (h : Pace c r n H s) (hS : Sound ⟨s, phase⟩) (hp : Sound.isPlain phase = true)
    (hr : s.receive = some t) : Pace c r n (H ++ s.receiveNotes) t := by
  have halone := Alone.receive h.alone hS hp hr
  have hwidgets : t.surroundings.widgets = s.surroundings.widgets := by
    obtain ⟨run, w, -, -, ⟨e, rest, -, rfl⟩ | ⟨-, -, rfl⟩⟩ := receive_some hr <;> simp
  obtain ⟨run, w, stage, hc, hw, hconf, hreceipt⟩ := hS.receipt hp hr
  obtain rfl : run.id = r := (hS.live run hc).newest.trans h.alone.newest
  refine h.congr halone hwidgets (fun v hv => ?_) Sound.isBy_receiveNotes fun ha => ?_
  · cases hw.symm.trans hv
    cases hreceipt with
    | message m rest he hnotes hi hview =>
        exact ⟨_, (hview run.id).trans (if_pos rfl), rfl, Or.inl rfl⟩
    | suspend hs he hsignal hnotes hi hview =>
        exact ⟨_, (hview run.id).trans (if_pos rfl), rfl, Or.inl rfl⟩
    | ended o hsent ho hnotes hending =>
        refine ⟨_, (hending.worker run.id).trans (if_pos rfl), rfl, Or.inr ?_⟩
        rcases hsent with ⟨-, rfl⟩ | ⟨-, hcrash, -⟩
        · exact Or.inr hconf
        · exact Or.inl hcrash
  · obtain ⟨run, o, -, he⟩ := of_mem_receiveNotes ha
    cases he

end Pace

/-! ### A run that waits for a frame -/

namespace System.Sound

open Session

variable {s t : Session} {phase : HostPhase}

/-- When the host knows that the current run waits for a frame, it has heard everything
from it and holds its continuation. -/
theorem asleep (h : Sound ⟨s, phase⟩) (hphase : ∀ b q, phase.Agrees b q → b = !q.isEmpty)
    (hs : s.interpreter.state = .suspended) :
    ∃ run w k, s.interpreter.current = some run ∧ s.worker? run.id = some w ∧
      w.thread = .ask .await k ∧ w.link.events = [] ∧ s.queue = [w.link.continuation] ∧
        w.link.signal = none := by
  cases hc : s.interpreter.current with
  | none => simp [Interpreter.state, hc] at hs
  | some run =>
      obtain ⟨w, stage, hw, hconf, -, -, hst⟩ := h.live_worker hc
      have hsuspended : run.isSuspended = true := by
        cases hb : run.isSuspended with
        | true => rfl
        | false => simp [Interpreter.state, hc, hb] at hs
      have hqueue : s.queue ≠ [] := by
        have hagrees := hphase _ _ (h.live run hc).agrees
        intro hempty
        simp [hsuspended, hempty] at hagrees
      cases hst with
      | queued he hq hsignal =>
          cases hthread : w.thread with
          | ask q k =>
              rw [hthread] at hconf
              cases Standing.eq_await_of_allows hconf.of_ask.1
              exact ⟨run, w, k, rfl, hw, hthread, he, hq, hsignal⟩
          | done u =>
              rw [hthread] at hconf
              cases hconf with
              | done hover => cases hover
          | crash =>
              rw [hthread] at hconf
              cases hconf with
              | crash hs => cases hs
          | spin =>
              rw [hthread] at hconf
              cases hconf with
              | spin hs => cases hs
      | working hs' ms he hq => exact absurd hq hqueue
      | unread ms he hq => exact absurd hq hqueue
      | woken he hq => exact absurd hq hqueue
      | ended ms o he hq => exact absurd hq hqueue

end System.Sound

/-- A frame wakes the run that waits for it. -/
theorem Pace.tick {c : Course} {r : RunId} {n : Nat} {H : List Note} {s : Session}
    {moment : Moment} (h : Pace c r n H s) (hS : System.Sound ⟨s, .held moment⟩)
    (hs : s.interpreter.state = .suspended) : Pace c r (n + 1) H (s.decide Interpreter.tick) := by
  obtain ⟨run, w, k, hc, hw, hthread, -, hqueue, hsignal⟩ := hS.asleep (fun _ _ => id) hs
  obtain rfl : run.id = r := (hS.live run hc).newest.trans h.alone.newest
  obtain ⟨v, hv, halong⟩ := h.along
  cases hw.symm.trans hv
  obtain ⟨hhalts, hposted, hsilent⟩ := halong.of_waiting hthread hsignal
  refine ⟨h.alone.congr ?_ ?_, fun name => ?_, h.kept,
    w.onLink (Link.wakeAll s.interpreter.tick.2), ?_, ?_⟩
  · rw [Session.interpreter_decide]
    rfl
  · rw [Session.interpreter_decide]
    rfl
  · rw [Session.surroundings_decide]
    exact h.values name
  · rw [Session.worker?_decide, hw]
    rfl
  · refine .woken k hthread hhalts hposted hsilent ?_
    have hwakes : s.interpreter.tick.2 = s.queue.map fun c => ⟨c, .frame⟩ := rfl
    show (Link.wakeAll s.interpreter.tick.2 w.link).signal = some .frame
    simp [hwakes, hqueue, Link.wakeAll, Link.wake]

end FilterScript
