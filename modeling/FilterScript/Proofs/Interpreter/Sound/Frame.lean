/-
A frame is delivered.

The clock of the current run is held, whoever is queued is woken, and the clock is advanced
and let go of.  Only the second part has to do with continuations: the queue holds that of
the current run or none, so nobody else is woken.
-/
import FilterScript.Proofs.Interpreter.Sound.Receive

namespace FilterScript

namespace System.Sound

variable {s t : Session} {phase : HostPhase}

/-- The host holds the clock of the current run. -/
theorem hold {moment : Moment} (h : Sound ⟨s, .collecting (.frame moment)⟩)
    (hc : s.interpreter.current ≠ none) :
    Sound ⟨s.onCurrent Link.holdClock, .held moment⟩ := by
  obtain ⟨run, hc⟩ := Option.ne_none_iff_exists'.mp hc
  obtain ⟨w, stage, hw, hconf, hopen, hcancelled, hst⟩ := h.live_worker hc
  have hinterpreter : (s.onCurrent Link.holdClock).interpreter = s.interpreter :=
    Session.interpreter_onCurrent
  have hview := fun r => Session.worker?_onCurrent (s := s) (f := Link.holdClock) (fun _ => rfl) r
  have hid : s.interpreter.current.map (·.id) = some run.id := current?_eq_some hc
  refine h.update run hc (hinterpreter ▸ hc) rfl ?_ ?_ ?_
    (w := w.onLink Link.holdClock) ?_ ⟨stage, hconf, hopen, hcancelled, ?_⟩
    (others_of_eq fun r hr => ?_) (by simp) rfl
  · simp only [Session.newest, hinterpreter]
  · simpa only [hinterpreter] using (h.live run hc).running
  · simp only [Session.queue, hinterpreter]
    exact (h.live run hc).agrees
  · rw [hview, if_pos hid, hw]
    rfl
  · simp only [Session.queue, hinterpreter]
    exact hst.congr rfl rfl rfl id
  · rw [hview, if_neg]
    rw [hid]
    exact fun he => hr (Option.some.inj he).symm

/-- Whoever is queued is woken; that can only be the current run. -/
theorem tick {moment : Moment} (h : Sound ⟨s, .held moment⟩) :
    Sound ⟨s.decide Interpreter.tick, .woken moment s.isAwaited⟩ := by
  obtain ⟨run, hc⟩ := h.exists_current rfl
  obtain ⟨w, stage, hw, hconf, hopen, hcancelled, hst⟩ := h.live_worker hc
  have hview := fun r => Session.worker?_decide (s := s) Interpreter.tick r
  have hqueue : (s.decide Interpreter.tick).queue = [] := by
    simp only [Session.queue, Session.interpreter_decide]
    rfl
  have hlink := Link.wakeAll_eq s.interpreter.tick.2 w.link
  refine h.update run hc ?_ rfl ?_ ?_ ?_
    (w := w.onLink (Link.wakeAll s.interpreter.tick.2)) ?_ ⟨stage, hconf, ?_, ?_, ?_⟩
    ⟨_, fun r _ => hview r⟩ (by simp) rfl
  · rw [Session.interpreter_decide]
    exact hc
  · simp only [Session.newest, Session.interpreter_decide]
    rfl
  · simp only [Session.interpreter_decide]
    exact (h.live run hc).running
  · exact ⟨(h.live run hc).agrees, hqueue⟩
  · rw [hview, hw]
    rfl
  · show (Link.wakeAll s.interpreter.tick.2 w.link).isOpen = true
    rw [hlink]
    exact hopen
  · show (Link.wakeAll s.interpreter.tick.2 w.link).isCancelled = false
    rw [hlink]
    exact hcancelled
  · rw [hqueue]
    -- The signals are those of the queue, which is empty or holds the one continuation.
    have hwakes : s.interpreter.tick.2 = s.queue.map fun c => ⟨c, .frame⟩ := rfl
    show Standing (Link.wakeAll s.interpreter.tick.2 w.link) [] stage
    rw [hwakes]
    cases hst with
    | working hs ms he hq hw => simpa [hq] using .working hs ms he rfl hw
    | unread ms he hq hw => simpa [hq] using .unread ms he rfl hw
    | queued he hq hw => simpa [hq, Link.wake] using .woken he rfl rfl
    | woken he hq hw => simpa [hq] using .woken he rfl hw
    | ended ms o he hq hw ho => simpa [hq] using .ended ms o he rfl hw ho

/-- The clock may be read again, and a run that was woken goes on. -/
theorem release {moment : Moment} {awaited : Bool} (h : Sound ⟨s, .woken moment awaited⟩) :
    Sound ⟨s.release moment awaited, .ready⟩ := by
  obtain ⟨run, hc⟩ := h.exists_current rfl
  obtain ⟨w, stage, hw, hconf, hopen, hcancelled, hst⟩ := h.live_worker hc
  obtain ⟨hsuspended, hempty⟩ := (h.live run hc).agrees
  have hid : s.interpreter.current.map (·.id) = some run.id := current?_eq_some hc
  let f : Link → Link := fun l => (l.advance moment).releaseClock
  have hview : ∀ r, (s.release moment awaited).worker? r =
      if s.interpreter.current.map (·.id) = some r then (s.worker? r).map (·.onLink f)
      else s.worker? r := by
    intro r
    rw [← Session.worker?_onCurrent (f := f) (fun _ => rfl)]
    simp only [Session.release]
    split <;> rfl
  have hi : (s.release moment awaited).interpreter =
      if awaited then s.interpreter.resume else s.interpreter := by
    simp only [Session.release]
    split
    next hb => simp
    next hb => simp
  refine h.update ⟨run.id, false⟩ hc ?_ rfl ?_ ?_ ?_ (w := w.onLink f) ?_
    ⟨stage, hconf, hopen, hcancelled, ?_⟩ (others_of_eq fun r hr => ?_) (by simp) rfl
  · rw [hi]
    cases awaited with
    | true => simp [Interpreter.resume, hc]
    | false =>
        cases run
        cases hsuspended
        exact hc
  · simp only [Session.newest, hi]
    split <;> rfl
  · rw [hi]
    split <;> exact (h.live run hc).running
  · have hqueue : (s.release moment awaited).queue = s.queue := by
      simp only [Session.queue, hi]
      split <;> rfl
    rw [hqueue, hempty]
    rfl
  · rw [hview, if_pos hid, hw]
    rfl
  · have hqueue : (s.release moment awaited).queue = s.queue := by
      simp only [Session.queue, hi]
      split <;> rfl
    rw [hqueue]
    exact hst.congr rfl rfl rfl id
  · rw [hview, if_neg]
    rw [hid]
    exact fun he => hr (Option.some.inj he).symm

end System.Sound

end FilterScript
