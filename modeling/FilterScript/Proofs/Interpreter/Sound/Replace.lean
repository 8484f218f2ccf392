/-
A run is replaced, or its host goes away.

The host tells the current run and lets go of it; then it makes the next one current, or
stops to serve anybody.  Behind the first part the run knows no more than before, and the
invariant only says that it was told; behind the second it is by-gone, and its continuation
may still be queued; with the third whoever is queued is rejected.
-/
import FilterScript.Proofs.Interpreter.Sound.Basic

namespace FilterScript

namespace System.Sound

variable {s t : Session} {phase : HostPhase}

/-- Telling the current run that it is replaced, or that the host goes away. -/
theorem flag {phase' : HostPhase} (h : Sound ⟨s, .ready⟩) (hflagged : phase'.isFlagged = true)
    (hagrees : ∀ b q, phase'.Agrees b q ↔ b = !q.isEmpty) (hvacant : phase'.isVacant = false)
    (hoccupied : phase'.isOccupied = false) : Sound ⟨s.flag, phase'⟩ := by
  have hinterpreter : s.flag.interpreter = s.interpreter := Session.interpreter_onCurrent
  have hview : ∀ r, s.flag.worker? r =
      if s.current? = some r then (s.worker? r).map (·.onLink Link.cancel) else s.worker? r :=
    Session.worker?_onCurrent Session.keepsRun_cancel
  refine ⟨?_, ?_, ?_, ?_, ?_, ?_, fun reason hp => ?_⟩
  · intro r w hw
    simp only [Session.newest, hinterpreter]
    rw [hview] at hw
    split at hw
    · rw [Option.map_eq_some_iff] at hw
      obtain ⟨v, hv, -⟩ := hw
      exact h.known r v hv
    · exact h.known r w hw
  · intro run hc
    rw [hinterpreter] at hc
    obtain ⟨w, stage, hw, hconf, hopen, -, hst⟩ := h.live_worker hc
    refine ⟨?_, ?_, ?_, w.onLink Link.cancel, stage, ?_, hconf, hopen, hflagged.symm, ?_⟩
    · simpa only [Session.newest, hinterpreter] using (h.live run hc).newest
    · simpa only [hinterpreter] using (h.live run hc).running
    · rw [hagrees]
      simp only [Session.queue, hinterpreter]
      exact (h.live run hc).agrees
    · rw [hview, if_pos (current?_eq_some hc), hw]
      rfl
    · simp only [Session.queue, hinterpreter]
      exact hst.congr rfl rfl rfl fun _ => rfl
  · intro r w hw hne
    rw [show s.flag.current? = s.current? by simp only [Session.current?, hinterpreter]] at hne
    rw [hview, if_neg hne] at hw
    exact h.bygone r w hw hne
  · intro hc _
    simp only [Session.queue, hinterpreter]
    exact h.queue (hinterpreter ▸ hc) rfl
  · simp [hvacant]
  · simp [hoccupied]
  · rw [show phase' = .refused reason from hp] at hoccupied
    cases hoccupied

theorem current_supersede (i : Interpreter) : i.supersede.current = none := by
  simp only [Interpreter.supersede]
  split
  · assumption
  · rfl

theorem generation_supersede (i : Interpreter) : i.supersede.generation = i.generation := by
  simp only [Interpreter.supersede]
  split <;> rfl

/-- Letting go of the current run, which was told before. -/
theorem letGo {phase' : HostPhase} (h : Sound ⟨s, phase⟩) (hflagged : phase.isFlagged = true)
    (hcurrent : t.interpreter.current = none) (hnewest : t.newest = s.newest)
    (hview : ∀ r, t.worker? r =
      if s.current? = some r then (s.worker? r).map (·.onLink Link.shut) else s.worker? r)
    (hcleared : phase'.isCleared = true) (hoccupied : phase'.isOccupied = false) :
    Sound ⟨t, phase'⟩ := by
  refine ⟨?_, ?_, ?_, ?_, fun _ => hcurrent, by simp [hoccupied], fun reason hp => ?_⟩
  · intro r w hw
    rw [hnewest]
    rw [hview] at hw
    split at hw
    · obtain ⟨v, hv, -⟩ := Option.map_eq_some_iff.mp hw
      exact h.known r v hv
    · exact h.known r w hw
  · intro run hc
    rw [hcurrent] at hc
    cases hc
  · intro r w hw _
    rw [hview] at hw
    split at hw
    next hr =>
      obtain ⟨run, hc, hid⟩ := Option.map_eq_some_iff.mp hr
      subst hid
      obtain ⟨v, stage, hv, hconf, -, hcancelled, -⟩ := h.live_worker hc
      rw [hv] at hw
      cases hw
      exact ⟨⟨stage, hconf, Or.inl (hcancelled.trans hflagged)⟩, rfl, rfl⟩
    next hne => exact h.bygone r w hw hne
  · intro _ hp
    rw [hcleared] at hp
    cases hp
  · rw [show phase' = .refused reason from hp] at hcleared
    cases hcleared

/-- The run that was replaced is forgotten. -/
theorem forget {script : String} {moment : Moment} (h : Sound ⟨s, .flagged script moment⟩) :
    Sound ⟨s.forget, .cleared script moment⟩ := by
  refine h.letGo rfl ?_ ?_ Session.worker?_forget rfl rfl
  · rw [Session.interpreter_forget, current_supersede]
  · simp only [Session.newest, Session.interpreter_forget, generation_supersede]

/-- The host that goes away lets go of the current run. -/
theorem vacate (h : Sound ⟨s, .leaving⟩) : Sound ⟨s.leave, .left⟩ := by
  refine h.letGo rfl ?_ ?_ Session.worker?_leave rfl rfl
  · rw [Session.interpreter_leave]
    rfl
  · simp only [Session.newest, Session.interpreter_leave]
    rfl

/-- The next run becomes current, with a thread or without one, and whoever still waits is
rejected. -/
theorem begin {script : String} {moment : Moment} {phase' : HostPhase}
    (h : Sound ⟨s, .cleared script moment⟩) (hflagged : phase'.isFlagged = false)
    (hagrees : phase'.Agrees false []) (hvacant : phase'.isVacant = false)
    (hrefused : ∀ reason, phase' = .refused reason → s.refusal? = some reason) :
    Sound ⟨s.begin script moment, phase'⟩ := by
  have hcurrent : s.interpreter.current = none := h.vacant rfl
  have hnewest : (s.begin script moment).newest = s.newest + 1 := by
    simp only [Session.newest, Session.interpreter_begin]
    rfl
  have hlive : (s.begin script moment).interpreter.current = some ⟨s.newest + 1, false⟩ := by
    rw [Session.interpreter_begin]
    rfl
  have hqueue : (s.begin script moment).queue = [] := by
    simp only [Session.queue, Session.interpreter_begin]
    rfl
  have hself : (s.begin script moment).worker? (s.newest + 1) = some (s.beginner script moment) :=
    (Session.worker?_begin script moment _).trans (if_pos rfl)
  refine ⟨?_, ?_, ?_, ?_, ?_, fun _ hc => ?_, fun reason hp => ?_⟩
  · intro r w hw
    rw [hnewest]
    rw [Session.worker?_begin] at hw
    split at hw
    next hr => exact Nat.le_of_eq hr
    · obtain ⟨v, hv, -⟩ := Option.map_eq_some_iff.mp hw
      exact Nat.le_succ_of_le (h.known r v hv)
  · intro run hc
    rw [hlive] at hc
    cases hc
    refine ⟨hnewest.symm, ?_, hqueue ▸ hagrees, s.beginner script moment, .free, hself, ?_, rfl,
      hflagged.symm, .working (Or.inl rfl) [] rfl hqueue rfl⟩
    · rw [Session.interpreter_begin]
      rfl
    · unfold Session.beginner
      dsimp only
      split
      · exact .crash rfl
      · exact Session.scriptThread_conforms _ _ _
  · intro r w hw hne
    rw [Session.worker?_begin] at hw
    split at hw
    next hr =>
      subst hr
      exact absurd (current?_eq_some hlive) hne
    · obtain ⟨v, hv, rfl⟩ := Option.map_eq_some_iff.mp hw
      exact (h.bygone r v hv (by simp [Session.current?, hcurrent])).wakeAll s.interpreter.start.2
  · intro hc _
    rw [hlive] at hc
    cases hc
  · simp [hvacant]
  · rw [hlive] at hc
    cases hc
  · exact ⟨s.beginner script moment, hnewest ▸ hself,
      Session.thread_beginner_of_refused (hrefused reason hp) script moment, rfl⟩

/-- Nobody is served any longer, and whoever still waits is rejected. -/
theorem stop (h : Sound ⟨s, .left⟩) : Sound ⟨s.decide Interpreter.stop, .closed⟩ := by
  have hcurrent : (s.decide Interpreter.stop).interpreter.current = none := by
    rw [Session.interpreter_decide]
    exact h.vacant rfl
  refine ⟨?_, ?_, ?_, fun _ _ => ?_, fun _ => hcurrent, nofun, nofun⟩
  · intro r w hw
    rw [show (s.decide Interpreter.stop).newest = s.newest by
      simp only [Session.newest, Session.interpreter_decide]
      rfl]
    rw [Session.worker?_decide] at hw
    obtain ⟨v, hv, -⟩ := Option.map_eq_some_iff.mp hw
    exact h.known r v hv
  · intro run hc
    rw [hcurrent] at hc
    cases hc
  · intro r w hw _
    rw [Session.worker?_decide] at hw
    obtain ⟨v, hv, rfl⟩ := Option.map_eq_some_iff.mp hw
    exact (h.bygone r v hv (by
      simp [Session.current?, show s.interpreter.current = none from h.vacant rfl])).wakeAll _
  · simp only [Session.queue, Session.interpreter_decide]
    rfl

end System.Sound

end FilterScript
