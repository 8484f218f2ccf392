/-
Runs that got no thread.

The platform may have no thread for a run.  The host learns that in the middle of the
call that starts the run: the run is current then, and the next part of the call ends
it.  `Unserved` is what holds of such runs at every moment: nobody ever takes a step
for them, and their end is an error that gives the reason, unless the host has not
come to it yet.
-/
import FilterScript.Proofs.Interpreter.Upkeep

namespace FilterScript

namespace System

/-- What holds of the runs that got no thread. -/
structure Unserved (H : List Note) (S : System) : Prop where
  /-- There is nothing that such a run could do. -/
  crash : ∀ {r reason}, .refused r reason ∈ H → ∃ w, S.session.worker? r = some w ∧ w.thread = .crash
  /-- The host knows of the current run why it got no thread. -/
  noted : ∀ {reason}, S.phase = .refused reason →
    ∃ r, S.session.current? = some r ∧ .refused r reason ∈ H
  /-- The host ends it next, or has ended it. -/
  ended : ∀ {r reason}, .refused r reason ∈ H →
    S.phase = .refused reason ∧ S.session.current? = some r ∨
      .collected r (Session.unstartedOutcome reason) ∈ H

theorem unserved_ofConfig (config : Config) (platform : Platform) :
    Unserved [] (ofConfig config platform) := ⟨nofun, nofun, nofun⟩

namespace Unserved

variable {H ns : List Note} {S T : System} {s t : Session}

/-- A thread that has gone away takes no step. -/
theorem advanceRun_of_crash {r : RunId} {w : Worker} (hw : s.worker? r = some w)
    (hcrash : w.thread = .crash) : s.advanceRun r = none := by
  cases hs : s.advanceRun r with
  | none => rfl
  | some t =>
      obtain ⟨v, u, l, hv, hstep, -, -⟩ := Session.advanceRun_some hs
      cases hw.symm.trans hv
      rw [hcrash] at hstep
      cases hstep

/-- Whoever has no thread gets none later. -/
theorem crash_of_moves {r : RunId} {w : Worker} (hS : Sound S) (hm : Moves S ns T)
    (hw : S.session.worker? r = some w) (hcrash : w.thread = .crash) :
    ∃ w', T.session.worker? r = some w' ∧ w'.thread = .crash := by
  rcases hS.upkeep hm hw with ⟨hs, -, -⟩ | ⟨⟨l, hl, -⟩, -⟩
  · rw [advanceRun_of_crash hw hcrash] at hs
    cases hs
  · exact ⟨_, hl, hcrash⟩

/-- A move that is not about a run without a thread. -/
theorem keep (h : Unserved H S) (hS : Sound S) (hm : Moves S ns T)
    (hphase : (∀ reason, S.phase ≠ .refused reason) ∧ (∀ reason, T.phase ≠ .refused reason) ∨
      T.phase = S.phase ∧ T.session.current? = S.session.current?) : Unserved (H ++ ns) T := by
  have hbefore : ∀ {r reason}, .refused r reason ∈ H ++ ns → .refused r reason ∈ H := by
    refine fun hr => (List.mem_append.mp hr).resolve_right fun hn => ?_
    obtain ⟨script, moment, hp, -, -, rfl⟩ := hm.of_refused hn
    rcases hphase with ⟨-, hT⟩ | ⟨hsame, -⟩
    · exact hT _ rfl
    · cases hsame.trans hp
  refine ⟨fun hr => ?_, fun hp => ?_, fun hr => ?_⟩
  · obtain ⟨w, hw, hcrash⟩ := h.crash (hbefore hr)
    exact crash_of_moves hS hm hw hcrash
  · rcases hphase with ⟨-, hT⟩ | ⟨hsame, hcurrent⟩
    · exact absurd hp (hT _)
    · obtain ⟨r, hc, hr⟩ := h.noted (hsame.symm.trans hp)
      exact ⟨r, hcurrent.trans hc, List.mem_append_left _ hr⟩
  · rcases h.ended (hbefore hr) with ⟨hp, hc⟩ | ho
    · rcases hphase with ⟨hS, -⟩ | ⟨hsame, hcurrent⟩
      · exact absurd hp (hS _)
      · exact Or.inl ⟨hsame.trans hp, hcurrent.trans hc⟩
    · exact Or.inr (List.mem_append_left _ ho)

/-- The host learns that there is no thread for the run that it starts. -/
theorem refuse {script : String} {moment : Moment} {reason : String}
    (h : Unserved H ⟨s, .cleared script moment⟩) (hS : Sound ⟨s, .cleared script moment⟩)
    (hrefused : s.refusal? = some reason) :
    Unserved (H ++ [.refused (s.interpreter.generation + 1) reason])
      ⟨s.begin script moment, .refused reason⟩ := by
  have hcurrent : (s.begin script moment).current? = some (s.interpreter.generation + 1) := by
    simp only [Session.current?, Session.interpreter_begin]
    rfl
  refine ⟨fun hr => ?_, fun hp => ?_, fun hr => ?_⟩
  · rcases List.mem_append.mp hr with hr | hr
    · obtain ⟨w, hw, hcrash⟩ := h.crash hr
      exact crash_of_moves hS (.refuse s script moment reason hrefused) hw hcrash
    · cases List.mem_singleton.mp hr
      exact ⟨_, (Session.worker?_begin script moment _).trans (if_pos rfl),
        Session.thread_beginner_of_refused hrefused script moment⟩
  · cases hp
    exact ⟨_, hcurrent, List.mem_append_right _ (List.mem_singleton_self _)⟩
  · rcases List.mem_append.mp hr with hr | hr
    · rcases h.ended hr with ⟨hp, -⟩ | ho
      · cases hp
      · exact Or.inr (List.mem_append_left _ ho)
    · cases List.mem_singleton.mp hr
      exact Or.inl ⟨rfl, hcurrent⟩

/-- The host ends the run that got no thread. -/
theorem fail {reason : String} (h : Unserved H ⟨s, .refused reason⟩) (hS : Sound ⟨s, .refused reason⟩) :
    Unserved (H ++ s.failNotes reason) ⟨s.fail reason, .ready⟩ := by
  obtain ⟨run, w, hc, -, -, -, hnotes, -⟩ := hS.failure
  have hbefore : ∀ {r reason'}, .refused r reason' ∈ H ++ s.failNotes reason → .refused r reason' ∈ H :=
    fun hr => (List.mem_append.mp hr).resolve_right (by simp [hnotes])
  refine ⟨fun hr => ?_, nofun, fun hr => Or.inr ?_⟩
  · obtain ⟨v, hv, hcrash⟩ := h.crash (hbefore hr)
    exact crash_of_moves hS (.fail s reason) hv hcrash
  · rcases h.ended (hbefore hr) with ⟨hp, hcurrent⟩ | ho
    · cases hp
      cases (Sound.current?_eq_some hc).symm.trans hcurrent
      exact List.mem_append_right _ (hnotes ▸ List.mem_singleton_self _)
    · exact List.mem_append_left _ ho

/-- Every move. -/
theorem moves (h : Unserved H S) (hS : Sound S) (hm : Moves S ns T) : Unserved (H ++ ns) T := by
  have hmove := hm
  cases hm with
  | refuse s script moment reason hrefused => exact h.refuse hS hrefused
  | fail s reason => exact h.fail hS
  | @thread s t r hs phase =>
      refine h.keep hS hmove (Or.inr ⟨rfl, ?_⟩)
      obtain ⟨_, _, _, _, _, hinterpreter, _⟩ := Session.advanceRun_some hs
      simp only [Session.current?, hinterpreter]
  | wait s phase time => exact h.keep hS hmove (Or.inr ⟨rfl, rfl⟩)
  | receive hr hphase =>
      refine h.keep hS hmove (Or.inl ?_)
      rcases hphase with ⟨purpose, rfl⟩ | rfl <;> simp
  | _ => exact h.keep hS hmove (Or.inl (by simp))

end Unserved

end System

end FilterScript
