/-
A headless run is a function of its script.

Three things are promised to whoever runs a described script.  What the host returns is
the transcript of the script, whatever the threads did in which order and whatever the
host did before.  No schedule leads to a place from which the run cannot be brought to
its end, so a host waits in vain only if it does not wait long enough.  And the host's
own schedule is one of those that the other two are about.

All this is so on every machine.  Where there is no thread for the run, nothing of the
script is heard: the run has ended when the call is over that starts it, and what is
left in the outbox is the error that says so.
-/
import FilterScript.Proofs.Headless.Isolation

namespace FilterScript.System

open Session

variable {config : Config} {H B : List Note} {S T : System} {s : Session} {b : Behaviour}
  {script reason : String} {a : Allowance} {t : Transcript} {r : RunId} {n : Nat}

/-! ### A run that gets no thread -/

/-- **When the call is over that starts such a run, its end was taken in.** -/
theorem Called.ended_of_refused {moment : Moment} (h : Called (.start script moment) S B T)
    (hS : Reached config H S) (hrefused : S.session.refusal? = some reason) :
    T.session.current? = none ∧ .refused (S.session.newest + 1) reason ∈ H ++ B ∧
      ending (S.session.newest + 1) B = some (unstartedOutcome reason) := by
  have hT := hS.append h.exists_play
  have hnoted (hstarted : T.session.worker? (S.session.newest + 1) ≠ none) :
      .refused (S.session.newest + 1) reason ∈ H ++ B := by
    refine hT.refused_iff.mpr ⟨hstarted, ?_⟩
    rw [platform_of_play h.exists_play, ← hS.refusal?_eq, hrefused]
  cases (h.since_start hS).ends with
  | current hcurrent hending =>
      -- The host has ended every run that got no thread, so this one would not be current.
      obtain ⟨run, hc, hid⟩ := Option.map_eq_some_iff.mp hcurrent
      obtain ⟨w, -, hw, -⟩ := hT.sound.live_worker hc
      rw [hid] at hw
      rcases hT.unserved.ended (hnoted (by simp [hw])) with ⟨hphase, -⟩ | hended
      · rw [h.ready] at hphase
        cases hphase
      · exact absurd hcurrent ((hT.ledger.books _).collected _ hended).bygone
  | ended o hcurrent hending =>
      have hcollected : .collected (S.session.newest + 1) o ∈ H ++ B :=
        List.mem_append_right _ (collected_of_ending hending)
      have hn := hnoted ((hT.ledger.books _).collected o hcollected).started
      exact ⟨hcurrent, hn, hT.collected_of_refused hn hcollected ▸ hending⟩

/-- A run that has ended gets no frame. -/
theorem Turns.frames_eq {L : List (RunId × WorkerMessage)} {D : List Diagnostic} {C : List Note}
    {o : Outcome} {said : List WorkerMessage} (h : Turns a n said S (.ok t) B T)
    (hS : Reached config H S) (hP : S.session.Since L D r C) (hended : ending r C = some o) :
    t.frames = n := by
  cases h with
  | last hsettle hpoll hend hdiagnostics => rfl
  | frame moment hsettle hpoll hgoes hleft hframe hrest =>
      have hP' := hpoll.since (hS.append hsettle.exists_play) (Or.inr (Or.inl rfl))
        (hsettle.since hS (Or.inl rfl) hP)
      cases hP'.ends with
      | current hcurrent hending =>
          rw [ending_append, ending_append, hended] at hending
          cases hending
      | ended o' hcurrent =>
          rw [current?, Option.map_eq_none_iff] at hcurrent
          have hgone := isNone_current_of_isIdle hgoes
          rw [hcurrent] at hgone
          cases hgone

/-- **A run that gets no thread says that it failed to start**, and nothing else. -/
theorem HeadlessRun.unstarted (h : HeadlessRun a script S (.ok t) B T) (hS : HostHistory config H S)
    (hrefused : S.session.refusal? = some reason) :
    t.messages = (unstartedOutcome reason).farewell ∧ t.frames = 0 ∧ t.finished = true := by
  have hreached := hS.reached
  have hT := hreached.append h.exists_play
  have hreturned := h.returned hreached
  have hready := h.ready
  obtain ⟨moment, S₁, B₁, B₂, hcall, hturns, rfl⟩ := h
  obtain ⟨-, hnoted, hended⟩ := hcall.ended_of_refused hreached hrefused
  obtain ⟨s, phase⟩ := S
  cases hready
  have hending : ending (s.newest + 1) (B₁ ++ B₂) = some (unstartedOutcome reason) := by
    rw [ending_append, show ending (s.newest + 1) B₁ = _ from hended]
    rfl
  have hstill : .refused (s.newest + 1) reason ∈ H ++ (B₁ ++ B₂) := by
    rw [← List.append_assoc]
    exact List.mem_append_left _ hnoted
  have hposted := posted_of_isBy (hT.not_isBy_of_refused hstill)
  rw [posted_append] at hposted
  have hempty : s.leftovers = [] := outbox_supersede hS.tidy
  cases hreturned.fate hreached.unheard_next hT.ledger with
  | current _ hnone =>
      rw [hending] at hnone
      cases hnone
  | ended o hfinished ho _ hheard =>
      cases hending.symm.trans ho
      refine ⟨?_, hturns.frames_eq (hreached.append hcall.exists_play)
        (hcall.since_start hreached) hended, hfinished⟩
      rw [hreturned.messages_eq hreached, hempty, hheard, (List.append_eq_nil_iff.mp hposted).2]
      rfl

end FilterScript.System
