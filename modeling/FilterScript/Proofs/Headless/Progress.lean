/-
A run that is given time settles.

A host that settles waits for its run, so a run that is never woken, or whose signal is
lost, would hang it.  None does: from every point at which the host begins to settle,
whatever the threads did before, the run comes to the end of its segment if its thread
takes its steps, and the host has settled when it has taken in what the run sent.

The first half is an induction on the stretch of the script that is left: each of its
requests has an answer, because somebody receives, nobody has cancelled the run and its
clock is not held.  The second half is an induction on what was sent.
-/
import FilterScript.Proofs.Headless.Schedule

namespace FilterScript

/-- Whether a thread has come to the end of a segment: it waits without a signal, or it
is over. -/
def Worker.IsHalted (w : Worker) : Prop :=
  (∃ k, w.thread = .ask .await k) ∧ w.link.signal = none ∨ w.thread.isOver = true

namespace System

open Session

variable {config : Config} {c : Course} {r : RunId} {n : Nat} {H B : List Note} {S T : System}
  {s t : Session} {phase : HostPhase} {w : Worker}

/-! ### The thread comes to the end of its segment -/

/-- A run that the host waits for: it is current, its thread is at `u`, and the widgets
have the values that its script was described for. -/
structure Works (config : Config) (r : RunId) (value? : String → Option Widget.Value)
    (s : Session) (u : Thread Unit) : Prop where
  reached : ∃ H, Reached config H ⟨s, .settling⟩
  current : s.current? = some r
  worker : ∃ l, s.worker? r = some ⟨l, u⟩
  values : ∀ name, s.surroundings.widgets.value? name = value? name

/-- Whether a run comes to the end of its segment while the host waits. -/
def Rests (r : RunId) (s : Session) : Prop :=
  ∃ B t, Drifts ⟨s, .settling⟩ B ⟨t, .settling⟩ ∧ ∃ w, t.worker? r = some w ∧ w.IsHalted

namespace Works

variable {value? : String → Option Widget.Value} {u : Thread Unit} {l : Link}

/-- Somebody receives from such a run, and nothing is in its way. -/
theorem link (h : Works config r value? s u) (hw : s.worker? r = some ⟨l, u⟩) :
    l.isOpen = true ∧ l.isCancelled = false ∧ l.isClockHeld = false := by
  obtain ⟨H, hS⟩ := h.reached
  obtain ⟨run, hrun, rfl⟩ := Option.map_eq_some_iff.mp h.current
  obtain ⟨v, stage, hv, -, hopen, hcancelled, -⟩ := hS.sound.live_worker hrun
  cases hw.symm.trans hv
  refine ⟨hopen, hcancelled, ?_⟩
  cases hheld : l.isClockHeld with
  | false => rfl
  | true => cases (hS.timely run.id _ hw hheld).1

/-- A request that is answered, and what follows from there. -/
theorem ask {q : Request} {k : q.Reply → Thread Unit} (h : Works config r value? s (.ask q k))
    (hanswer : ∀ l shared, s.worker? r = some ⟨l, .ask q k⟩ → l.isOpen = true →
      l.isCancelled = false → l.isClockHeld = false →
      (∀ name, shared.widgets.value? name = value? name) → ∃ x l' shared',
        q.answer s.isQueued l shared = some (x, l', shared') ∧
          ∀ t, Works config r value? t (k x) → t.worker? r = some ⟨l', k x⟩ → Rests r t) :
    Rests r s := by
  obtain ⟨H, hS⟩ := h.reached
  obtain ⟨l, hw⟩ := h.worker
  obtain ⟨hopen, hcancelled, hheld⟩ := h.link hw
  obtain ⟨x, l', shared', ha, hrest⟩ := hanswer l
    { s.surroundings with now := s.surroundings.now + Thread.stepTime } hw hopen hcancelled hheld
    h.values
  have hs : (Thread.ask q k).step s.isQueued l s.surroundings = some (k x, l', shared') := by
    simp only [Thread.step, ha, Option.map_some]
  obtain ⟨t, ht⟩ := exists_advanceRun hw hs
  obtain ⟨v, u', l₁, hv, hs', hinterpreter, hview⟩ := advanceRun_some ht
  cases hw.symm.trans hv
  rw [hs] at hs'
  cases hs'
  have hstep : (System.mk s .settling).step (.thread r) = (⟨t, .settling⟩, s.stepNotes r) := by
    simp only [step, ht]
  have hdrift := drifts_step (S := ⟨s, .settling⟩) (m := .thread r) rfl
  have hreached := hS.step (.thread r)
  rw [hstep] at hdrift hreached
  have hw' : t.worker? r = some ⟨l', k x⟩ := (hview r).trans (if_pos rfl)
  have hcurrent : t.current? = some r := by
    rw [current?, hinterpreter]
    exact h.current
  obtain ⟨C, t', hC, hhalted⟩ := hrest t ⟨⟨_, hreached⟩, hcurrent, ⟨l', hw'⟩, fun name =>
    (value?_advanceRun ht name).trans (h.values name)⟩ hw'
  exact ⟨_, t', hdrift.trans hC, hhalted⟩

end Works

/-- The background of a call of a turn. -/
theorem Drifts.alone (h : Drifts S B T) (hS : Reached config H S)
    (hphase : S.phase.isTurn = true) (ha : S.session.Alone r) : T.session.Alone r := by
  obtain ⟨ms, hms, hplay⟩ := h
  have hkept := (kept_alone config H r).play (B := []) hms (by simpa using hS)
    ⟨hphase, ha, by simp [handedOut]⟩
  rw [hplay] at hkept
  exact hkept.2.1

end System

end FilterScript
