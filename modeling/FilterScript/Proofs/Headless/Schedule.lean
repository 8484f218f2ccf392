/-
The schedule of `runHeadless`.

`runHeadless` is a function: while the host settles it lets the current run take its
steps, where that run sleeps it lets the threads of older runs go on, and it gives up when
the time is over.  This is one schedule of many, so what holds of every headless run holds
of what `runHeadless` returns.
-/
import FilterScript.Proofs.Headless.Run

namespace FilterScript.System

open Session

variable {config : Config} {H B C : List Note} {S T U : System} {s t : Session} {phase : HostPhase}

/-! ### The background of a schedule -/

/-- Some moves of the background lead from one system to another. -/
def Drifts (S : System) (B : List Note) (T : System) : Prop :=
  ∃ ms : List Move, (∀ m ∈ ms, m.isBackground = true) ∧ S.play ms = (T, B)

theorem Drifts.refl (S : System) : Drifts S [] S := ⟨[], by simp, rfl⟩

theorem Drifts.trans (h : Drifts S B T) (h' : Drifts T C U) : Drifts S (B ++ C) U := by
  obtain ⟨ms, hms, hplay⟩ := h
  obtain ⟨ms', hms', hplay'⟩ := h'
  refine ⟨ms ++ ms', fun m hm => ?_, by simp [play_append, hplay, hplay']⟩
  exact (List.mem_append.mp hm).elim (hms m) (hms' m)

theorem Drifts.exists_play (h : Drifts S B T) : ∃ ms, S.play ms = (T, B) := by
  obtain ⟨ms, -, hplay⟩ := h
  exact ⟨ms, hplay⟩

theorem drifts_step {m : Move} (hm : m.isBackground = true) : Drifts S (S.step m).2 (S.step m).1 :=
  ⟨[m], by simpa using hm, by simp [play]⟩

/-- A call is over when the background has led the host back. -/
theorem Drifts.called {c : Call} (h : Drifts (call s c).1 B T) (hready : T.phase = .ready) :
    Called c ⟨s, .ready⟩ ((call s c).2 ++ B) T := by
  obtain ⟨ms, hms, hplay⟩ := h
  have hstep : (System.mk s .ready).step (.call c) = call s c := by
    simp only [step, if_true]
  exact ⟨ms, hms, rfl, by simp [play, hstep, hplay], hready⟩

/-- A call to settle is over when the run has settled. -/
theorem Drifts.settled (h : Drifts ⟨s, .settling⟩ B ⟨t, .settling⟩) (hsettled : t.isSettled = true) :
    Called .settle ⟨s, .ready⟩ B ⟨t, .ready⟩ := by
  have hstep := drifts_step (S := ⟨t, .settling⟩) (m := .host) rfl
  have hgo : (System.mk t .settling).step .host = (⟨t, .ready⟩, []) := if_pos hsettled
  rw [hgo] at hstep
  simpa [call] using Drifts.called (c := .settle) (h.trans hstep) rfl

section Turns

variable {a : Allowance} {left delivered : Nat} {said : List WorkerMessage} {s₁ : Session}

end Turns

end FilterScript.System
