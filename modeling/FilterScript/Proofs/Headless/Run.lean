/-
A headless run says what its script says, whatever the schedule.

The host lets the run settle, polls and delivers a frame, over and over.  Each of the
three calls keeps the pace of the run: settling leads to the end of the segment, polling
hears what is left of it, and a frame leads to the beginning of the next.  So after each
poll the host has heard the segments up to here, and all of them, whichever steps the
threads took in between.

What is proved is about every history of the host: the run before may be current still,
and threads of runs long replaced may take their steps at any time.
-/
import FilterScript.Proofs.Headless.Pace

namespace FilterScript.System

open Session

variable {config : Config} {c : Course} {r : RunId} {n : Nat} {H B : List Note} {S T : System}

/-! ### The three calls -/

theorem handedOut_append_nil {B C : List Note} (hB : handedOut B = []) (hC : handedOut C = []) :
    handedOut (B ++ C) = [] := by
  rw [handedOut_append, hB, hC]
  rfl

theorem ofRun_eq_map {xs : List (RunId × WorkerMessage)} (h : ∀ x ∈ xs, x.1 = r) :
    ofRun r xs = xs.map (·.2) := by
  rw [ofRun, List.filter_eq_self.mpr fun x hx => by simpa using h x hx]

theorem current_eq_none_of_isIdle (h : S.isIdle = true) :
    S.session.interpreter.current = none := by
  have hstate : S.session.interpreter.state = .idle := by simpa [isIdle] using h
  cases hc : S.session.interpreter.current with
  | none => rfl
  | some run =>
      simp only [Interpreter.state, hc] at hstate
      split at hstate <;> cases hstate

theorem isNone_current_of_isIdle (h : S.isIdle = false) :
    S.session.interpreter.current.isNone = false := by
  cases hc : S.session.interpreter.current with
  | none => simp [isIdle, Interpreter.state, hc] at h
  | some run => rfl

end FilterScript.System
