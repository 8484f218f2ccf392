/-
The thread of a script, from its first request to the report of its outcome.

A script that fails looks once more whether it was replaced before it says so.  A
run that knows then reports that it gave up, and a run that does not know never
does.  This is what the host relies on: as long as it has not cancelled a run, the
outcome that arrives is not `cancelled`.
-/
import FilterScript.Interpreter.Session
import FilterScript.Proofs.Script.Rules

namespace FilterScript

/-- How the stage and the outcome of a run fit together: it gave up exactly if it
knows that it was replaced. -/
def Outcome.fits (s : Stage) (o : Outcome) : Prop :=
  s = .free ∧ o ≠ .cancelled ∨ s = .told ∧ o = .cancelled

namespace Script

theorem Error.outcome_of_terminated {e : Error} (he : e.fault = .terminated) (b : Bool) :
    e.outcome b = .cancelled := by
  simp only [Error.outcome, he]

theorem Error.outcome_false_ne {e : Error} (he : e.fault ≠ .terminated) :
    e.outcome false ≠ .cancelled := by
  simp [Error.outcome]

theorem Error.outcome_true (e : Error) : e.outcome true = .cancelled := by
  simp only [Error.outcome]
  split <;> rfl

/-- A look at the flag after a failure decides between failure and replacement. -/
theorem failed_conforms {s : Stage} {e : Error} (c : Context)
    (hs : Discipline.conduct.Stands (Interrupt.error e).place s c) :
    Thread.Conforms (fun s x => Outcome.fits s x.1) s
      (do return (e.outcome (← Thread.request .isCancelled), c)) := by
  by_cases he : e.fault = .terminated
  · rw [show (Interrupt.error e).place = .told by simp only [Interrupt.place, he]] at hs
    cases hs
    exact .ask trivial fun b => .done (Or.inr ⟨rfl, e.outcome_of_terminated he b⟩)
  · rw [Interrupt.place_error he] at hs
    cases hs
    refine .ask trivial fun b => ?_
    cases b with
    | true => exact .done (Or.inr ⟨rfl, e.outcome_true⟩)
    | false => exact .done (Or.inl ⟨rfl, e.outcome_false_ne he⟩)

theorem run_conforms (config : Config) (id : RunId) (script : String) :
    Thread.Conforms (fun s x => Outcome.fits s x.1) .free (run config id script) := by
  simp only [run]
  split
  · exact .done (Or.inl ⟨rfl, by simp⟩)
  next p _ =>
    refine Thread.Follows.bind (Program.run_follows .conduct p.simplify config.limits rfl) ?_
    rintro s ⟨ending, c⟩ hs
    cases ending with
    | completed => exact .done (Or.inl ⟨hs, by simp⟩)
    | failed e => exact failed_conforms c hs

end Script

/-- Only a run that has reported its outcome is over. -/
def Stage.isOver (s : Stage) (_ : Unit) : Prop := s = .ended

/-- **The thread of every script keeps to the protocol**: it reports an outcome
before it is over, and it reports that it gave up only if it knows that it was
replaced. -/
theorem Session.scriptThread_conforms (config : Config) (id : RunId) (script : String) :
    Thread.Conforms Stage.isOver .free (Session.scriptThread config id script) := by
  refine Thread.Follows.bind (Script.run_conforms config id script) ?_
  rintro s ⟨o, c⟩ hs
  rcases hs with ⟨rfl, ho⟩ | ⟨rfl, ho⟩
  · exact .ask ho fun _ => .done rfl
  · exact .ask ho fun _ => .done rfl

end FilterScript
