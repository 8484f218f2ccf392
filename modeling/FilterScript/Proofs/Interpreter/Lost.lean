/-
Runs that are lost.

A run is lost when its thread goes away without saying how it ended; then the host says of it that the
script terminated unexpectedly, and gives no place.  No report of a script reads like that, because
every error of a script is told with its text, and of a run that got no thread the host says that it
failed to start.  So the runs that are told of as lost are those whose thread went away, and what leads
there is known call by call: `Survival` says of each call of what the host provides, be it a primitive or
a function that prints, whether a thread survives it.
-/
import FilterScript.Proofs.Interpreter.Ends
import FilterScript.Proofs.Script.Survival

namespace FilterScript

open Script

/-- A script does not end by itself like one that was lost. -/
theorem Script.not_finishes_lost {config : Config} {id : RunId} {script : String}
    {xs : List Exchange} : ¬ Finishes config id script xs Session.lostOutcome := by
  intro h
  generalize ho : Session.lostOutcome = o at h
  have hraw {f : Failure} {d : Diagnostic} (he : Session.lostOutcome = .failed f d) :
      d.raw = none := by
    cases he
    rfl
  cases h with
  | unreadable => cases hraw ho
  | completed => cases ho
  | failed => cases hraw ho

namespace System

variable {config : Config} {platform : Platform} {ms : List Move} {r : RunId} {o : Outcome}

/-- A run whose thread went away has reported nothing. -/
theorem not_reported_of_crash
    (h : ((ofConfig config platform).play ms).1.session.thread? r = some .crash) :
    .reported r o ∉ ((ofConfig config platform).play ms).2 := by
  intro hreported
  obtain ⟨-, -, -, -, -, -, hdone⟩ := reported_cases hreported
  cases hdone.symm.trans h

/-- A run that failed to start is not told of like one that was lost. -/
theorem Session.unstartedOutcome_ne (reason : String) :
    Session.unstartedOutcome reason ≠ Session.lostOutcome := by
  intro h
  have htext : Interpreter.unstartedText reason = Interpreter.lostText :=
    Failure.runtime.inj (Outcome.failed.inj h).1
  have hfront : ("failed to start script: ".toList ++ reason.toList).head? =
      "script terminated unexpectedly".toList.head? := by
    rw [← String.toList_append]
    exact congrArg (fun text => text.toList.head?) htext
  rw [List.head?_append, show "failed to start script: ".toList.head? = some 'f' by decide,
    show "script terminated unexpectedly".toList.head? = some 's' by decide] at hfront
  cases hfront

/-- **A run is told of as lost exactly if it had a thread and that went away.** -/
theorem lost_iff_crash (h : .collected r o ∈ ((ofConfig config platform).play ms).2) :
    o = Session.lostOutcome ↔ platform.refusal? r config.stackSize = none ∧
      ((ofConfig config platform).play ms).1.session.thread? r = some .crash := by
  have hreached := reached_play config platform ms
  have hbooks := (hreached.ledger.books r).collected o h
  have hrefused {reason : String} (hr : platform.refusal? r config.stackSize = some reason) :
      .refused r reason ∈ ((ofConfig config platform).play ms).2 := by
    rw [hreached.refused_iff, platform_play]
    exact ⟨hbooks.started, hr⟩
  constructor
  · rintro rfl
    constructor
    · cases hr : platform.refusal? r config.stackSize with
      | none => rfl
      | some reason =>
          exact absurd (hreached.collected_of_refused (hrefused hr) h).symm
            (Session.unstartedOutcome_ne reason)
    · cases hbooks.truly with
      | reported hreported =>
          obtain ⟨script, xs, c, -, -, hrun, -⟩ := reported_cases hreported
          obtain ⟨ys, hfinishes, -⟩ := finishes_of_run hrun hbooks.notCancelled
          exact absurd hfinishes not_finishes_lost
      | lost ho hlost =>
          obtain ⟨w, hw, hcrash⟩ := hlost
          rw [Session.thread?_of_worker? hw, hcrash]
      | refused reason ho => exact absurd ho.symm (Session.unstartedOutcome_ne reason)
  · rintro ⟨hserved, hcrash⟩
    cases hbooks.truly with
    | reported hreported => exact absurd hreported (not_reported_of_crash hcrash)
    | lost hlost => exact hlost
    | refused reason ho hr =>
        rw [hreached.refused_iff, platform_play, hserved] at hr
        cases hr.2

/-- Which runs are lost, behind a history. -/
structure LostRuns (config : Config) (platform : Platform) (ms : List Move) : Prop where
  /-- What becomes of a thread at each call of what the host provides, in whatever state of the
  script. -/
  calls : ∀ name args pos m, Evaluator.Survival name args pos m
  /-- A run that comes to a deadly call has gone away for good and reports nothing, whatever happens
  later. -/
  gone : ∀ (ev : Evaluator) name args pos m k r later,
    Primitive.Deadly m.limits.items name args →
    ((ofConfig config platform).play ms).1.session.thread? r =
      some (((ev.callAny name args pos).run.run m).bind k) →
    ((ofConfig config platform).play (ms ++ later)).1.session.thread? r = some .crash ∧
      ∀ o, .reported r o ∉ ((ofConfig config platform).play (ms ++ later)).2
  /-- When the host takes in the end of such a run it says that the script terminated unexpectedly, and
  it says so of no other run that the machine had a thread for. -/
  told : ∀ r o, .collected r o ∈ ((ofConfig config platform).play ms).2 →
    (o = Session.lostOutcome ↔ platform.refusal? r config.stackSize = none ∧
      ((ofConfig config platform).play ms).1.session.thread? r = some .crash)

/-- **A run that comes to a deadly call is lost, and a run that is told of as lost went away.** -/
theorem lost_runs (config : Config) (platform : Platform) (ms : List Move) :
    LostRuns config platform ms where
  calls := Evaluator.survival
  gone ev name args pos m k r later hdeadly hr := by
    rw [Evaluator.callAny_of_deadly hdeadly] at hr
    obtain ⟨u, hu, hgoes⟩ := (reached_play config platform ms).sound.goes hr later
    obtain ⟨-, rfl⟩ := Thread.Goes.of_crash hgoes
    have hcrash :
        ((ofConfig config platform).play (ms ++ later)).1.session.thread? r = some .crash := by
      rw [play_append]
      exact hu
    exact ⟨hcrash, fun o => not_reported_of_crash hcrash⟩
  told _ _ := lost_iff_crash

/-- Limits that are accepted keep no script from such calls: the standard ones from a sleep of many
years, and those without a limit on arrays from the largest range. -/
theorem lost_runs_beyond :
    let unlimited := { Config.standard with maxArraySize := 0 }
    Config.standard.validate = .ok () ∧ unlimited.validate = .ok () ∧
    (∀ (ev : Evaluator) pos m, m.limits = Config.standard.limits →
      (ev.callAny "sleep" [.float (Decimal.toSingle false ⟨1, 30⟩)] pos).run.run m = .crash) ∧
    ∀ (ev : Evaluator) pos m, m.limits = unlimited.limits →
      (ev.callAny "range" [.int Value.maxInt] pos).run.run m = .crash := by
  refine ⟨rfl, rfl, fun ev pos m _ => ?_, fun ev pos m hlimits => ?_⟩
  · have hdeadly : Primitive.Deadly m.limits.items "sleep"
        [.float (Decimal.toSingle false ⟨1, 30⟩)] := .sleep (by decide +kernel) (by decide +kernel)
    exact ((lost_runs .standard .usual []).calls _ _ pos m).dies hdeadly ev
  · have hdeadly : Primitive.Deadly m.limits.items "range" [.int Value.maxInt] := by
      rw [hlimits]
      exact .range (by decide) (by decide)
    exact ((lost_runs .standard .usual []).calls _ _ pos m).dies hdeadly ev

end System

end FilterScript
