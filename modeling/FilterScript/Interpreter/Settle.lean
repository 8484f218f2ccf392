import FilterScript.Interpreter.Session

/-
Waiting for a run.

`settle` is the one call of the host that waits, and it fixes the order of the steps: it takes in
what the current run has sent, and lets that run take a step when there is nothing to take in.  While
it sleeps, the threads of older runs go on.  Time passes with each step, which is why a run that never
yields meets the deadline, and why the wait ends.
-/
namespace FilterScript.Session

/-- Whether no run is current, or it waits for a frame. -/
def isSettled (s : Session) : Bool := s.interpreter.state ≠ .running

/-- Takes in what the current run has sent, until it waits for a frame or has ended. -/
def receiveUnsettled (s : Session) : Session :=
  s.receiveWhile (fun s => !s.isSettled) (s.unread + 1)

/-- One step of the thread of the current run. -/
def advance (s : Session) : Option Session :=
  match s.interpreter.current with
  | some run => s.advanceRun run.id
  | none => none

/-- One step of the thread of a run, if it has one. -/
def nudge (s : Session) (id : RunId) : Session := (s.advanceRun id).getD s

/-- One step of every thread but that of the current run. -/
def advanceOthers (s : Session) : Session :=
  let ids := s.workers.map (·.link.run)
  (ids.filter fun id => s.interpreter.current.map (·.id) ≠ some id).foldl nudge s

/-- What happens beside a step that led from `before` to `after`: where the run slept, the others go
on. -/
def meanwhile (before after : Session) : Session :=
  if before.now + Thread.stepTime < after.now then after.advanceOthers else after

/-! ### Time passes -/

theorem now_onLink (s : Session) (id : RunId) (f : Link → Link) : (s.onLink id f).now = s.now := rfl

theorem now_deliver (s : Session) (wakeups : List Wakeup) : (s.deliver wakeups).now = s.now := by
  unfold deliver
  induction wakeups generalizing s with
  | nil => rfl
  | cons w ws ih => rw [List.foldl_cons, ih, now_onLink]

theorem now_decide (s : Session) (f : Interpreter → Interpreter × List Wakeup) :
    (s.decide f).now = s.now := now_deliver _ _

theorem now_closing (s : Session) (id : RunId) (f : Interpreter → Interpreter × List Wakeup) :
    (s.closing id f).now = s.now := by
  simp only [closing]
  split
  · rw [now_onLink, now_decide]
  · rw [now_decide]

theorem now_receive {s t : Session} (h : s.receive = some t) : t.now = s.now := by
  unfold receive at h
  split at h
  · cases h
  split at h
  · cases h
  split at h
  · cases h
    rw [now_closing, now_onLink]
  split at h
  · cases h
    rw [now_closing]
  · cases h

theorem now_receiveWhile (p : Session → Bool) (n : Nat) (s : Session) :
    (s.receiveWhile p n).now = s.now := by
  induction n generalizing s with
  | zero => rfl
  | succ n ih =>
    unfold receiveWhile
    split
    · split
      next t h => rw [ih, now_receive h]
      next => rfl
    · rfl

theorem now_receiveUnsettled (s : Session) : s.receiveUnsettled.now = s.now :=
  now_receiveWhile _ _ _

theorem now_lt_of_stepFirst {queued : Continuation → Bool} {id : RunId}
    {shared shared' : Surroundings} {ws ws' : List Worker}
    (h : stepFirst queued id shared ws = some (ws', shared')) :
    shared.now < shared'.now := by
  induction ws generalizing ws' with
  | nil => cases h
  | cons w ws ih =>
    unfold stepFirst at h
    split at h
    · split at h
      next hs =>
        cases h
        exact Thread.now_lt_of_step hs
      next => cases h
    · split at h
      next hs =>
        cases h
        exact ih hs
      next => cases h

theorem now_lt_of_advanceRun {s t : Session} {id : RunId} (h : s.advanceRun id = some t) :
    s.now < t.now := by
  unfold advanceRun at h
  split at h
  next hs =>
    cases h
    exact now_lt_of_stepFirst hs
  next => cases h

theorem now_lt_of_advance {s t : Session} (h : s.advance = some t) : s.now < t.now := by
  unfold advance at h
  split at h
  · exact now_lt_of_advanceRun h
  · cases h

theorem now_le_nudge (s : Session) (id : RunId) : s.now ≤ (s.nudge id).now := by
  unfold nudge
  cases h : s.advanceRun id with
  | none => exact Int.le_refl _
  | some t => exact Int.le_of_lt (now_lt_of_advanceRun h)

theorem now_le_foldl_nudge (ids : List RunId) (s : Session) : s.now ≤ (ids.foldl nudge s).now := by
  induction ids generalizing s with
  | nil => exact Int.le_refl _
  | cons id ids ih => exact Int.le_trans (now_le_nudge s id) (ih _)

theorem now_le_meanwhile (s t : Session) : t.now ≤ (s.meanwhile t).now := by
  unfold meanwhile
  split
  · exact now_le_foldl_nudge _ _
  · exact Int.le_refl _

/-! ### Settling -/

/-- Of two moments the later one leaves less time. -/
theorem remaining_lt {deadline m n : Int} (hm : m < deadline) (hmn : m < n) :
    (deadline - n).toNat < (deadline - m).toNat := by omega

/-- Waits until the current run waits for a frame or has ended, at most up to a moment.  Answers
whether it came to that. -/
def settleUntil (deadline : Moment) (s : Session) : Bool × Session :=
  let t := s.receiveUnsettled
  if t.isSettled then (true, t)
  else if t.now < deadline then
    match _ : t.advance with
    | some u => settleUntil deadline (t.meanwhile u)
    | none => (false, t.wait (deadline - t.now).toNat)
  else (false, t)
termination_by (deadline - s.now).toNat
decreasing_by
  rw [← now_receiveUnsettled s]
  exact remaining_lt (by assumption)
    (Int.lt_of_lt_of_le (now_lt_of_advance (by assumption)) (now_le_meanwhile _ _))

/-- Waits until the current run waits for a frame or has ended, at most for a time. -/
def settle (timeout : Duration) (s : Session) : Bool × Session := s.settleUntil (s.now + timeout)

end FilterScript.Session
