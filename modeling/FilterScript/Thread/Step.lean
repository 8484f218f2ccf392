import FilterScript.Thread

/-
The steps of a thread.

A step answers one request, and whatever else happens between two requests happens between two steps.
A thread that has to wait has no step.
-/
namespace FilterScript

/-- What all runs share: the widgets, the time, and the log. -/
structure Surroundings where
  widgets : Widget.Registry
  now : Moment
  log : List LogRecord
deriving Repr

/-- Answers a request, if it can be answered now.  A run whose continuation is on its way to the
host, or is queued there, has to wait; so has one that reads a clock while it is being set. -/
def Request.answer (queued : Continuation → Bool) (r : Request) (l : Link) (s : Surroundings) :
    Option (r.Reply × Link × Surroundings) :=
  match r with
  | .isCancelled => some (l.isCancelled, l, s)
  | .post m => some (l.isOpen, l.send (.message m), s)
  | .suspend => some (l.isOpen, l.suspend, s)
  | .await =>
    match l.signal with
    | some resume => some (some resume, { l with signal := none }, s)
    | none => if l.isUnread || queued l.continuation then none else some (none, l, s)
  | .declare name => some ((), l, { s with widgets := s.widgets.declare name l.run })
  | .widgetValue name => some (s.widgets.value? name, l, s)
  | .elapsed => if l.isClockHeld then none else some (l.clock.elapsed s.now, l, s)
  | .delta => if l.isClockHeld then none else some (l.clock.delta, l, s)
  | .pause time => some ((), l, { s with now := s.now + time })
  | .log record => some ((), l, { s with log := s.log ++ [record] })
  | .finish outcome => some ((), l.send (.finished outcome), s)

/-- No answer takes time back. -/
theorem Request.now_le_of_answer {queued : Continuation → Bool} {r : Request} {l l' : Link}
    {s s' : Surroundings} {x : r.Reply} (h : r.answer queued l s = some (x, l', s')) :
    s.now ≤ s'.now := by
  cases r <;> simp only [answer] at h
  case await =>
    split at h
    · cases h
      exact Int.le_refl _
    · split at h
      · cases h
      · cases h
        exact Int.le_refl _
  case elapsed =>
    split at h
    · cases h
    · cases h
      exact Int.le_refl _
  case delta =>
    split at h
    · cases h
    · cases h
      exact Int.le_refl _
  case pause time =>
    cases h
    exact Int.le_add_of_nonneg_right (Int.natCast_nonneg time)
  all_goals
    cases h
    exact Int.le_refl _

namespace Thread

variable {α : Type}

/-- How long a step takes. -/
def stepTime : Duration := 1000

/-- One step of a thread, if it has one. -/
def step (queued : Continuation → Bool) (t : Thread α) (l : Link) (s : Surroundings) :
    Option (Thread α × Link × Surroundings) :=
  let s := { s with now := s.now + stepTime }
  match t with
  | done _ => none
  | crash => none
  | spin => some (spin, l, s)
  | ask r k => (r.answer queued l s).map fun (x, l, s) => (k x, l, s)

/-- Time passes with each step. -/
theorem now_lt_of_step {queued : Continuation → Bool} {t t' : Thread α} {l l' : Link}
    {s s' : Surroundings} (h : t.step queued l s = some (t', l', s')) : s.now < s'.now := by
  have passes : s.now < s.now + stepTime := Int.lt_add_of_pos_right _ (by decide)
  unfold step at h
  split at h
  · cases h
  · cases h
  · cases h
    exact passes
  · rw [Option.map_eq_some_iff] at h
    obtain ⟨⟨x, l₁, s₁⟩, ha, he⟩ := h
    cases he
    exact Int.lt_of_lt_of_le passes (Request.now_le_of_answer ha)

/-- Whether a thread is over. -/
def isOver : Thread α → Bool
  | done _ => true
  | crash => true
  | _ => false

/-- Takes as many steps as there are, up to a number.  Nobody wakes the thread. -/
def steps : Nat → Thread α → Link → Surroundings → Thread α × Link × Surroundings
  | 0, t, l, s => (t, l, s)
  | n + 1, t, l, s =>
    match t.step (fun _ => false) l s with
    | some (t, l, s) => steps n t l s
    | none => (t, l, s)

end Thread

end FilterScript
