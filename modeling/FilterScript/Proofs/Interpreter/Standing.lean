/-
Where the continuation of a run is.

A run that is current has sent messages that the host has not read yet, and behind
them at most one event that stops it: the continuation that it waits with, or its
outcome.  A continuation that the host has read is queued, and one that was woken has
its signal.  `Standing` lists these cases, one for each place where the continuation
can be, and ties each to the stage of the thread: a run waits exactly if its
continuation is in one of the three places.

A step of the thread leads from one case to another without a gap, because the stage
allows few requests: a run that waits can only ask for its signal, and it is answered
only when the signal is there.
-/
import FilterScript.Proofs.Script.Outcome
import FilterScript.Proofs.Interpreter.View

namespace FilterScript

/-- Where the continuation of a run is that somebody receives from, if it has one;
`queue` is what the host has queued. -/
inductive Standing (l : Link) (queue : List Continuation) : Stage → Prop where
  /-- It has none: the run works, or it knows that it was replaced and leaves. -/
  | working {stage : Stage} (hs : stage = .free ∨ stage = .marked ∨ stage = .told ∧ l.isCancelled)
      (ms : List WorkerMessage) (he : l.events = ms.map .message) (hq : queue = [])
      (hw : l.signal = none) : Standing l queue stage
  /-- On its way to the host, behind the messages that were sent before it. -/
  | unread (ms : List WorkerMessage)
      (he : l.events = ms.map .message ++ [.suspend l.continuation]) (hq : queue = [])
      (hw : l.signal = none) : Standing l queue .parked
  /-- With the host, which has read everything that was sent before it. -/
  | queued (he : l.events = []) (hq : queue = [l.continuation]) (hw : l.signal = none) :
      Standing l queue .parked
  /-- Woken by a frame. -/
  | woken (he : l.events = []) (hq : queue = []) (hw : l.signal = some .frame) :
      Standing l queue .parked
  /-- It has none: the run has reported its outcome, and only a replaced run that it
  gave up. -/
  | ended (ms : List WorkerMessage) (o : Outcome)
      (he : l.events = ms.map .message ++ [.finished o]) (hq : queue = []) (hw : l.signal = none)
      (ho : o = .cancelled → l.isCancelled) : Standing l queue .ended

namespace Standing

variable {queued : Continuation → Bool} {queue : List Continuation} {l l' : Link} {stage : Stage}
  {shared shared' : Surroundings}

/-- The standing of a run is about what was sent and what is awaited. -/
theorem congr (h : Standing l queue stage) (hevents : l'.events = l.events)
    (hcontinuation : l'.continuation = l.continuation) (hsignal : l'.signal = l.signal)
    (hcancelled : l.isCancelled = true → l'.isCancelled = true) : Standing l' queue stage := by
  cases h with
  | working hs ms he hq hw =>
      refine .working ?_ ms (hevents.trans he) hq (hsignal.trans hw)
      rcases hs with rfl | rfl | ⟨rfl, ht⟩
      · exact Or.inl rfl
      · exact Or.inr (Or.inl rfl)
      · exact Or.inr (Or.inr ⟨rfl, hcancelled ht⟩)
  | unread ms he hq hw =>
      exact .unread ms (by rw [hevents, hcontinuation]; exact he) hq (hsignal.trans hw)
  | queued he hq hw =>
      exact .queued (hevents.trans he) (by rw [hcontinuation]; exact hq) (hsignal.trans hw)
  | woken he hq hw => exact .woken (hevents.trans he) hq (hsignal.trans hw)
  | ended ms o he hq hw ho =>
      exact .ended ms o (hevents.trans he) hq (hsignal.trans hw) fun h => hcancelled (ho h)

theorem send_of_isOpen (hopen : l.isOpen = true) (e : RunEvent) :
    l.send e = { l with events := l.events ++ [e] } := by
  simp [Link.send, hopen]

/-- What a run that works can ask for beside a look and the report of its outcome, it
asks for only while it is free. -/
theorem free_of_allows {q : Request} (hr : stage.Allows q)
    (hs : stage = .free ∨ stage = .marked ∨ stage = .told ∧ l.isCancelled)
    (hlook : q ≠ .isCancelled) (hfinish : ∀ o, q ≠ .finish o) : stage = .free := by
  rcases hs with rfl | rfl | ⟨rfl, -⟩
  · rfl
  · cases q <;> first | exact absurd rfl hlook | exact hr.elim
  · cases q <;> first | exact absurd rfl hlook | exact absurd rfl (hfinish _) | exact hr.elim

/-- A run that works stays at work with every request but two: it parks, or it is
over. -/
theorem of_working {q : Request} {x : q.Reply} (hr : stage.Allows q)
    (hs : stage = .free ∨ stage = .marked ∨ stage = .told ∧ l.isCancelled)
    {ms : List WorkerMessage} (he : l.events = ms.map .message) (hq : queue = [])
    (hw : l.signal = none) (hopen : l.isOpen = true)
    (h : q.answer queued l shared = some (x, l', shared')) :
    Standing l' queue (stage.after q x) := by
  have hfree := free_of_allows hr hs
  have hsend := send_of_isOpen hopen
  cases q <;> simp only [Request.answer] at h
  case isCancelled =>
    cases h
    refine .working ?_ ms he hq hw
    cases hc : l.isCancelled with
    | true => rcases hs with rfl | rfl | ⟨rfl, -⟩ <;> simp [Stage.after]
    | false =>
        rcases hs with rfl | rfl | ⟨rfl, htold⟩
        · simp [Stage.after]
        · simp [Stage.after]
        · simp [hc] at htold
  case post m =>
    cases h
    rw [hfree (by simp) (by simp), hsend, hopen]
    exact .working (Or.inl rfl) (ms ++ [m]) (by simp [he]) hq hw
  case suspend =>
    cases h
    rw [hfree (by simp) (by simp), hopen]
    simp only [Link.suspend, Link.send, hopen, if_true]
    exact .unread ms (by simp [he, Link.continuation]) hq rfl
  case await =>
    rw [hfree (by simp) (by simp)] at hr
    exact hr.elim
  case declare name =>
    cases h
    rw [hfree (by simp) (by simp)]
    exact .working (Or.inr (Or.inl rfl)) ms he hq hw
  case finish o =>
    cases h
    have hover : stage.after (.finish o) () = .ended := by
      rcases hs with rfl | rfl | ⟨rfl, -⟩ <;> rfl
    rw [hsend]
    refine hover ▸ .ended ms o (by simp [he]) hq hw fun ho => ?_
    rcases hs with rfl | rfl | ⟨rfl, htold⟩
    · exact absurd ho hr
    · exact hr.elim
    · exact htold
  case elapsed =>
    rw [hfree (by simp) (by simp)]
    split at h
    · cases h
    · cases h
      exact .working (Or.inl rfl) ms he hq hw
  case delta =>
    rw [hfree (by simp) (by simp)]
    split at h
    · cases h
    · cases h
      exact .working (Or.inl rfl) ms he hq hw
  all_goals
    cases h
    rw [hfree (by simp) (by simp)]
    exact .working (Or.inl rfl) ms he hq hw

/-- What a parked run can ask for. -/
theorem eq_await_of_allows {q : Request} (hr : Stage.Allows .parked q) : q = .await := by
  cases q <;> first | rfl | exact hr.elim

/-- Who asks for a signal is parked. -/
theorem eq_parked_of_allows (hr : stage.Allows .await) : stage = .parked := by
  cases stage <;> first | rfl | exact hr.elim

/-- A parked run is answered only when its signal is there. -/
theorem woken_of_answer {x : Option Resume} (hst : Standing l queue .parked)
    (hqueued : ∀ c, queued c = queue.contains c) (hopen : l.isOpen = true)
    (h : Request.await.answer queued l shared = some (x, l', shared')) :
    l.events = [] ∧ queue = [] ∧ l.signal = some .frame := by
  simp only [Request.answer] at h
  cases hst with
  | working hs => rcases hs with hs | hs | ⟨hs, -⟩ <;> cases hs
  | unread ms he hq hw =>
      rw [hw] at h
      have hunread : l.isUnread = true := by simp [Link.isUnread, hopen, he]
      simp [hunread] at h
  | queued he hq hw =>
      rw [hw] at h
      have hheld : queued l.continuation = true := by simp [hqueued, hq]
      simp [hheld] at h
  | woken he hq hw => exact ⟨he, hq, hw⟩

/-- A parked run that is answered is at work again. -/
theorem of_parked {q : Request} {x : q.Reply} (hr : Stage.Allows .parked q)
    (hst : Standing l queue .parked) (hqueued : ∀ c, queued c = queue.contains c)
    (hopen : l.isOpen = true) (h : q.answer queued l shared = some (x, l', shared')) :
    Standing l' queue (Stage.after .parked q x) := by
  cases eq_await_of_allows hr
  obtain ⟨he, hq, hw⟩ := woken_of_answer hst hqueued hopen h
  simp only [Request.answer, hw] at h
  cases h
  exact .working (Or.inl rfl) [] he hq rfl

/-- A run that is over has no step. -/
theorem step_over {u : Thread Unit} (hc : u.Conforms Stage.isOver .ended) :
    u.step queued l shared = none := by
  cases hc with
  | done => rfl
  | crash hs => cases hs
  | spin hs => cases hs
  | ask hr => cases hr

/-- **A step of a run that somebody receives from keeps its standing.** -/
theorem step {u u' : Thread Unit} (hst : Standing l queue stage)
    (hc : u.Conforms Stage.isOver stage) (hqueued : ∀ c, queued c = queue.contains c)
    (hopen : l.isOpen = true) (h : u.step queued l shared = some (u', l', shared')) :
    ∃ stage', u'.Conforms Stage.isOver stage' ∧ Standing l' queue stage' := by
  rcases Thread.step_cases h with ⟨rfl, rfl, rfl, -⟩ | ⟨q, k, x, rfl, rfl, ha⟩
  · exact ⟨stage, hc, hst⟩
  · obtain ⟨hr, hk⟩ := hc.of_ask
    refine ⟨stage.after q x, hk x, ?_⟩
    cases hst with
    | working hs ms he hq hw => exact of_working hr hs he hq hw hopen ha
    | unread ms he hq hw => exact of_parked hr (.unread ms he hq hw) hqueued hopen ha
    | queued he hq hw => exact of_parked hr (.queued he hq hw) hqueued hopen ha
    | woken he hq hw => exact of_parked hr (.woken he hq hw) hqueued hopen ha
    | ended => exact hr.elim

end Standing

end FilterScript
