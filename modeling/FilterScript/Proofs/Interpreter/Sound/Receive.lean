/-
The host takes in what the current run sent.

That is a message, a continuation or an outcome, or that the thread went away.  The run
stays current with the first two and is by-gone with the others.  `receipt` says which of
them it can be, by where the continuation of the run is, and what the session looks like
then.  A run that got no thread ends in the same way, only without anything to take in.
-/
import FilterScript.Proofs.Interpreter.Sound.Basic

namespace FilterScript

namespace System.Sound

variable {s t : Session} {phase : HostPhase}

/-! ### The current run goes on

The host changes the link of the run that is current and stays so, and sends signals.
-/

/-- A move after which the same run is current. -/
theorem update {phase' : HostPhase} {run : CurrentRun} {w : Worker} (h : Sound ⟨s, phase⟩)
    (run' : CurrentRun)
    (hc : s.interpreter.current = some run) (hc' : t.interpreter.current = some run')
    (hid : run'.id = run.id) (hnewest : t.newest = s.newest)
    (hrunning : t.interpreter.scheduler.running = some run.id)
    (hagrees : phase'.Agrees run'.isSuspended t.queue) (hw : t.worker? run.id = some w)
    (hlive : ∃ stage, w.thread.Conforms Stage.isOver stage ∧ w.link.isOpen = true ∧
      w.link.isCancelled = phase'.isFlagged ∧ Standing w.link t.queue stage)
    (hothers : ∃ ws, ∀ r ≠ run.id, t.worker? r = (s.worker? r).map (·.onLink (Link.wakeAll ws)))
    (hrefused : ∀ reason, phase' ≠ .refused reason) (hvacant : phase'.isVacant = false) :
    Sound ⟨t, phase'⟩ := by
  obtain ⟨stage, hconf, hopen, hcancelled, hst⟩ := hlive
  obtain ⟨ws, hothers⟩ := hothers
  refine ⟨?_, ?_, ?_, ?_, ?_, ?_, ?_⟩
  · intro r v hv
    rw [hnewest]
    by_cases hr : r = run.id
    · rw [hr]
      exact Nat.le_of_eq (h.live run hc).newest
    · rw [hothers r hr, Option.map_eq_some_iff] at hv
      obtain ⟨u, hu, -⟩ := hv
      exact h.known r u hu
  · intro run₁ hc₁
    cases hc'.symm.trans hc₁
    refine ⟨?_, hid ▸ hrunning, hagrees, w, stage, hid ▸ hw, hconf, hopen, hcancelled, hst⟩
    exact (hid.trans (h.live run hc).newest).trans hnewest.symm
  · intro r v hv hne
    rw [current?_eq_some hc', hid] at hne
    have hr : r ≠ run.id := fun he => hne (by rw [he])
    rw [hothers r hr, Option.map_eq_some_iff] at hv
    obtain ⟨u, hu, rfl⟩ := hv
    exact (h.bygone r u hu (by rw [current?_eq_some hc]; exact hne)).wakeAll ws
  · intro hn
    rw [hc'] at hn
    cases hn
  · simp [hvacant]
  · intro _
    rw [hc']
    simp
  · exact fun reason hp => absurd hp (hrefused reason)

/-- Nothing is sent to the others. -/
theorem others_of_eq {run : CurrentRun} (hview : ∀ r ≠ run.id, t.worker? r = s.worker? r) :
    ∃ ws, ∀ r ≠ run.id, t.worker? r = (s.worker? r).map (·.onLink (Link.wakeAll ws)) := by
  refine ⟨[], fun r hr => ?_⟩
  rw [hview r hr]
  cases s.worker? r <;> rfl

/-- The host reads what the current run said. -/
theorem message (h : Sound ⟨s, phase⟩) (hp : isPlain phase = true) {run : CurrentRun}
    {w : Worker} {m : WorkerMessage} {rest : List RunEvent}
    (hc : s.interpreter.current = some run) (hw : s.worker? run.id = some w)
    (he : w.link.events = .message m :: rest) (hi : t.interpreter = s.interpreter.say run.id m)
    (hview : ∀ r, t.worker? r =
      if r = run.id then some (w.onLink (Link.remaining rest)) else s.worker? r) :
    Sound ⟨t, phase⟩ := by
  obtain ⟨hflagged, -, hvacant, -, hrefused⟩ := flags_of_isPlain hp
  obtain ⟨v, stage, hv, hconf, hopen, hcancelled, hst⟩ := h.live_worker hc
  cases hw.symm.trans hv
  have hqueue : t.queue = s.queue := by
    simp only [Session.queue, hi]
    rfl
  refine h.update run hc ?_ rfl ?_ ?_ ?_ ((hview run.id).trans (if_pos rfl))
    ⟨stage, hconf, hopen, hcancelled, ?_⟩
    (others_of_eq fun r hr => (hview r).trans (if_neg hr)) hrefused hvacant
  · rw [hi]
    exact hc
  · simp only [Session.newest, hi]
    rfl
  · rw [hi]
    exact (h.live run hc).running
  · rw [hqueue]
    exact (h.live run hc).agrees
  · rw [hqueue]
    cases hst with
    | working hs ms hms hq hs' =>
        cases ms with
        | nil => simp [he] at hms
        | cons m' ms =>
            have hrest : rest = ms.map .message := by simp_all
            exact .working hs ms hrest hq hs'
    | unread ms hms hq hs' =>
        cases ms with
        | nil => simp [he] at hms
        | cons m' ms =>
            have hrest : rest = ms.map .message ++ [.suspend w.link.continuation] := by simp_all
            exact .unread ms hrest hq hs'
    | queued hms hq hs' => simp [he] at hms
    | woken hms hq hs' => simp [he] at hms
    | ended ms o hms hq hs' ho =>
        cases ms with
        | nil => simp [he] at hms
        | cons m' ms =>
            have hrest : rest = ms.map .message ++ [.finished o] := by simp_all
            exact .ended ms o hrest hq hs' ho

/-- The host reads a continuation, which is that of the current run, and queues it. -/
theorem suspend (h : Sound ⟨s, phase⟩) (hp : isPlain phase = true) {run : CurrentRun} {w : Worker}
    (hc : s.interpreter.current = some run) (hw : s.worker? run.id = some w)
    (hconf : w.thread.Conforms Stage.isOver .parked) (hsignal : w.link.signal = none)
    (hi : t.interpreter = s.interpreter.queueing run w.link.continuation)
    (hview : ∀ r, t.worker? r =
      if r = run.id then some (w.onLink (Link.remaining [])) else s.worker? r) :
    Sound ⟨t, phase⟩ := by
  obtain ⟨hflagged, -, hvacant, -, hrefused⟩ := flags_of_isPlain hp
  obtain ⟨v, stage, hv, -, hopen, hcancelled, -⟩ := h.live_worker hc
  cases hw.symm.trans hv
  have hqueue : t.queue = [w.link.continuation] := by
    simp only [Session.queue, hi, Interpreter.queueing]
  refine h.update { run with isSuspended := true } hc ?_ rfl ?_ ?_ ?_
    ((hview run.id).trans (if_pos rfl)) ⟨.parked, hconf, hopen, hcancelled, ?_⟩
    (others_of_eq fun r hr => (hview r).trans (if_neg hr)) hrefused hvacant
  · rw [hi]
    rfl
  · simp only [Session.newest, hi]
    rfl
  · rw [hi]
    exact (h.live run hc).running
  · rw [agrees_of_isPlain hp, hqueue]
    rfl
  · exact .queued rfl hqueue hsignal

/-! ### The current run ends -/

theorem current_finish (i : Interpreter) (o : Outcome) : (i.finish o).1.current = none := by
  simp only [Interpreter.finish]
  split
  · assumption
  · cases o <;> rfl

theorem generation_finish (i : Interpreter) (o : Outcome) :
    (i.finish o).1.generation = i.generation := by
  simp only [Interpreter.finish]
  split
  · rfl
  · cases o <;> rfl

theorem pending_finish {i : Interpreter} (o : Outcome) (hc : i.current ≠ none) :
    (i.finish o).1.scheduler.pending = [] := by
  simp only [Interpreter.finish]
  split
  next hn => exact absurd hn hc
  · cases o <;> rfl

theorem resume_wake {resume : Resume} {cs : List Continuation} {x : Wakeup}
    (hx : x ∈ Scheduler.wake resume cs) : x.resume = resume := by
  obtain ⟨c, -, rfl⟩ := List.mem_map.mp hx
  rfl

/-- Whoever waits when a run ends is rejected. -/
theorem resume_finish {i : Interpreter} (o : Outcome) : ∀ x ∈ (i.finish o).2, x.resume = .cancelled := by
  intro x hx
  simp only [Interpreter.finish] at hx
  split at hx
  · cases hx
  · cases o <;> exact resume_wake hx

/-- A move with which the current run ends, which has come to its end or has no thread. -/
theorem finish {phase' : HostPhase} (h : Sound ⟨s, phase⟩) (hp : isPlain phase' = true)
    {run : CurrentRun} {w : Worker} {o : Outcome} (hc : s.interpreter.current = some run)
    (hw : s.worker? run.id = some w)
    (hended : ∃ stage, w.thread.Conforms Stage.isOver stage ∧ (stage = .ended ∨ w.thread = .crash))
    (hending : s.Ending run w o t) : Sound ⟨t, phase'⟩ := by
  obtain ⟨-, -, hvacant, hoccupied, hrefused⟩ := flags_of_isPlain hp
  obtain ⟨stage, hconf, hstage⟩ := hended
  obtain ⟨hi, hview⟩ := hending
  have hcurrent : t.interpreter.current = none := by rw [hi, current_finish]
  refine ⟨?_, ?_, ?_, fun _ _ => ?_, fun _ => hcurrent, by simp [hoccupied],
    fun reason hp => absurd hp (hrefused reason)⟩
  · intro r u hu
    rw [show t.newest = s.newest by simp only [Session.newest, hi, generation_finish]]
    rw [hview] at hu
    split at hu
    next hr => exact hr ▸ h.known run.id w hw
    · obtain ⟨v, hv, -⟩ := Option.map_eq_some_iff.mp hu
      exact h.known r v hv
  · intro run₁ hc₁
    rw [hcurrent] at hc₁
    cases hc₁
  · intro r u hu _
    rw [hview] at hu
    split at hu
    · cases hu
      refine ⟨⟨stage, hconf, Or.inr hstage⟩, rfl, rfl⟩
    next hr =>
      obtain ⟨v, hv, rfl⟩ := Option.map_eq_some_iff.mp hu
      refine (h.bygone r v hv ?_).wakeAll _
      rw [current?_eq_some hc]
      exact fun he => hr (Option.some.inj he).symm
  · simp only [Session.queue, hi,
      pending_finish o (show s.interpreter.current ≠ none by simp [hc])]

/-! ### What the host takes in -/

section Receipts

variable {run : CurrentRun} {w : Worker} {stage : Stage}

/-- A run of which nothing is left to take in. -/
theorem ending_closing {o : Outcome} (hw : s.worker? run.id = some w) (he : w.link.events = []) :
    s.Ending run w o (s.closing run.id fun i => i.finish o) := by
  refine ⟨Session.interpreter_closing _, fun r => ?_⟩
  rw [Session.worker?_closing]
  simp only [current_finish, true_and]
  split
  next hr =>
    have hsame : w.link.remaining [] = w.link := by rw [← he]; rfl
    rw [hr, hw, Option.map_some, Worker.onLink, Worker.onLink, hsame]
  · rfl

/-- The host reads a message. -/
theorem receipt_message {m : WorkerMessage} {rest : List RunEvent}
    (hc : s.interpreter.current = some run) (hw : s.worker? run.id = some w)
    (he : w.link.events = .message m :: rest) :
    s.Receipt run w stage ((s.onLink run.id (Link.remaining rest)).closing run.id
      fun i => i.dispatch (.message m)) := by
  have hdispatch : s.interpreter.dispatch (.message m) = (s.interpreter.say run.id m, []) := by
    simp [Interpreter.dispatch, hc]
  have hcurrent : (s.interpreter.say run.id m).current = some run := hc
  refine .message m rest he (by simp only [Session.receiveNotes, hc, hw, he]) ?_ fun r => ?_
  · simp [hdispatch]
  · rw [Session.worker?_received hw]
    simp only [hdispatch, hcurrent, reduceCtorEq, if_false]
    split
    · rfl
    · cases s.worker? r <;> rfl

/-- The host reads a continuation: it is the last thing that the run sent, and the run waits with it. -/
theorem receipt_suspend {c : Continuation} {rest : List RunEvent}
    (hc : s.interpreter.current = some run) (hw : s.worker? run.id = some w)
    (hrunning : s.interpreter.scheduler.running = some run.id) (hst : Standing w.link s.queue stage)
    (he : w.link.events = .suspend c :: rest) :
    s.Receipt run w stage ((s.onLink run.id (Link.remaining rest)).closing run.id
      fun i => i.dispatch (.suspend c)) := by
  obtain ⟨rfl, rfl, rfl, hqueue, hsignal⟩ : stage = .parked ∧ c = w.link.continuation ∧
      rest = [] ∧ s.queue = [] ∧ w.link.signal = none := by
    cases hst with
    | working hs ms hms => cases ms <;> simp [he] at hms
    | unread ms hms hq hs' => cases ms <;> simp_all
    | queued hms => simp [he] at hms
    | woken hms => simp [he] at hms
    | ended ms o hms => cases ms <;> simp [he] at hms
  have haccepted : s.interpreter.scheduler.running = some w.link.continuation.run := by
    rw [hrunning, ← Session.run_of_worker? hw]
    rfl
  have hpending : s.interpreter.scheduler.pending = [] := hqueue
  have hdispatch : s.interpreter.dispatch (.suspend w.link.continuation) =
      (s.interpreter.queueing run w.link.continuation, []) := by
    simp [Interpreter.dispatch, hc, Scheduler.suspend, haccepted, hpending, Interpreter.queueing]
  refine .suspend rfl he hsignal (by simp only [Session.receiveNotes, hc, hw, he]) ?_ fun r => ?_
  · simp [hdispatch]
  · rw [Session.worker?_received hw, hdispatch]
    split
    · rfl
    · cases s.worker? r <;> rfl

/-- The host reads how the run has ended; a run that was not told to give up did not. -/
theorem receipt_finished {o : Outcome} {rest : List RunEvent}
    (hc : s.interpreter.current = some run) (hw : s.worker? run.id = some w)
    (hcancelled : w.link.isCancelled = false) (hst : Standing w.link s.queue stage)
    (he : w.link.events = .finished o :: rest) :
    s.Receipt run w stage ((s.onLink run.id (Link.remaining rest)).closing run.id
      fun i => i.dispatch (.finished o)) := by
  obtain ⟨rfl, rfl, ho⟩ : stage = .ended ∧ rest = [] ∧ (o = .cancelled → w.link.isCancelled) := by
    cases hst with
    | working hs ms hms => cases ms <;> simp [he] at hms
    | unread ms hms hq hs' => cases ms <;> simp [he] at hms
    | queued hms => simp [he] at hms
    | woken hms => simp [he] at hms
    | ended ms o hms hq hs' ho => cases ms <;> simp_all
  have hdispatch : s.interpreter.dispatch (.finished o) = s.interpreter.finish o := by
    simp [Interpreter.dispatch, hc]
  refine .ended o (Or.inl ⟨he, rfl⟩) (fun hcan => ?_)
    (by simp only [Session.receiveNotes, hc, hw, he]) ⟨?_, fun r => ?_⟩
  · simp [ho hcan] at hcancelled
  · simp [hdispatch]
  · rw [Session.worker?_received hw]
    simp only [hdispatch, current_finish, if_true]

/-- A thread that is over without a report went away. -/
theorem eq_crash_of_isOver (hconf : w.thread.Conforms Stage.isOver stage)
    (hst : Standing w.link s.queue stage) (he : w.link.events = []) (hover : w.thread.isOver = true) :
    w.thread = .crash := by
  cases hthread : w.thread with
  | done u =>
      rw [hthread] at hconf
      cases hconf with
      | done hstage =>
          cases hstage
          cases hst with
          | working hs => rcases hs with hs | hs | ⟨hs, -⟩ <;> cases hs
          | ended ms o hms => simp [he] at hms
  | crash => rfl
  | spin => simp [hthread, Thread.isOver] at hover
  | ask q k => simp [hthread, Thread.isOver] at hover

end Receipts

/-- **What the host takes in of the current run is one of three things.** -/
theorem receipt (h : Sound ⟨s, phase⟩) (hp : isPlain phase = true) (hr : s.receive = some t) :
    ∃ run w stage, s.interpreter.current = some run ∧ s.worker? run.id = some w ∧
      w.thread.Conforms Stage.isOver stage ∧ s.Receipt run w stage t := by
  obtain ⟨run, w, hc, hw, hcases⟩ := Session.receive_some hr
  obtain ⟨v, stage, hv, hconf, hopen, hcancelled, hst⟩ := h.live_worker hc
  cases hw.symm.trans hv
  rw [(flags_of_isPlain hp).1] at hcancelled
  refine ⟨run, w, stage, hc, hw, hconf, ?_⟩
  rcases hcases with ⟨e, rest, he, rfl⟩ | ⟨he, hover, rfl⟩
  · cases e with
    | message m => exact receipt_message hc hw he
    | suspend c => exact receipt_suspend hc hw (h.live run hc).running hst he
    | finished o => exact receipt_finished hc hw hcancelled hst he
  · exact .ended Session.lostOutcome
      (Or.inr ⟨he, eq_crash_of_isOver hconf hst he hover, rfl⟩) (by simp [Session.lostOutcome])
      (by simp only [Session.receiveNotes, hc, hw, he]) (ending_closing hw he)

/-- Whatever the host takes in. -/
theorem receive (h : Sound ⟨s, phase⟩) (hp : isPlain phase = true) (hr : s.receive = some t) :
    Sound ⟨t, phase⟩ := by
  obtain ⟨run, w, stage, hc, hw, hconf, hreceipt⟩ := h.receipt hp hr
  cases hreceipt with
  | message m rest he hnotes hi hview => exact h.message hp hc hw he hi hview
  | suspend hs he hsignal hnotes hi hview => exact h.suspend hp hc hw (hs ▸ hconf) hsignal hi hview
  | ended o hsent ho hnotes hending =>
      exact h.finish hp hc hw ⟨stage, hconf, hsent.imp (·.2) (·.2.1)⟩ hending

/-! ### A run that got no thread -/

/-- **A run that got no thread has sent nothing and is ended like one that was lost.** -/
theorem failure {reason : String} (h : Sound ⟨s, .refused reason⟩) :
    ∃ run w, s.interpreter.current = some run ∧ s.worker? run.id = some w ∧ w.thread = .crash ∧
      w.link.events = [] ∧ s.failNotes reason = [.collected run.id (Session.unstartedOutcome reason)] ∧
      s.Ending run w (Session.unstartedOutcome reason) (s.fail reason) := by
  obtain ⟨run, hc⟩ := h.exists_current rfl
  obtain ⟨w, hw, hcrash, he⟩ := h.refused reason rfl
  rw [show (System.mk s (.refused reason)).session.newest = run.id from
    (h.live run hc).newest.symm] at hw
  refine ⟨run, w, hc, hw, hcrash, he, by simp [Session.failNotes, hc], ?_⟩
  rw [Session.fail_eq hc]
  exact ending_closing hw he

/-- The run that got no thread is ended. -/
theorem fail {reason : String} (h : Sound ⟨s, .refused reason⟩) : Sound ⟨s.fail reason, .ready⟩ := by
  obtain ⟨run, w, hc, hw, hcrash, -, -, hending⟩ := h.failure
  obtain ⟨v, stage, hv, hconf, -⟩ := h.live_worker hc
  cases hw.symm.trans hv
  exact h.finish rfl hc hw ⟨stage, hconf, Or.inr hcrash⟩ hending

end System.Sound

end FilterScript
