/-
What holds of a system at every moment.

`Sound` is the invariant of all histories.  At most one run is current, it is the
newest, its channel is open, and its continuation is where `Standing` says; the flag
of the interpreter that says whether it is suspended agrees with the queue, except
while a frame is delivered.  Every other run that was ever started is by-gone:
nobody receives from it, and it was cancelled or had ended before.

The exceptions are moments in the middle of a call.  Where the host has let go of a run,
the queue may still hold the continuation of that run until the next one is current, or
until a host that goes away rejects it; and a run that got no thread is current until the
host ends it, but then it is known to have sent nothing.
-/
import FilterScript.Proofs.Interpreter.Standing
import FilterScript.Proofs.Interpreter.System

namespace FilterScript

namespace HostPhase

/-- Whether the current run was told that it is replaced. -/
def isFlagged : HostPhase → Bool
  | flagged .. => true
  | leaving => true
  | _ => false

/-- Whether the queue may hold the continuation of a run that is by-gone. -/
def isCleared : HostPhase → Bool
  | cleared .. => true
  | left => true
  | _ => false

/-- Whether nobody can be current. -/
def isVacant : HostPhase → Bool
  | cleared .. => true
  | left => true
  | closed => true
  | _ => false

/-- Whether somebody must be current. -/
def isOccupied : HostPhase → Bool
  | held _ => true
  | woken .. => true
  | refused _ => true
  | _ => false

/-- How the flag that says whether the current run is suspended agrees with the
queue: while a frame is delivered it still says what it said before. -/
def Agrees (suspended : Bool) (queue : List Continuation) : HostPhase → Prop
  | woken _ awaited => suspended = awaited ∧ queue = []
  | _ => suspended = !queue.isEmpty

end HostPhase

/-- The interpreter when it has queued the continuation of the current run. -/
def Interpreter.queueing (i : Interpreter) (run : CurrentRun) (c : Continuation) : Interpreter :=
  { i with
    scheduler := { i.scheduler with pending := [c] }
    current := some { run with isSuspended := true } }

namespace Session

/-- The number of the newest run. -/
def newest (s : Session) : RunId := s.interpreter.generation

/-- The number of the current run. -/
def current? (s : Session) : Option RunId := s.interpreter.current.map (·.id)

/-- The continuations that the host has queued. -/
def queue (s : Session) : List Continuation := s.interpreter.scheduler.pending

/-- The session when the current run has ended: whoever waited was rejected, and nobody receives from
the run any longer. -/
structure Ending (s : Session) (run : CurrentRun) (w : Worker) (o : Outcome) (t : Session) : Prop where
  interpreter : t.interpreter = (s.interpreter.finish o).1
  worker : ∀ r, t.worker? r =
    if r = run.id then
      some (w.onLink fun l => (Link.wakeAll (s.interpreter.finish o).2 (l.remaining [])).shut)
    else (s.worker? r).map (·.onLink (Link.wakeAll (s.interpreter.finish o).2))

/-- What the host took in of the current run, when that led from `s` to `t`. -/
inductive Receipt (s : Session) (run : CurrentRun) (w : Worker) (stage : Stage) (t : Session) :
    Prop where
  | message (m : WorkerMessage) (rest : List RunEvent) (he : w.link.events = .message m :: rest)
      (hnotes : s.receiveNotes = []) (hi : t.interpreter = s.interpreter.say run.id m)
      (hview : ∀ r, t.worker? r =
        if r = run.id then some (w.onLink (Link.remaining rest)) else s.worker? r)
  | suspend (hs : stage = .parked) (he : w.link.events = [.suspend w.link.continuation])
      (hsignal : w.link.signal = none) (hnotes : s.receiveNotes = [])
      (hi : t.interpreter = s.interpreter.queueing run w.link.continuation)
      (hview : ∀ r, t.worker? r =
        if r = run.id then some (w.onLink (Link.remaining [])) else s.worker? r)
  /-- The thread reported how it ended, or it went away without a report. -/
  | ended (o : Outcome)
      (hsent : w.link.events = [.finished o] ∧ stage = .ended ∨
        w.link.events = [] ∧ w.thread = .crash ∧ o = lostOutcome)
      (ho : o ≠ .cancelled) (hnotes : s.receiveNotes = [.collected run.id o])
      (hending : s.Ending run w o t)

end Session

namespace System

/-- What holds of the current run. -/
structure Live (S : System) (run : CurrentRun) : Prop where
  newest : run.id = S.session.newest
  running : S.session.interpreter.scheduler.running = some run.id
  agrees : S.phase.Agrees run.isSuspended S.session.queue
  worker : ∃ w stage, S.session.worker? run.id = some w ∧ w.thread.Conforms Stage.isOver stage ∧
    w.link.isOpen = true ∧ w.link.isCancelled = S.phase.isFlagged ∧
    Standing w.link S.session.queue stage

/-- What holds of every other run. -/
structure Bygone (w : Worker) : Prop where
  /-- It was cancelled, or it had ended before. -/
  ended : ∃ stage, w.thread.Conforms Stage.isOver stage ∧
    (w.link.isCancelled = true ∨ stage = .ended ∨ w.thread = .crash)
  /-- Nobody receives from it. -/
  isClosed : w.link.isOpen = false
  /-- Nothing of it is left to take in. -/
  silent : w.link.events = []

/-- The invariant of all histories. -/
structure Sound (S : System) : Prop where
  /-- Runs are numbered in the order of their starts. -/
  known : ∀ r w, S.session.worker? r = some w → r ≤ S.session.newest
  live : ∀ run, S.session.interpreter.current = some run → Live S run
  bygone : ∀ r w, S.session.worker? r = some w → S.session.current? ≠ some r → Bygone w
  /-- Where nobody is current nobody waits. -/
  queue : S.session.interpreter.current = none → S.phase.isCleared = false → S.session.queue = []
  vacant : S.phase.isVacant = true → S.session.interpreter.current = none
  occupied : S.phase.isOccupied = true → S.session.interpreter.current ≠ none
  /-- A run that got no thread has sent nothing. -/
  refused : ∀ reason, S.phase = .refused reason → ∃ w,
    S.session.worker? S.session.newest = some w ∧ w.thread = .crash ∧ w.link.events = []

theorem sound_ofConfig (config : Config) (platform : Platform) :
    Sound (ofConfig config platform) where
  known r w h := by cases h
  live run h := by cases h
  bygone r w h := by cases h
  queue _ _ := rfl
  vacant h := by cases h
  occupied h := by cases h
  refused _ h := by cases h

end System

/-! ### Steps of threads -/

namespace System.Bygone

/-- A run that had ended takes no step, and one that was cancelled stays so. -/
theorem step {w : Worker} {u : Thread Unit} {l : Link} {queued : Continuation → Bool}
    {shared shared' : Surroundings} (h : Bygone w)
    (hs : w.thread.step queued w.link shared = some (u, l, shared')) : Bygone ⟨l, u⟩ := by
  have hspares := Thread.spares_of_step hs
  obtain ⟨stage, hc, hended⟩ := h.ended
  have htold : w.link.isCancelled = true := by
    rcases hended with ht | rfl | hcrash
    · exact ht
    · rw [Standing.step_over hc] at hs
      cases hs
    · rw [hcrash] at hs
      cases hs
  obtain ⟨stage', hc'⟩ := hc.step hs
  exact ⟨⟨stage', hc', Or.inl (hspares.isCancelled.trans htold)⟩,
    hspares.isOpen.trans h.isClosed, (hspares.events h.isClosed).trans h.silent⟩

/-- Signals change nothing for a by-gone run but its signal. -/
theorem wakeAll {w : Worker} (h : Bygone w) (ws : List Wakeup) :
    Bygone (w.onLink (Link.wakeAll ws)) := by
  obtain ⟨hended, hclosed, hsilent⟩ := h
  unfold Worker.onLink
  rw [Link.wakeAll_eq]
  exact ⟨hended, hclosed, hsilent⟩

end System.Bygone

namespace System.Sound

variable {s t : Session} {phase : HostPhase}

theorem current?_eq_some {run : CurrentRun} (hc : s.interpreter.current = some run) :
    s.current? = some run.id := by
  simp only [Session.current?, hc, Option.map_some]

/-- The run that begins next is not known yet. -/
theorem unstarted_next (h : Sound ⟨s, phase⟩) : s.worker? (s.newest + 1) = none := by
  cases hw : s.worker? (s.newest + 1) with
  | none => rfl
  | some w => exact absurd (h.known _ w hw) (Nat.not_succ_le_self _)

/-- The worker of the current run. -/
theorem live_worker (h : Sound ⟨s, phase⟩) {run : CurrentRun}
    (hc : s.interpreter.current = some run) :
    ∃ w stage, s.worker? run.id = some w ∧ w.thread.Conforms Stage.isOver stage ∧
      w.link.isOpen = true ∧ w.link.isCancelled = phase.isFlagged ∧ Standing w.link s.queue stage :=
  (h.live run hc).worker

theorem exists_current (h : Sound ⟨s, phase⟩) (hp : phase.isOccupied = true) :
    ∃ run, s.interpreter.current = some run :=
  Option.ne_none_iff_exists'.mp (h.occupied hp)

/-- Every thread keeps to the protocol. -/
theorem conforms (h : Sound ⟨s, phase⟩) {r : RunId} {w : Worker} (hw : s.worker? r = some w) :
    ∃ stage, w.thread.Conforms Stage.isOver stage := by
  by_cases hr : s.current? = some r
  · obtain ⟨run, hc, rfl⟩ := Option.map_eq_some_iff.mp hr
    obtain ⟨v, stage, hv, hconf, -⟩ := h.live_worker hc
    cases hw.symm.trans hv
    exact ⟨stage, hconf⟩
  · obtain ⟨stage, hconf, -⟩ := (h.bygone r w hw hr).ended
    exact ⟨stage, hconf⟩

/-- The channel of a run is open only if the run is current. -/
theorem current_of_isOpen (h : Sound ⟨s, phase⟩) {r : RunId} {w : Worker}
    (hw : s.worker? r = some w) (hopen : w.link.isOpen = true) : s.current? = some r := by
  by_cases hne : s.current? = some r
  · exact hne
  · rw [(h.bygone r w hw hne).isClosed] at hopen
    cases hopen

/-- A step of a thread. -/
theorem thread (h : Sound ⟨s, phase⟩) {r : RunId} (hs : s.advanceRun r = some t) :
    Sound ⟨t, phase⟩ := by
  obtain ⟨w, u, l, hw, hstep, hinterpreter, hview⟩ := Session.advanceRun_some hs
  have hspares := Thread.spares_of_step hstep
  refine ⟨?_, ?_, ?_, ?_, ?_, ?_, ?_⟩
  · intro r' w' hw'
    simp only [Session.newest, hinterpreter]
    rw [hview] at hw'
    split at hw'
    next hr =>
      subst hr
      exact h.known r' w hw
    next => exact h.known r' w' hw'
  · intro run hc
    rw [show t.interpreter.current = s.interpreter.current by rw [hinterpreter]] at hc
    obtain ⟨v, stage, hv, hconf, hopen, hcancelled, hst⟩ := h.live_worker hc
    refine ⟨?_, ?_, ?_, ?_⟩
    · simpa only [Session.newest, hinterpreter] using (h.live run hc).newest
    · simpa only [hinterpreter] using (h.live run hc).running
    · simpa only [Session.queue, hinterpreter] using (h.live run hc).agrees
    · by_cases hr : run.id = r
      · subst hr
        cases hw.symm.trans hv
        obtain ⟨stage', hconf', hst'⟩ := hst.step hconf (fun c => rfl) hopen hstep
        refine ⟨⟨l, u⟩, stage', by rw [hview, if_pos rfl], hconf', ?_, ?_, ?_⟩
        · exact hspares.isOpen.trans hopen
        · exact hspares.isCancelled.trans hcancelled
        · simpa only [Session.queue, hinterpreter] using hst'
      · refine ⟨v, stage, by rw [hview, if_neg hr]; exact hv, hconf, hopen, hcancelled, ?_⟩
        simpa only [Session.queue, hinterpreter] using hst
  · intro r' w' hw' hne
    rw [show t.current? = s.current? by simp only [Session.current?, hinterpreter]] at hne
    rw [hview] at hw'
    split at hw'
    next hr =>
      subst hr
      cases hw'
      exact (h.bygone r' w hw hne).step hstep
    next => exact h.bygone r' w' hw' hne
  · simpa only [Session.queue, hinterpreter] using h.queue
  · simpa only [hinterpreter] using h.vacant
  · simpa only [hinterpreter] using h.occupied
  · intro reason hp
    obtain ⟨v, hv, hcrash, hevents⟩ := h.refused reason hp
    refine ⟨v, ?_, hcrash, hevents⟩
    simp only [Session.newest, hinterpreter]
    rw [hview, if_neg]
    · exact hv
    -- A run without a thread takes no step.
    · intro hr
      cases (hr ▸ hw).symm.trans hv
      rw [hcrash] at hstep
      cases hstep

/-! ### Moves that leave the runs alone -/

/-- A move that changes neither the runs nor who is current and who waits, between
phases in which the same holds of them. -/
theorem congr {phase' : HostPhase} (h : Sound ⟨s, phase⟩)
    (hworker : ∀ r, t.worker? r = s.worker? r)
    (hcurrent : t.interpreter.current = s.interpreter.current)
    (hscheduler : t.interpreter.scheduler = s.interpreter.scheduler)
    (hnewest : t.newest = s.newest)
    (hflagged : s.interpreter.current ≠ none → phase'.isFlagged = phase.isFlagged)
    (hagrees : ∀ b q, phase.Agrees b q → phase'.Agrees b q)
    (hcleared : phase'.isCleared = false → phase.isCleared = false)
    (hvacant : phase'.isVacant = true → s.interpreter.current = none)
    (hoccupied : phase'.isOccupied = true → s.interpreter.current ≠ none)
    (hrefused : ∀ reason, phase' = .refused reason → phase = .refused reason) :
    Sound ⟨t, phase'⟩ := by
  have hqueue : t.queue = s.queue := by simp only [Session.queue, hscheduler]
  refine ⟨?_, ?_, ?_, ?_, ?_, ?_, ?_⟩
  · intro r w hw
    rw [hworker] at hw
    exact le_of_le_of_eq (h.known r w hw) hnewest.symm
  · intro run hc
    rw [hcurrent] at hc
    obtain ⟨w, stage, hw, hconf, hopen, hcancelled, hst⟩ := h.live_worker hc
    refine ⟨(h.live run hc).newest.trans hnewest.symm, ?_, ?_, w, stage, ?_, hconf, hopen, ?_, ?_⟩
    · simpa only [hscheduler] using (h.live run hc).running
    · exact hqueue ▸ hagrees _ _ (h.live run hc).agrees
    · exact (hworker run.id).trans hw
    · exact hcancelled.trans (hflagged (by simp [hc])).symm
    · exact hqueue ▸ hst
  · intro r w hw hne
    rw [hworker] at hw
    rw [show t.current? = s.current? by simp only [Session.current?, hcurrent]] at hne
    exact h.bygone r w hw hne
  · intro hc hp
    exact hqueue.trans (h.queue (hcurrent.symm.trans hc) (hcleared hp))
  · exact fun hp => hcurrent.trans (hvacant hp)
  · exact fun hp => by rw [hcurrent]; exact hoccupied hp
  · intro reason hp
    rw [show (System.mk t phase').session.newest = s.newest from hnewest]
    simpa only [hworker] using h.refused reason (hrefused reason hp)

/-- A phase between the parts of a call in which nothing is under way. -/
def isPlain : HostPhase → Bool
  | .ready => true
  | .collecting _ => true
  | .settling => true
  | _ => false

theorem agrees_of_isPlain (hp : isPlain phase = true) (b : Bool) (q : List Continuation) :
    phase.Agrees b q ↔ b = !q.isEmpty := by
  cases phase <;> simp [isPlain] at hp <;> exact Iff.rfl

theorem flags_of_isPlain (hp : isPlain phase = true) :
    phase.isFlagged = false ∧ phase.isCleared = false ∧ phase.isVacant = false ∧
      phase.isOccupied = false ∧ ∀ reason, phase ≠ .refused reason := by
  cases phase <;> simp [isPlain] at hp <;>
    simp [HostPhase.isFlagged, HostPhase.isCleared, HostPhase.isVacant, HostPhase.isOccupied]

/-- A move between plain phases that changes neither the runs nor who is current and
who waits. -/
theorem plain {phase' : HostPhase} (h : Sound ⟨s, phase⟩) (hp : isPlain phase = true)
    (hp' : isPlain phase' = true) (hworker : ∀ r, t.worker? r = s.worker? r)
    (hcurrent : t.interpreter.current = s.interpreter.current)
    (hscheduler : t.interpreter.scheduler = s.interpreter.scheduler)
    (hnewest : t.newest = s.newest) : Sound ⟨t, phase'⟩ := by
  obtain ⟨hf, hcl, -, -, -⟩ := flags_of_isPlain hp
  obtain ⟨hf', -, hv', ho', hr'⟩ := flags_of_isPlain hp'
  refine h.congr hworker hcurrent hscheduler hnewest ?_ ?_ ?_ ?_ ?_ ?_
  · exact fun _ => hf'.trans hf.symm
  · exact fun b q hb => (agrees_of_isPlain hp' b q).mpr ((agrees_of_isPlain hp b q).mp hb)
  · exact fun _ => hcl
  · simp [hv']
  · simp [ho']
  · exact fun reason hp => absurd hp (hr' reason)

end System.Sound

end FilterScript
