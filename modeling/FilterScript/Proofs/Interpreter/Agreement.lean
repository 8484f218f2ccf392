/-
The interpreter and its scheduler agree.

Who is current stands in four records: the run of the interpreter with its flag, the run and the queue
of the scheduler, the number of the newest run, and the numbers in the outbox.  `Sound` and `Ledger`
tie most of them; what they leave open is whether the scheduler is idle where nobody is current.  It is
not while one run is being replaced by another or the host goes away, and at every other moment it is:
otherwise a run stops being current only by `finish`, which stops the scheduler.  A run that gets no
thread is no exception, since it is current until it is finished like all others.

That at most one continuation is queued is due to the run and not to the host: it hands in another one
only when it has its signal, which is what `Standing` says of a parked run.
-/
import FilterScript.Proofs.Interpreter.Orphans
import FilterScript.Proofs.Interpreter.Waiting

namespace FilterScript

namespace Interpreter

/-- Where nobody is current the scheduler has no run either. -/
def IsIdle (i : Interpreter) : Prop := i.current = none → i.scheduler.running = none

theorem isIdle_finish {i : Interpreter} (h : i.IsIdle) (o : Outcome) : (i.finish o).1.IsIdle := by
  unfold finish
  split
  · exact h
  · exact fun _ => rfl

theorem isIdle_dispatch {i : Interpreter} (h : i.IsIdle) (e : RunEvent) :
    (i.dispatch e).1.IsIdle := by
  unfold dispatch
  split
  · exact h
  next run hrun =>
    cases e with
    | message m =>
        intro hnone
        cases hrun.symm.trans hnone
    | suspend c => exact fun hnone => by cases hnone
    | finished o => exact isIdle_finish h o

end Interpreter

namespace System

variable {S T : System} {ns : List Note} {s : Session} {phase : HostPhase} {r : RunId} {w : Worker}

/-- Whether the scheduler may be idle, where nobody is current: always but while a run is
replaced or the host goes away. -/
def Quiet (S : System) : Prop := S.phase.isCleared = false → S.session.interpreter.IsIdle

/-- The host stops its scheduler with the last run. -/
theorem Quiet.moves (h : Quiet S) (hm : Moves S ns T) : Quiet T := by
  cases hm with
  | flag s script moment =>
      intro _
      rw [show s.flag.interpreter = s.interpreter from Session.interpreter_onCurrent]
      exact h rfl
  | forget s script moment => exact fun hp => by cases hp
  | begin s script moment hserved =>
      intro _ hnone
      rw [Session.interpreter_begin] at hnone
      cases hnone
  | refuse s script moment reason hrefused =>
      intro _ hnone
      rw [Session.interpreter_begin] at hnone
      cases hnone
  | fail s reason =>
      intro _
      have hidle : s.interpreter.IsIdle := h rfl
      unfold Session.fail
      split
      · exact hidle
      · rw [Session.interpreter_closing]
        exact Interpreter.isIdle_finish hidle _
  | receive hr hphase =>
      intro _
      have hidle : Interpreter.IsIdle _ := h (by rcases hphase with ⟨purpose, rfl⟩ | rfl <;> rfl)
      obtain ⟨run, w, -, -, ⟨e, rest, -, rfl⟩ | ⟨-, -, rfl⟩⟩ := Session.receive_some hr
      · rw [Session.interpreter_closing]
        exact Interpreter.isIdle_dispatch hidle e
      · rw [Session.interpreter_closing]
        exact Interpreter.isIdle_finish hidle _
  | hold s moment hc =>
      intro _
      rw [show (s.onCurrent Link.holdClock).interpreter = s.interpreter from
        Session.interpreter_onCurrent]
      exact h rfl
  | tick s moment =>
      intro _ hnone
      rw [Session.interpreter_decide] at hnone ⊢
      exact h rfl hnone
  | release s moment awaited =>
      intro _
      have hidle : s.interpreter.IsIdle := h rfl
      unfold Session.release
      cases awaited with
      | false =>
          rw [if_neg (by simp), Session.interpreter_onCurrent]
          exact hidle
      | true =>
          rw [if_pos rfl]
          intro hnone
          simp only [Session.interpreter_onCurrent, Interpreter.resume,
            Option.map_eq_none_iff] at hnone ⊢
          exact hidle hnone
  | leave s =>
      intro _
      rw [show s.flag.interpreter = s.interpreter from Session.interpreter_onCurrent]
      exact h rfl
  | vacate s => exact fun hp => by cases hp
  | stop s =>
      intro _ _
      rw [Session.interpreter_decide]
      rfl
  | thread hs phase =>
      intro hp
      obtain ⟨w, u, l, -, -, hinterpreter, -⟩ := Session.advanceRun_some hs
      rw [hinterpreter]
      exact h hp
  | wait s phase time => exact h
  | _ => exact fun _ => h rfl

theorem quiet_play (config : Config) (platform : Platform) (ms : List Move) :
    Quiet ((ofConfig config platform).play ms).1 :=
  play_induction (P := fun _ => Quiet) (H := []) (fun h hm => h.moves hm) (fun _ _ => rfl) ms

end System

/-! ### The current run -/

namespace Session

/-- How the record of a current run and the scheduler agree. -/
structure Coupled (s : Session) (run : CurrentRun) : Prop where
  newest : run.id = s.interpreter.generation
  running : s.interpreter.scheduler.running = some run.id
  /-- Nobody else waits. -/
  mine : ∀ c ∈ s.interpreter.scheduler.pending, c.run = run.id
  one : s.interpreter.scheduler.pending.length ≤ 1
  suspended : run.isSuspended = true ↔ s.interpreter.scheduler.pending.length = 1

/-- A tick resumes a run: the run waits and has no step, and with the tick it has one, with the signal
of a frame. -/
structure Resumes (s : Session) (r : RunId) : Prop where
  stuck : s.advanceRun r = none
  wakes : ∃ w, (s.decide Interpreter.tick).worker? r = some w ∧ w.isWaiting = true ∧
    w.link.signal = some .frame
  goes : ∃ t, (s.decide Interpreter.tick).advanceRun r = some t

end Session

namespace System

variable {s : Session} {phase : HostPhase} {run : CurrentRun} {r : RunId} {w : Worker}

theorem coupled (hS : Sound ⟨s, phase⟩) (hphase : phase.isBetween = true)
    (hc : s.interpreter.current = some run) : s.Coupled run := by
  obtain ⟨w, stage, hw, -, -, -, hst⟩ := hS.live_worker hc
  have hsuspended : run.isSuspended = !s.queue.isEmpty := by
    have hagrees := (hS.live run hc).agrees
    cases phase <;> simp [HostPhase.isBetween] at hphase <;> exact hagrees
  have hqueue : s.queue = [] ∨ s.queue = [w.link.continuation] := by
    cases hst with
    | working hs ms he hq hw => exact .inl hq
    | unread ms he hq hw => exact .inl hq
    | queued he hq hw => exact .inr hq
    | woken he hq hw => exact .inl hq
    | ended ms o he hq hw ho => exact .inl hq
  have hlive := hS.live run hc
  unfold Session.queue at hqueue hsuspended
  refine ⟨hlive.newest, hlive.running, ?_, ?_, ?_⟩
  · intro c hmem
    rcases hqueue with hq | hq
    · rw [hq] at hmem
      cases hmem
    · rw [hq, List.mem_singleton] at hmem
      rw [hmem]
      exact Session.run_of_worker? hw
  · rcases hqueue with hq | hq <;> simp [hq]
  · rcases hqueue with hq | hq <;> simp [hq, hsuspended]

/-- A run whose continuation is queued waits for it. -/
theorem isWaiting_of_parked (hconf : w.thread.Conforms Stage.isOver .parked) :
    w.isWaiting = true := by
  unfold Worker.isWaiting
  cases hthread : w.thread with
  | done a =>
      rw [hthread] at hconf
      cases hconf with
      | done hover => cases hover
  | crash =>
      rw [hthread] at hconf
      cases hconf with
      | crash hstop => cases hstop
  | spin =>
      rw [hthread] at hconf
      cases hconf with
      | spin hstop => cases hstop
  | ask q k =>
      rw [hthread] at hconf
      cases Standing.eq_await_of_allows hconf.of_ask.1
      rfl

/-- What a tick does to the run that it wakes. -/
theorem worker?_tick (hw : s.worker? r = some w) (hq : s.queue = [w.link.continuation]) :
    (s.decide Interpreter.tick).worker? r =
      some (w.onLink fun l => { l with signal := some .frame }) := by
  rw [Session.worker?_decide, hw]
  have hwakeups : s.interpreter.tick.2 = [⟨w.link.continuation, .frame⟩] := by
    show Scheduler.wake .frame s.queue = _
    rw [hq]
    rfl
  rw [hwakeups, Option.map_some]
  congr 1
  unfold Worker.onLink
  congr 1
  exact if_pos rfl

/-- Whoever is woken by a tick and could not go on before was queued. -/
theorem queued_of_resumes (h : s.Resumes r) : ∃ c ∈ s.queue, c.run = r := by
  obtain ⟨hstuck, ⟨w', hw', hwait', hsignal'⟩, -⟩ := h
  -- The tick leaves the thread alone, so the run waited before it.
  rw [Session.worker?_decide, Option.map_eq_some_iff] at hw'
  obtain ⟨w, hw, rfl⟩ := hw'
  have hwait : w.isWaiting = true := hwait'
  rcases Link.signal_wakeAll s.interpreter.tick.2 w.link with hsame | ⟨u, hu, hmine, -⟩
  · have hanswered : s.IsAnswered w := .inl fun hnone => by
      have hframe : (Link.wakeAll s.interpreter.tick.2 w.link).signal = some .frame := hsignal'
      rw [hsame, hnone] at hframe
      cases hframe
    obtain ⟨t, ht⟩ := (isAnswered_iff hw hwait).mp hanswered
    cases hstuck.symm.trans ht
  · obtain ⟨c, hc, rfl⟩ : ∃ c ∈ s.queue, (⟨c, .frame⟩ : Wakeup) = u := List.mem_map.mp hu
    refine ⟨c, hc, ?_⟩
    rw [show c = w.link.continuation from hmine]
    exact Session.run_of_worker? hw

theorem isCleared_of_isBetween (hphase : phase.isBetween = true) : phase.isCleared = false := by
  cases phase <;> simp [HostPhase.isBetween] at hphase <;> rfl

/-- The current run is resumed by a tick if it is marked as suspended. -/
theorem resumes_of_suspended (hS : Sound ⟨s, phase⟩) (hphase : phase.isBetween = true)
    (hc : s.interpreter.current = some run) (hsuspended : run.isSuspended = true) :
    s.Resumes run.id := by
  obtain ⟨w, stage, hw, hconf, hopen, -, hst⟩ := hS.live_worker hc
  have hqueued : s.queue ≠ [] := by
    intro hnil
    have hone := (coupled hS hphase hc).suspended.mp hsuspended
    rw [show s.interpreter.scheduler.pending = [] from hnil] at hone
    cases hone
  cases hst with
  | working hs ms he hq hw => exact absurd hq hqueued
  | unread ms he hq hw => exact absurd hq hqueued
  | woken he hq hw => exact absurd hq hqueued
  | ended ms o he hq hw ho => exact absurd hq hqueued
  | queued he hq hsignal =>
      have hwait := isWaiting_of_parked hconf
      have hwoken := worker?_tick hw hq
      have hstuck : ¬ ∃ t, s.advanceRun run.id = some t := by
        rw [← isAnswered_iff hw hwait]
        rintro (hsome | ⟨-, hnot⟩)
        · exact hsome hsignal
        · exact hnot (by simp [hq])
      refine ⟨?_, ⟨_, hwoken, hwait, rfl⟩, ?_⟩
      · exact Option.eq_none_iff_forall_ne_some.mpr fun t ht => hstuck ⟨t, ht⟩
      · exact (isAnswered_iff hwoken hwait).mp (.inl (by simp [Worker.onLink]))

/-- The interpreter calls itself suspended exactly if its current run is marked so. -/
theorem state_eq_suspended_iff (i : Interpreter) :
    i.state = .suspended ↔ ∃ run, i.current = some run ∧ run.isSuspended = true := by
  unfold Interpreter.state
  cases i.current with
  | none => simp
  | some run => cases hb : run.isSuspended <;> simp [hb]

/-- A tick resumes the current run if that is marked as suspended, and nobody else. -/
theorem resumes_iff (hS : Sound ⟨s, phase⟩) (hphase : phase.isBetween = true) :
    s.Resumes r ↔ s.interpreter.state = .suspended ∧ s.current? = some r := by
  rw [state_eq_suspended_iff]
  constructor
  · intro hr
    obtain ⟨c, hqueued, rfl⟩ := queued_of_resumes hr
    cases hc : s.interpreter.current with
    | none =>
        rw [hS.queue hc (isCleared_of_isBetween hphase)] at hqueued
        cases hqueued
    | some run =>
        have hcoupled := coupled hS hphase hc
        have hpos : 0 < s.interpreter.scheduler.pending.length := List.length_pos_of_mem hqueued
        have hone := hcoupled.one
        refine ⟨⟨run, rfl, hcoupled.suspended.mpr (by omega)⟩, ?_⟩
        rw [hcoupled.mine c hqueued]
        exact Sound.current?_eq_some hc
  · rintro ⟨⟨run, hc, hsuspended⟩, hcurrent⟩
    rw [Sound.current?_eq_some hc] at hcurrent
    cases hcurrent
    exact resumes_of_suspended hS hphase hc hsuspended

/-! ### Every history -/

theorem newest_le_play (S : System) (ms : List Move) :
    S.session.newest ≤ (S.play ms).1.session.newest := by
  induction ms generalizing S with
  | nil => exact Nat.le_refl _
  | cons m ms ih => exact Nat.le_trans (newest_le_step S m) (ih _)

/-- How the records of the host agree. -/
structure Agreement (S : System) : Prop where
  /-- Where nobody is current, the scheduler is idle and nobody waits. -/
  idle : S.phase.isBetween = true → S.session.interpreter.current = none →
    S.session.interpreter.scheduler.running = none ∧ S.session.interpreter.scheduler.pending = []
  coupled : S.phase.isBetween = true → ∀ run, S.session.interpreter.current = some run →
    S.session.Coupled run
  /-- A tick resumes the current run exactly if the interpreter says that it is suspended, and it
  resumes nobody else. -/
  suspended : S.phase.isBetween = true → ∀ r, S.session.Resumes r ↔
    S.session.interpreter.state = .suspended ∧ S.session.current? = some r
  /-- The numbers in the outbox do not decrease. -/
  ordered : (S.session.interpreter.outbox.map (·.1)).Pairwise (· ≤ ·)
  /-- None is above that of the newest run. -/
  bounded : ∀ m ∈ S.session.interpreter.outbox, m.1 ≤ S.session.interpreter.generation
  /-- That number does not decrease, whatever happens next. -/
  grows : ∀ ms, S.session.interpreter.generation ≤ (S.play ms).1.session.interpreter.generation

/-- **Interpreter and scheduler agree at every moment of every history** at which no call of the host
is under way. -/
theorem agreement (config : Config) (platform : Platform) (ms : List Move) :
    Agreement ((ofConfig config platform).play ms).1 := by
  have hS := sound_play config platform ms
  have hL := (known_play config platform ms).ledger
  have hrests := quiet_play config platform ms
  generalize ((ofConfig config platform).play ms).2 = H at hL
  generalize ((ofConfig config platform).play ms).1 = S at hS hL hrests
  obtain ⟨s, phase⟩ := S
  refine ⟨?_, fun hphase run hc => coupled hS hphase hc, fun hphase r => resumes_iff hS hphase, ?_,
    ?_, newest_le_play _⟩
  · intro hphase hnone
    have hcleared := isCleared_of_isBetween hphase
    exact ⟨hrests hcleared hnone, hS.queue hnone hcleared⟩
  · rw [List.pairwise_map]
    exact (List.pairwise_append.mp hL.ordered).2.1
  · intro m hm
    exact hL.bounded m (List.mem_append_right _ hm)

end System

end FilterScript
