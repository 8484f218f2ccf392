/-
The host and the threads of all runs, in every order of their steps.

A call of the host is not one step: between two of its parts the threads may do
anything.  `System` adds to a session how far the host is with its call, and a
`Move` is one part of a call, one step of one thread, or the passing of time.  The
parts of the calls are the functions that the calls of a session are made of, so a
call whose parts follow one another without a step in between is the call of the
session.

A history is a list of moves, all of them allowed in every order: a move that is not
possible changes nothing.  What happens on the way is written down in notes, and
what is said of a history is said of its notes.

The machine decides which runs get a thread.  Nothing is asked of it, so what holds of
every history holds whatever starts fail.
-/
import FilterScript.Interpreter.Settle
import FilterScript.Proofs.Interpreter.View

namespace FilterScript

/-- What a host can ask for. -/
inductive Call where
  | start (script : String) (moment : Moment)
  | poll
  | frame (moment : Moment)
  | settle
  | update (name : String) (value : Widget.Value)
  | clearWidgets
  | prune
  | takeDiagnostics
  | close

/-- What a call does when there is nothing left to take in. -/
inductive Purpose where
  | poll
  | frame (moment : Moment)
deriving DecidableEq

/-- How far the host is with its call. -/
inductive HostPhase where
  | ready
  /-- The current run was told that it is replaced. -/
  | flagged (script : String) (moment : Moment)
  /-- Nobody is current, and a continuation of the last run may still be queued. -/
  | cleared (script : String) (moment : Moment)
  /-- The current run got no thread, for some reason. -/
  | refused (reason : String)
  | collecting (purpose : Purpose)
  /-- The clock of the current run is held. -/
  | held (moment : Moment)
  /-- Whoever waited was woken; whether somebody did. -/
  | woken (moment : Moment) (awaited : Bool)
  | settling
  /-- The current run was told that the host goes away. -/
  | leaving
  /-- Nobody is current, and a continuation of the last run may still be queued. -/
  | left
  | closed
deriving DecidableEq

/-- What is written down of a history. -/
inductive Note where
  /-- A run posted a message, and somebody received it. -/
  | said (run : RunId) (message : WorkerMessage)
  /-- A run looked whether it was replaced. -/
  | looked (run : RunId)
  /-- A run marked a widget. -/
  | marked (run : RunId) (name : String)
  /-- A run reported how it ended. -/
  | reported (run : RunId) (outcome : Outcome)
  /-- There was no thread for a run. -/
  | refused (run : RunId) (reason : String)
  /-- The host replaced a run that was current, or went away from it. -/
  | abandoned (run : RunId)
  /-- The host took in how a run ended, or ended one that got no thread. -/
  | collected (run : RunId) (outcome : Outcome)
  /-- A poll returned these messages. -/
  | handed (batch : List (RunId × WorkerMessage))
deriving DecidableEq

/-- What is noted when a run gets this reply. -/
def Note.ofReply (r : RunId) : (q : Request) → q.Reply → List Note
  | .post m, true => [.said r m]
  | .post _, false => []
  | .isCancelled, _ => [.looked r]
  | .declare name, _ => [.marked r name]
  | .finish o, _ => [.reported r o]
  | _, _ => []

/-- One step of somebody. -/
inductive Move where
  | call (c : Call)
  /-- The host goes on with its call. -/
  | host
  /-- The time that the host gave the current run to settle is over. -/
  | giveUp
  | thread (run : RunId)
  | wait (time : Duration)

namespace Session

/-- The outcome of a run whose thread went away. -/
def lostOutcome : Outcome :=
  .failed (.runtime Interpreter.lostText) (.internal Interpreter.lostText)

/-- The outcome of a run that got no thread. -/
def unstartedOutcome (reason : String) : Outcome :=
  .failed (.runtime (Interpreter.unstartedText reason))
    (.internal (Interpreter.unstartedText reason))

/-- What is noted when the host gives up the current run. -/
def abandonNotes (s : Session) : List Note :=
  s.interpreter.current.toList.map fun run => .abandoned run.id

/-- What is noted when the host ends the current run, which got no thread. -/
def failNotes (s : Session) (reason : String) : List Note :=
  s.interpreter.current.toList.map fun run => .collected run.id (unstartedOutcome reason)

/-- What is noted when the host takes in the next event. -/
def receiveNotes (s : Session) : List Note :=
  match s.interpreter.current with
  | none => []
  | some run =>
    match s.worker? run.id with
    | none => []
    | some w =>
      match w.link.events with
      | [] => [.collected run.id lostOutcome]
      | .finished o :: _ => [.collected run.id o]
      | _ => []

/-- What is noted of the next step of a thread. -/
def stepNotes (s : Session) (r : RunId) : List Note :=
  match s.worker? r with
  | none => []
  | some w =>
    match w.thread with
    | .ask (.post m) _ => if w.link.isOpen then [.said r m] else []
    | .ask .isCancelled _ => [.looked r]
    | .ask (.declare name) _ => [.marked r name]
    | .ask (.finish o) _ => [.reported r o]
    | _ => []

variable {s : Session} {r : RunId} {n : Note}

theorem of_mem_abandonNotes (h : n ∈ s.abandonNotes) :
    ∃ run, s.interpreter.current = some run ∧ n = .abandoned run.id := by
  obtain ⟨run, hrun, rfl⟩ := List.mem_map.mp h
  exact ⟨run, Option.mem_toList.mp hrun, rfl⟩

theorem of_mem_failNotes {reason : String} (h : n ∈ s.failNotes reason) :
    ∃ run, s.interpreter.current = some run ∧ n = .collected run.id (unstartedOutcome reason) := by
  obtain ⟨run, hrun, rfl⟩ := List.mem_map.mp h
  exact ⟨run, Option.mem_toList.mp hrun, rfl⟩

theorem of_mem_receiveNotes (h : n ∈ s.receiveNotes) :
    ∃ run o, s.interpreter.current = some run ∧ n = .collected run.id o := by
  unfold receiveNotes at h
  split at h
  · cases h
  next run hc =>
    split at h
    · cases h
    · split at h
      · exact ⟨run, _, hc, List.mem_singleton.mp h⟩
      · exact ⟨run, _, hc, List.mem_singleton.mp h⟩
      · cases h

theorem of_mem_stepNotes (h : n ∈ s.stepNotes r) :
    (∃ m, n = .said r m) ∨ n = .looked r ∨ (∃ name, n = .marked r name) ∨ ∃ o, n = .reported r o := by
  unfold stepNotes at h
  split at h
  · cases h
  · split at h
    · split at h
      · exact Or.inl ⟨_, List.mem_singleton.mp h⟩
      · cases h
    · exact Or.inr (Or.inl (List.mem_singleton.mp h))
    · exact Or.inr (Or.inr (Or.inl ⟨_, List.mem_singleton.mp h⟩))
    · exact Or.inr (Or.inr (Or.inr ⟨_, List.mem_singleton.mp h⟩))
    · cases h

/-- A step notes what its reply tells. -/
theorem stepNotes_of_answer {q : Request} {k : q.Reply → Thread Unit}
    {queued : Continuation → Bool} {x : q.Reply} {w : Worker} {l : Link} {shared shared' : Surroundings}
    (hw : s.worker? r = some w) (hask : w.thread = .ask q k)
    (h : q.answer queued w.link shared = some (x, l, shared')) :
    s.stepNotes r = Note.ofReply r q x := by
  simp only [stepNotes, hw, hask]
  cases q <;> simp only [Request.answer] at h
  case post m =>
    cases h
    cases w.link.isOpen <;> rfl
  all_goals rfl

end Session

/-- A session, and how far its host is. -/
structure System where
  session : Session
  phase : HostPhase

namespace System

/-- The system on a machine before the first call. -/
def ofConfig (config : Config) (platform : Platform) : System := ⟨.ofConfig config platform, .ready⟩

/-- The host begins a call. -/
def call (s : Session) : Call → System × List Note
  | .start script moment => (⟨s.flag, .flagged script moment⟩, s.abandonNotes)
  | .poll => (⟨s, .collecting .poll⟩, [])
  | .frame moment => (⟨s, .collecting (.frame moment)⟩, [])
  | .settle => (⟨s, .settling⟩, [])
  | .update name value => (⟨s.onWidgets fun r => r.update name value, .ready⟩, [])
  | .clearWidgets => (⟨s.onWidgets fun _ => .empty, .ready⟩, [])
  | .prune => (⟨s.prune, .ready⟩, [])
  | .takeDiagnostics => (⟨s.takeDiagnostics.2, .ready⟩, [])
  | .close => (⟨s.flag, .leaving⟩, s.abandonNotes)

/-- The host has nothing left to take in. -/
def run (s : Session) : Purpose → System × List Note
  | .poll => (⟨s.take.2, .ready⟩, [.handed s.take.1])
  | .frame moment =>
    if s.interpreter.current.isNone then (⟨s, .ready⟩, [])
    else (⟨s.onCurrent Link.holdClock, .held moment⟩, [])

/-- The host goes on with its call. -/
def goOn (s : Session) : HostPhase → System × List Note
  | .ready => (⟨s, .ready⟩, [])
  | .flagged script moment => (⟨s.forget, .cleared script moment⟩, [])
  | .cleared script moment =>
    match s.refusal? with
    | none => (⟨s.begin script moment, .ready⟩, [])
    | some reason =>
      (⟨s.begin script moment, .refused reason⟩, [.refused (s.interpreter.generation + 1) reason])
  | .refused reason => (⟨s.fail reason, .ready⟩, s.failNotes reason)
  | .collecting purpose =>
    match s.receive with
    | some t => (⟨t, .collecting purpose⟩, s.receiveNotes)
    | none => run s purpose
  | .held moment => (⟨s.decide Interpreter.tick, .woken moment s.isAwaited⟩, [])
  | .woken moment awaited => (⟨s.release moment awaited, .ready⟩, [])
  | .settling =>
    if s.isSettled then (⟨s, .ready⟩, [])
    else
      match s.receive with
      | some t => (⟨t, .settling⟩, s.receiveNotes)
      | none => (⟨s, .settling⟩, [])
  | .leaving => (⟨s.leave, .left⟩, [])
  | .left => (⟨s.decide Interpreter.stop, .closed⟩, [])
  | .closed => (⟨s, .closed⟩, [])

/-- A run begins in the same way with a thread and without one. -/
theorem session_goOn_cleared (s : Session) (script : String) (moment : Moment) :
    (goOn s (.cleared script moment)).1.session = s.begin script moment := by
  unfold goOn
  dsimp only
  split <;> rfl

/-- One move, and what is noted of it. -/
def step (S : System) : Move → System × List Note
  | .call c => if S.phase = .ready then call S.session c else (S, [])
  | .host => goOn S.session S.phase
  | .giveUp => if S.phase = .settling then (⟨S.session, .ready⟩, []) else (S, [])
  | .thread r =>
    match S.session.advanceRun r with
    | some t => (⟨t, S.phase⟩, S.session.stepNotes r)
    | none => (S, [])
  | .wait time => (⟨S.session.wait time, S.phase⟩, [])

/-- All moves of a history, and its notes. -/
def play (S : System) : List Move → System × List Note
  | [] => (S, [])
  | m :: ms => (((S.step m).1.play ms).1, (S.step m).2 ++ ((S.step m).1.play ms).2)

theorem play_append (S : System) (ms ms' : List Move) :
    S.play (ms ++ ms') =
      (((S.play ms).1.play ms').1, (S.play ms).2 ++ ((S.play ms).1.play ms').2) := by
  induction ms generalizing S with
  | nil => simp [play]
  | cons m ms ih => simp [play, ih]

/-- A host that is not disturbed while it goes away is done in three moves. -/
theorem play_close (s : Session) :
    (System.mk s .ready).play [.call .close, .host, .host] = (⟨s.close, .closed⟩, s.abandonNotes) := by
  simp [play, step, call, goOn, Session.close]

/-- A call notes nothing but that a run is given up. -/
theorem of_mem_call {s : Session} {c : Call} {n : Note} (h : n ∈ (call s c).2) :
    ∃ r, n = .abandoned r := by
  have habandon (h : n ∈ s.abandonNotes) : ∃ r, n = .abandoned r := by
    obtain ⟨run, -, he⟩ := Session.of_mem_abandonNotes h
    exact ⟨run.id, he⟩
  cases c with
  | start script moment => exact habandon h
  | close => exact habandon h
  | _ => cases h

/-! ### What a move can be

Every property of histories is proved move by move, so it is said once what a move
can be.  The constructors name the parts of the calls.
-/

/-- A move that changes something, with what is noted of it. -/
inductive Moves : System → List Note → System → Prop where
  | flag (s : Session) (script : String) (moment : Moment) :
      Moves ⟨s, .ready⟩ s.abandonNotes ⟨s.flag, .flagged script moment⟩
  | forget (s : Session) (script : String) (moment : Moment) :
      Moves ⟨s, .flagged script moment⟩ [] ⟨s.forget, .cleared script moment⟩
  | begin (s : Session) (script : String) (moment : Moment) (h : s.refusal? = none) :
      Moves ⟨s, .cleared script moment⟩ [] ⟨s.begin script moment, .ready⟩
  | refuse (s : Session) (script : String) (moment : Moment) (reason : String)
      (h : s.refusal? = some reason) :
      Moves ⟨s, .cleared script moment⟩ [.refused (s.interpreter.generation + 1) reason]
        ⟨s.begin script moment, .refused reason⟩
  | fail (s : Session) (reason : String) :
      Moves ⟨s, .refused reason⟩ (s.failNotes reason) ⟨s.fail reason, .ready⟩
  | collect (s : Session) (purpose : Purpose) : Moves ⟨s, .ready⟩ [] ⟨s, .collecting purpose⟩
  | settle (s : Session) : Moves ⟨s, .ready⟩ [] ⟨s, .settling⟩
  | receive {s t : Session} {phase : HostPhase} (h : s.receive = some t)
      (hphase : (∃ purpose, phase = .collecting purpose) ∨ phase = .settling) :
      Moves ⟨s, phase⟩ s.receiveNotes ⟨t, phase⟩
  | hand (s : Session) : Moves ⟨s, .collecting .poll⟩ [.handed s.take.1] ⟨s.take.2, .ready⟩
  | skip (s : Session) (moment : Moment) (h : s.interpreter.current = none) :
      Moves ⟨s, .collecting (.frame moment)⟩ [] ⟨s, .ready⟩
  | hold (s : Session) (moment : Moment) (h : s.interpreter.current ≠ none) :
      Moves ⟨s, .collecting (.frame moment)⟩ [] ⟨s.onCurrent Link.holdClock, .held moment⟩
  | tick (s : Session) (moment : Moment) :
      Moves ⟨s, .held moment⟩ [] ⟨s.decide Interpreter.tick, .woken moment s.isAwaited⟩
  | release (s : Session) (moment : Moment) (awaited : Bool) :
      Moves ⟨s, .woken moment awaited⟩ [] ⟨s.release moment awaited, .ready⟩
  | settled (s : Session) (h : s.isSettled = true) : Moves ⟨s, .settling⟩ [] ⟨s, .ready⟩
  | giveUp (s : Session) : Moves ⟨s, .settling⟩ [] ⟨s, .ready⟩
  | tend (s : Session) (f : Widget.Registry → Widget.Registry) :
      Moves ⟨s, .ready⟩ [] ⟨s.onWidgets f, .ready⟩
  | diagnose (s : Session) : Moves ⟨s, .ready⟩ [] ⟨s.takeDiagnostics.2, .ready⟩
  | leave (s : Session) : Moves ⟨s, .ready⟩ s.abandonNotes ⟨s.flag, .leaving⟩
  | vacate (s : Session) : Moves ⟨s, .leaving⟩ [] ⟨s.leave, .left⟩
  | stop (s : Session) : Moves ⟨s, .left⟩ [] ⟨s.decide Interpreter.stop, .closed⟩
  | thread {s t : Session} {r : RunId} (h : s.advanceRun r = some t) (phase : HostPhase) :
      Moves ⟨s, phase⟩ (s.stepNotes r) ⟨t, phase⟩
  | wait (s : Session) (phase : HostPhase) (time : Duration) :
      Moves ⟨s, phase⟩ [] ⟨s.wait time, phase⟩

theorem call_moves (s : Session) (c : Call) :
    Moves ⟨s, .ready⟩ (call s c).2 (call s c).1 := by
  cases c with
  | start script moment => exact .flag s script moment
  | poll => exact .collect s .poll
  | frame moment => exact .collect s (.frame moment)
  | settle => exact .settle s
  | update name value => exact .tend s _
  | clearWidgets => exact .tend s _
  | prune => exact .tend s _
  | takeDiagnostics => exact .diagnose s
  | close => exact .leave s

theorem goOn_moves (s : Session) (phase : HostPhase) :
    goOn s phase = (⟨s, phase⟩, []) ∨ Moves ⟨s, phase⟩ (goOn s phase).2 (goOn s phase).1 := by
  cases phase with
  | ready => exact Or.inl rfl
  | flagged script moment => exact Or.inr (.forget s script moment)
  | cleared script moment =>
      right
      cases hr : s.refusal? with
      | none => simpa only [goOn, hr] using .begin s script moment hr
      | some reason => simpa only [goOn, hr] using .refuse s script moment reason hr
  | refused reason => exact Or.inr (.fail s reason)
  | collecting purpose =>
      right
      cases hr : s.receive with
      | some t => simpa only [goOn, hr] using .receive hr (Or.inl ⟨purpose, rfl⟩)
      | none =>
          simp only [goOn, hr]
          cases purpose with
          | poll => exact .hand s
          | frame moment =>
              cases hc : s.interpreter.current with
              | none => simpa [run, hc] using Moves.skip s moment hc
              | some run =>
                  simpa [System.run, hc] using Moves.hold s moment (by simp [hc])
  | held moment => exact Or.inr (.tick s moment)
  | woken moment awaited => exact Or.inr (.release s moment awaited)
  | settling =>
      by_cases hs : s.isSettled = true
      · right
        simpa only [goOn, hs, if_true] using .settled s hs
      · cases hr : s.receive with
        | some t =>
            right
            simpa only [goOn, hs, if_false, hr] using .receive hr (Or.inr rfl)
        | none =>
            left
            simp only [goOn, hs, hr]
            rfl
  | leaving => exact Or.inr (.vacate s)
  | left => exact Or.inr (.stop s)
  | closed => exact Or.inl rfl

/-- A move changes nothing and notes nothing, or it is one of `Moves`. -/
theorem step_moves (S : System) (m : Move) :
    S.step m = (S, []) ∨ Moves S (S.step m).2 (S.step m).1 := by
  obtain ⟨s, phase⟩ := S
  cases m with
  | call c =>
      by_cases hp : phase = .ready
      · subst hp
        exact Or.inr (by simpa only [step, if_true] using call_moves s c)
      · exact Or.inl (by simp only [step, hp, if_false])
  | host => exact goOn_moves s phase
  | giveUp =>
      by_cases hp : phase = .settling
      · subst hp
        exact Or.inr (by simpa only [step, if_true] using .giveUp s)
      · exact Or.inl (by simp only [step, hp, if_false])
  | thread r =>
      cases ha : s.advanceRun r with
      | none => exact Or.inl (by simp only [step, ha])
      | some t => exact Or.inr (by simpa only [step, ha] using .thread ha phase)
  | wait time => exact Or.inr (.wait s phase time)

/-- What holds of the notes so far and the system, and is kept by every move, holds
of every history. -/
theorem play_induction {P : List Note → System → Prop}
    (hstep : ∀ {H S ns T}, P H S → Moves S ns T → P (H ++ ns) T) {H : List Note} {S : System}
    (h : P H S) (ms : List Move) : P (H ++ (S.play ms).2) (S.play ms).1 := by
  induction ms generalizing H S with
  | nil => simpa [play] using h
  | cons m ms ih =>
      have hnext : P (H ++ (S.step m).2) (S.step m).1 := by
        rcases step_moves S m with he | hm
        · rw [he]
          simpa using h
        · exact hstep h hm
      simpa [play, List.append_assoc] using ih hnext

/-! ### The moment of a note

A move notes one thing at most, so a history can be cut where something was noted.
-/

/-- A move notes nothing or one thing. -/
theorem Moves.notes {S T : System} {ns : List Note} (h : Moves S ns T) : ns = [] ∨ ∃ n, ns = [n] := by
  have hcurrent (s : Session) (f : CurrentRun → Note) :
      s.interpreter.current.toList.map f = [] ∨
        ∃ n, s.interpreter.current.toList.map f = [n] := by
    cases s.interpreter.current with
    | none => exact Or.inl rfl
    | some run => exact Or.inr ⟨_, rfl⟩
  cases h with
  | flag s script moment => exact hcurrent s _
  | leave s => exact hcurrent s _
  | fail s reason => exact hcurrent s _
  | refuse s script moment reason h => exact Or.inr ⟨_, rfl⟩
  | @receive s t phase h hphase =>
      unfold Session.receiveNotes
      split
      · exact Or.inl rfl
      · split
        · exact Or.inl rfl
        · split
          · exact Or.inr ⟨_, rfl⟩
          · exact Or.inr ⟨_, rfl⟩
          · exact Or.inl rfl
  | hand s => exact Or.inr ⟨_, rfl⟩
  | @thread s t r h phase =>
      unfold Session.stepNotes
      split
      · exact Or.inl rfl
      · split
        · split
          · exact Or.inr ⟨_, rfl⟩
          · exact Or.inl rfl
        · exact Or.inr ⟨_, rfl⟩
        · exact Or.inr ⟨_, rfl⟩
        · exact Or.inr ⟨_, rfl⟩
        · exact Or.inl rfl
  | _ => exact Or.inl rfl

theorem step_notes (S : System) (m : Move) : (S.step m).2 = [] ∨ ∃ n, (S.step m).2 = [n] := by
  rcases step_moves S m with he | hm
  · exact Or.inl (by rw [he])
  · exact hm.notes

/-- A history with a note is a history before it, the move that noted it, and a
history behind it. -/
theorem play_split {S : System} {ms : List Move} {A B : List Note} {n : Note}
    (h : (S.play ms).2 = A ++ n :: B) :
    ∃ ms₁ m ms₂, ms = ms₁ ++ m :: ms₂ ∧ (S.play ms₁).2 = A ∧
      ((S.play ms₁).1.step m).2 = [n] ∧ (((S.play ms₁).1.step m).1.play ms₂).2 = B := by
  induction ms generalizing S A with
  | nil => cases A <;> cases h
  | cons m ms ih =>
      rcases step_notes S m with hnone | ⟨n', hone⟩
      · have hrest : ((S.step m).1.play ms).2 = A ++ n :: B := by
          simpa [play, hnone] using h
        obtain ⟨ms₁, m', ms₂, rfl, hA, hn, hB⟩ := ih hrest
        exact ⟨m :: ms₁, m', ms₂, rfl, by simpa [play, hnone] using hA, hn, hB⟩
      · cases A with
        | nil =>
            simp only [play, hone, List.nil_append, List.cons_append, List.cons.injEq] at h
            obtain ⟨rfl, hB⟩ := h
            exact ⟨[], m, ms, rfl, rfl, hone, hB⟩
        | cons a A =>
            simp only [play, hone, List.cons_append, List.nil_append, List.cons.injEq] at h
            obtain ⟨rfl, hrest⟩ := h
            obtain ⟨ms₁, m', ms₂, rfl, hA, hn, hB⟩ := ih hrest
            exact ⟨m :: ms₁, m', ms₂, rfl, by simp [play, hone, hA], hn, hB⟩

end System

end FilterScript
