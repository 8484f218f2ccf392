/-
A frame in smaller steps.

A history of moves advances the clock of the current run and lets go of it in one move.  Here the two
are steps of their own, so that the steps of the threads may fall between them as well: the host takes
in what was sent, holds the clock, wakes whoever waits, advances the clock, and lets go of it.  At most
one continuation is queued, so waking is one step.

What a history shows of the clocks is written down as sights.  A tick counts for a run from the moment
on at which the run is woken, before its clock knows of it.
-/
import FilterScript.Proofs.Interpreter.Trace

namespace FilterScript

namespace Session

variable {s t : Session} {r : RunId}

/-- The clock of the current run records a tick. -/
def advanceClock (s : Session) (moment : Moment) : Session := s.onCurrent fun l => l.advance moment

/-- The clock of the current run may be read again; a run that was woken goes on. -/
def unlock (s : Session) (woken : Bool) : Session :=
  let s := s.onCurrent Link.releaseClock
  if woken then { s with interpreter := s.interpreter.resume } else s

theorem worker?_advanceClock (moment : Moment) (r : RunId) :
    (s.advanceClock moment).worker? r =
      if s.current? = some r then (s.worker? r).map (·.onLink fun l => l.advance moment)
      else s.worker? r :=
  worker?_onCurrent (f := fun l => l.advance moment) (fun _ => rfl) r

theorem worker?_unlock (woken : Bool) (r : RunId) :
    (s.unlock woken).worker? r =
      if s.current? = some r then (s.worker? r).map (·.onLink Link.releaseClock)
      else s.worker? r := by
  rw [show (s.unlock woken).worker? r = (s.onCurrent Link.releaseClock).worker? r by
    cases woken <;> rfl]
  exact worker?_onCurrent (f := Link.releaseClock) (fun _ => rfl) r

theorem current?_advanceClock (moment : Moment) : (s.advanceClock moment).current? = s.current? :=
  congrArg (fun i => i.current.map (·.id)) (interpreter_onCurrent (s := s))

theorem modifyFirst_modifyFirst {id : RunId} {f : Link → Link} (hf : Link.KeepsRun f)
    (g : Link → Link) (ws : List Worker) :
    modifyFirst id g (modifyFirst id f ws) = modifyFirst id (fun l => g (f l)) ws := by
  induction ws with
  | nil => rfl
  | cons w ws ih =>
      by_cases hid : w.link.run = id
      · simp only [modifyFirst, hid, if_true, hf w.link]
      · simp only [modifyFirst, hid, if_false, ih]

/-- The two steps, one right behind the other, are the one of a history. -/
theorem unlock_advanceClock (s : Session) (moment : Moment) (woken : Bool) :
    (s.advanceClock moment).unlock woken = s.release moment woken := by
  have hboth : (s.advanceClock moment).onCurrent Link.releaseClock =
      s.onCurrent fun l => (l.advance moment).releaseClock := by
    unfold advanceClock onCurrent
    cases hc : s.interpreter.current with
    | none => simp only [hc]
    | some run =>
        simp only [interpreter_onLink, hc]
        exact congrArg (fun ws => { s with workers := ws })
          (modifyFirst_modifyFirst (f := fun l => l.advance moment) (fun _ => rfl) _ s.workers)
  unfold unlock release
  rw [hboth]

end Session

/-! ### Clocks have no part in the invariant of histories -/

/-- A worker with its clock set back. -/
def Worker.clockless (w : Worker) : Worker := w.onLink fun l => { l with clock := .startingAt 0 }

namespace System.Sound

variable {s t : Session} {phase : HostPhase}

theorem of_clock (h : Sound ⟨s, phase⟩) (hi : t.interpreter = s.interpreter)
    (hview : ∀ r, (t.worker? r).map (·.clockless) = (s.worker? r).map (·.clockless)) :
    Sound ⟨t, phase⟩ := by
  have hcurrent : t.current? = s.current? := by rw [Session.current?, Session.current?, hi]
  have hqueue : t.queue = s.queue := by rw [Session.queue, Session.queue, hi]
  have hold {r : RunId} {w : Worker} (hw : t.worker? r = some w) :
      ∃ v, s.worker? r = some v ∧ v.clockless = w.clockless := by
    have hsame := hview r
    rw [hw, Option.map_some] at hsame
    exact Option.map_eq_some_iff.1 hsame.symm
  refine ⟨?_, ?_, ?_, ?_, ?_, ?_, ?_⟩
  · intro r w hw
    obtain ⟨v, hv, -⟩ := hold hw
    rw [Session.newest, hi]
    exact h.known r v hv
  · intro run hc
    rw [hi] at hc
    have hlive := h.live run hc
    obtain ⟨v, stage, hv, hconf, hopen, hcancelled, hst⟩ := hlive.worker
    have hsame := hview run.id
    rw [hv, Option.map_some, Option.map_eq_some_iff] at hsame
    obtain ⟨w, hw, hwv⟩ := hsame
    have hthread : w.thread = v.thread := congrArg (·.thread) hwv
    refine ⟨?_, ?_, ?_, w, stage, hw, hthread ▸ hconf, ?_, ?_, ?_⟩
    · rw [Session.newest, hi]
      exact hlive.newest
    · rw [hi]
      exact hlive.running
    · rw [hqueue]
      exact hlive.agrees
    · exact (congrArg (·.link.isOpen) hwv).trans hopen
    · exact (congrArg (·.link.isCancelled) hwv).trans hcancelled
    · rw [hqueue]
      exact hst.congr (congrArg (·.link.events) hwv) (congrArg (·.link.continuation) hwv)
        (congrArg (·.link.signal) hwv) fun hc => (congrArg (·.link.isCancelled) hwv).trans hc
  · intro r w hw hne
    obtain ⟨v, hv, hvw⟩ := hold hw
    have hthread : v.thread = w.thread := congrArg (·.thread) hvw
    have hcancelled : v.link.isCancelled = w.link.isCancelled := congrArg (·.link.isCancelled) hvw
    obtain ⟨hended, hclosed, hsilent⟩ := h.bygone r v hv (hcurrent ▸ hne)
    rw [hthread, hcancelled] at hended
    exact ⟨hended, (congrArg (·.link.isOpen) hvw).symm.trans hclosed,
      (congrArg (·.link.events) hvw).symm.trans hsilent⟩
  · intro hc hp
    rw [hqueue]
    exact h.queue (hi ▸ hc) hp
  · intro hp
    rw [hi]
    exact h.vacant hp
  · intro hp
    rw [hi]
    exact h.occupied hp
  · intro reason hp
    obtain ⟨v, hv, hcrash, hevents⟩ := h.refused reason hp
    have hsame := hview s.newest
    rw [show s.worker? s.newest = some v from hv, Option.map_some, Option.map_eq_some_iff] at hsame
    obtain ⟨w, hw, hwv⟩ := hsame
    refine ⟨w, ?_, (congrArg (·.thread) hwv).trans hcrash, (congrArg (·.link.events) hwv).trans hevents⟩
    rw [show (System.mk t phase).session.newest = s.newest by simp only [Session.newest, hi]]
    exact hw

/-- The clock of the current run records a tick. -/
theorem advanceClock (h : Sound ⟨s, phase⟩) (moment : Moment) :
    Sound ⟨s.advanceClock moment, phase⟩ := by
  refine h.of_clock Session.interpreter_onCurrent fun r => ?_
  rw [Session.worker?_advanceClock]
  split
  · rw [Option.map_map]
    rfl
  · rfl

/-- The clock of the current run may be read again. -/
theorem unlock {moment : Moment} {awaited : Bool} (h : Sound ⟨s, .woken moment awaited⟩) :
    Sound ⟨s.unlock awaited, .ready⟩ := by
  have hrelease : Sound ⟨s.release moment awaited, .ready⟩ := h.release
  refine hrelease.of_clock ?_ fun r => ?_
  · cases awaited <;> simp [Session.unlock, Session.release]
  · rw [← Session.unlock_advanceClock, Session.worker?_unlock, Session.worker?_unlock,
      Session.current?_advanceClock, Session.worker?_advanceClock]
    split
    · simp only [Option.map_map]
      rfl
    · rfl

end System.Sound

/-! ### The system -/

/-- A system, and whether the clock of the current run was advanced in the frame that is being
delivered. -/
structure Stepwise where
  system : System
  isAdvanced : Bool

/-- What a history shows of the clocks. -/
inductive Sight where
  /-- A tick at a moment for the clock of a run; whether the run was woken by it. -/
  | ticked (run : RunId) (moment : Moment) (woke : Bool)
  /-- A run that waited for a frame goes on. -/
  | resumed (run : RunId)
  /-- A run was told the time between the two most recent ticks. -/
  | read (run : RunId) (delta : Duration)
deriving DecidableEq

/-- What is seen of an exchange of a run. -/
def Exchange.sights (r : RunId) : List Exchange → List Sight
  | [⟨.delta, d⟩] => [.read r d]
  | [⟨.await, some .frame⟩] => [.resumed r]
  | _ => []

/-- What is seen when the host wakes whoever waits. -/
def Session.tickSights (s : Session) (moment : Moment) : List Sight :=
  s.interpreter.current.toList.map fun run => .ticked run.id moment s.isAwaited

namespace Stepwise

/-- The system on a machine before the first call. -/
def ofConfig (config : Config) (platform : Platform) : Stepwise := ⟨.ofConfig config platform, false⟩

/-- The host goes on with its call. -/
def goOn (s : Session) : HostPhase → Bool → Stepwise × List Sight
  | .held moment, _ =>
    (⟨⟨s.decide Interpreter.tick, .woken moment s.isAwaited⟩, false⟩, s.tickSights moment)
  | .woken moment awaited, false => (⟨⟨s.advanceClock moment, .woken moment awaited⟩, true⟩, [])
  | .woken _ awaited, true => (⟨⟨s.unlock awaited, .ready⟩, false⟩, [])
  | phase, isAdvanced => (⟨(System.goOn s phase).1, isAdvanced⟩, [])

/-- One move, and what is seen of it. -/
def step (S : Stepwise) : Move → Stepwise × List Sight
  | .host => goOn S.system.session S.system.phase S.isAdvanced
  | .thread r =>
    (⟨(S.system.step (.thread r)).1, S.isAdvanced⟩, Exchange.sights r (S.system.session.exchange r))
  | m => (⟨(S.system.step m).1, S.isAdvanced⟩, [])

/-- All moves of a history, and what is seen of them. -/
def play (S : Stepwise) : List Move → Stepwise × List Sight
  | [] => (S, [])
  | m :: ms => (((S.step m).1.play ms).1, (S.step m).2 ++ ((S.step m).1.play ms).2)

theorem play_append (S : Stepwise) (ms ms' : List Move) :
    (S.play (ms ++ ms')).1 = ((S.play ms).1.play ms').1 := by
  induction ms generalizing S with
  | nil => rfl
  | cons m ms ih => exact ih (S.step m).1

/-! ### Histories of moves are among these -/

/-- A move is one step, and two where it lets go of the clock. -/
theorem exists_play_step (S : System) (m : Move) :
    ∃ ms, ((⟨S, false⟩ : Stepwise).play ms).1 = ⟨(S.step m).1, false⟩ := by
  obtain ⟨s, phase⟩ := S
  cases m with
  | host =>
      cases phase with
      | woken moment awaited =>
          refine ⟨[.host, .host], ?_⟩
          exact congrArg (fun t => (⟨⟨t, .ready⟩, false⟩ : Stepwise))
            (s.unlock_advanceClock moment awaited)
      | _ => exact ⟨[.host], rfl⟩
  | call c => exact ⟨[.call c], rfl⟩
  | giveUp => exact ⟨[.giveUp], rfl⟩
  | thread r => exact ⟨[.thread r], rfl⟩
  | wait time => exact ⟨[.wait time], rfl⟩

/-- What a history of moves leads to is led to in smaller steps as well. -/
theorem exists_play (S : System) (ms : List Move) :
    ∃ ms', ((⟨S, false⟩ : Stepwise).play ms').1 = ⟨(S.play ms).1, false⟩ := by
  induction ms generalizing S with
  | nil => exact ⟨[], rfl⟩
  | cons m ms ih =>
      obtain ⟨ms₁, h₁⟩ := exists_play_step S m
      obtain ⟨ms₂, h₂⟩ := ih (S.step m).1
      exact ⟨ms₁ ++ ms₂, by rw [play_append, h₁, h₂]; rfl⟩

/-! ### What a step can be -/

/-- What a move can be that changes something, with what is seen of it. -/
inductive Moves : Stepwise → List Sight → Stepwise → Prop where
  | tick (s : Session) (moment : Moment) (b : Bool) :
      Moves ⟨⟨s, .held moment⟩, b⟩ (s.tickSights moment)
        ⟨⟨s.decide Interpreter.tick, .woken moment s.isAwaited⟩, false⟩
  | advance (s : Session) (moment : Moment) (awaited : Bool) :
      Moves ⟨⟨s, .woken moment awaited⟩, false⟩ []
        ⟨⟨s.advanceClock moment, .woken moment awaited⟩, true⟩
  | unlock (s : Session) (moment : Moment) (awaited : Bool) :
      Moves ⟨⟨s, .woken moment awaited⟩, true⟩ [] ⟨⟨s.unlock awaited, .ready⟩, false⟩
  | thread {s t : Session} {r : RunId} (h : s.advanceRun r = some t) (phase : HostPhase) (b : Bool) :
      Moves ⟨⟨s, phase⟩, b⟩ (Exchange.sights r (s.exchange r)) ⟨⟨t, phase⟩, b⟩
  | wait (s : Session) (phase : HostPhase) (b : Bool) (time : Duration) :
      Moves ⟨⟨s, phase⟩, b⟩ [] ⟨⟨s.wait time, phase⟩, b⟩
  /-- A move that has nothing to do with a frame under way. -/
  | plain {S T : System} {ns : List Note} (h : System.Moves S ns T)
      (hphase : S.phase.isHolding = false) (b : Bool) : Moves ⟨S, b⟩ [] ⟨T, b⟩

/-- A move changes nothing and nothing is seen, or it is one of `Moves`. -/
theorem step_moves (S : Stepwise) (m : Move) :
    S.step m = (S, []) ∨ Moves S (S.step m).2 (S.step m).1 := by
  obtain ⟨⟨s, phase⟩, b⟩ := S
  have hplain (hphase : phase.isHolding = false) {m : Move}
      (hm : (⟨⟨s, phase⟩, b⟩ : Stepwise).step m = (⟨((⟨s, phase⟩ : System).step m).1, b⟩, [])) :
      (⟨⟨s, phase⟩, b⟩ : Stepwise).step m = (⟨⟨s, phase⟩, b⟩, []) ∨
        Moves ⟨⟨s, phase⟩, b⟩ ((⟨⟨s, phase⟩, b⟩ : Stepwise).step m).2
          ((⟨⟨s, phase⟩, b⟩ : Stepwise).step m).1 := by
    rw [hm]
    rcases System.step_moves ⟨s, phase⟩ m with he | hmoves
    · exact .inl (by rw [he])
    · exact .inr (.plain hmoves hphase b)
  cases m with
  | call c =>
      by_cases hready : phase = .ready
      · exact hplain (by rw [hready]; rfl) rfl
      · left
        simp only [step, System.step, hready, if_false]
  | host =>
      cases phase with
      | held moment => exact .inr (.tick s moment b)
      | woken moment awaited =>
          cases b with
          | false => exact .inr (.advance s moment awaited)
          | true => exact .inr (.unlock s moment awaited)
      | _ => exact hplain rfl rfl
  | giveUp =>
      by_cases hsettling : phase = .settling
      · exact hplain (by rw [hsettling]; rfl) rfl
      · left
        simp only [step, System.step, hsettling, if_false]
  | thread r =>
      cases ha : s.advanceRun r with
      | none =>
          left
          simp only [step, System.step, ha, Session.exchange_of_none ha]
          rfl
      | some t =>
          right
          simp only [step, System.step, ha]
          exact .thread ha phase b
  | wait time => exact .inr (.wait s phase b time)

/-- What holds of the sights so far and the system, and is kept by every move, holds of every
history. -/
theorem play_induction {P : List Sight → Stepwise → Prop}
    (hstep : ∀ {H S ns T}, P H S → Moves S ns T → P (H ++ ns) T) {H : List Sight} {S : Stepwise}
    (h : P H S) (ms : List Move) : P (H ++ (S.play ms).2) (S.play ms).1 := by
  induction ms generalizing H S with
  | nil => simpa [play] using h
  | cons m ms ih =>
      have hnext : P (H ++ (S.step m).2) (S.step m).1 := by
        rcases step_moves S m with he | hm
        · rw [he]
          simpa using h
        · exact hstep h hm
      simpa [play, List.append_assoc] using ih hnext

end Stepwise

end FilterScript
