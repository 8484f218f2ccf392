/-
A run that goes on sees the advanced clock.

The host wakes a run before it advances the clock of the run, so between the two a run could read the
time of an older frame.  That it does not rests on the lock: the clock is held from before the wake-up
until after the tick, and a run that asks for the time meanwhile has no step.

`Clocked` is the invariant.  The clock of a run together with the tick that is still due is what the
ticks seen so far make of a new clock; a tick is due only while the clock of its run is held, and a
signal that waits for a run was sent with a tick that the run has not answered.  A new run has a new
clock, and a tick is for the run that is current, so the ticks of earlier runs have no part in it.
-/
import FilterScript.Proofs.Interpreter.Calm
import FilterScript.Proofs.Interpreter.Stepwise
import Mathlib.Data.List.Induction

namespace FilterScript

/-! ### What some ticks make of a clock -/

/-- The time between the two most recent of some ticks, zero until there are two. -/
def Moment.lastGap (ticks : List Moment) : Duration :=
  match ticks.reverse with
  | now :: last :: _ => Moment.since now last
  | _ => 0

theorem Moment.lastGap_append (ticks : List Moment) (last now : Moment) :
    Moment.lastGap (ticks ++ [last] ++ [now]) = Moment.since now last := by
  simp [lastGap]

/-- A clock knows its last tick and the time between its last two. -/
theorem Clock.foldl_tick (start : Moment) (ticks : List Moment) :
    ticks.foldl Clock.tick (.startingAt start) = ⟨start, ticks.getLast?, Moment.lastGap ticks⟩ := by
  induction ticks using List.reverseRecOn with
  | nil => rfl
  | append_singleton ticks now ih =>
      rw [List.foldl_append, ih, List.getLast?_append]
      cases ticks using List.reverseRecOn with
      | nil => rfl
      | append_singleton ticks last =>
          rw [Moment.lastGap_append, List.getLast?_append]
          rfl

/-- The tick for the clock of a run, if that is what was seen. -/
def Sight.tick? (r : RunId) : Sight → Option Moment
  | ticked r' moment _ => if r' = r then some moment else none
  | _ => none

/-- The ticks for the clock of a run. -/
def ticksOf (r : RunId) (H : List Sight) : List Moment := H.filterMap (Sight.tick? r)

theorem ticksOf_append (r : RunId) (H H' : List Sight) :
    ticksOf r (H ++ H') = ticksOf r H ++ ticksOf r H' := List.filterMap_append ..

theorem ticksOf_ticked (r : RunId) (moment : Moment) (woke : Bool) (H : List Sight) :
    ticksOf r (.ticked r moment woke :: H) = moment :: ticksOf r H :=
  List.filterMap_cons_some (if_pos rfl)

theorem ticksOf_resumed (r r' : RunId) (H : List Sight) :
    ticksOf r (.resumed r' :: H) = ticksOf r H :=
  List.filterMap_cons_none rfl

/-- A run was woken by a tick and has not gone on since. -/
def Woken (r : RunId) (H : List Sight) : Prop :=
  ∃ A moment B, H = A ++ .ticked r moment true :: B ∧ .resumed r ∉ B

theorem Woken.append {r : RunId} {H H' : List Sight} (h : Woken r H) (hH' : .resumed r ∉ H') :
    Woken r (H ++ H') := by
  obtain ⟨A, moment, B, rfl, hB⟩ := h
  refine ⟨A, moment, B ++ H', by rw [List.append_assoc, List.cons_append], fun hmem => ?_⟩
  exact (List.mem_append.1 hmem).elim hB hH'

/-! ### The steps of the threads -/

/-- What is seen of a step: nothing, or that the run takes the frame that waits for it, or what its
clock says while nobody holds it. -/
theorem Session.advanceRun_sights {s t : Session} {r : RunId} (h : s.advanceRun r = some t) :
    ∃ w w', s.worker? r = some w ∧ t.worker? r = some w' ∧ w.link.Calm w'.link ∧
      t.current? = s.current? ∧ (∀ id, id ≠ r → t.worker? id = s.worker? id) ∧
      (Exchange.sights r (s.exchange r) = [] ∨
        (Exchange.sights r (s.exchange r) = [.resumed r] ∧ w.link.signal = some .frame ∧
          w'.link.signal ≠ some .frame) ∨
        Exchange.sights r (s.exchange r) = [.read r w.link.clock.delta] ∧
          w.link.isClockHeld = false) := by
  obtain ⟨w, u, l, hw, hs, hi, hview⟩ := advanceRun_some h
  refine ⟨w, ⟨l, u⟩, hw, (hview r).trans (if_pos rfl), ?_, by rw [current?, current?, hi],
    fun id hid => (hview id).trans (if_neg hid), ?_⟩
  · rcases Thread.step_cases hs with ⟨-, -, rfl, -⟩ | ⟨q, k, x, -, -, ha⟩
    · exact .refl _
    · exact .answer ha
  · rcases Thread.step_cases hs with ⟨hspin, -⟩ | ⟨q, k, x, hask, -, ha⟩
    · left
      simp only [exchange, hw, hspin]
      rfl
    · rw [exchange_of_answer hw hask ha]
      generalize t.surroundings = shared at ha
      cases q with
      | delta =>
          right
          right
          simp only [Request.answer] at ha
          split at ha
          · cases ha
          next hfree =>
            cases ha
            exact ⟨rfl, Bool.eq_false_iff.2 hfree⟩
      | await =>
          simp only [Request.answer] at ha
          split at ha
          next resume hsignal =>
            cases ha
            cases resume with
            | frame =>
                refine .inr (.inl ⟨rfl, hsignal, fun hframe => ?_⟩)
                cases hframe
            | cancelled => exact .inl rfl
          · split at ha
            · cases ha
            · cases ha
              exact .inl rfl
      | _ => exact .inl rfl

namespace Stepwise

variable {H : List Sight} {S T : Stepwise} {ns : List Sight} {s t : Session} {phase : HostPhase}
  {b : Bool} {moment : Moment} {awaited : Bool} {r : RunId} {w w' : Worker}

/-- The ticks that the clock of a run does not know of yet. -/
def due (S : Stepwise) (r : RunId) : List Moment :=
  match S.system.phase with
  | .woken moment _ =>
    if S.isAdvanced = false ∧ S.system.session.current? = some r then [moment] else []
  | _ => []

theorem due_of_not_holding (h : S.system.phase.isHolding = false) : S.due r = [] := by
  unfold due
  split
  next hphase =>
    rw [hphase] at h
    cases h
  · rfl

/-- No other move makes a tick due. -/
theorem due_of_moves {S T : System} {notes : List Note} (hm : System.Moves S notes T)
    (h : S.phase.isHolding = false) : due ⟨T, b⟩ r = [] := by
  cases hm with
  | receive hr hphase => exact due_of_not_holding h
  | thread hs phase => exact due_of_not_holding h
  | wait s phase time => exact due_of_not_holding h
  | tick s moment => cases h
  | release s moment awaited => cases h
  | _ => rfl

/-- Who went on, and what was read. -/
structure Seen (H : List Sight) : Prop where
  /-- A run goes on when a tick woke it, once for each such tick. -/
  woken : ∀ r A B, H = A ++ .resumed r :: B → Woken r A
  /-- A run is told the time between the two most recent ticks for its own clock, and zero until there
  are two. -/
  told : ∀ r d A B, H = A ++ .read r d :: B → d = Moment.lastGap (ticksOf r A)

/-- One more thing is seen. -/
theorem Seen.snoc {x : Sight} (h : Seen H) (hwoken : ∀ r, x = .resumed r → Woken r H)
    (htold : ∀ r d, x = .read r d → d = Moment.lastGap (ticksOf r H)) : Seen (H ++ [x]) := by
  have hcases {y : Sight} {A B : List Sight} (hy : H ++ [x] = A ++ y :: B) :
      (∃ B', H = A ++ y :: B') ∨ A = H ∧ x = y := by
    rcases List.eq_nil_or_concat B with rfl | ⟨B', z, rfl⟩
    · obtain ⟨hA, hx⟩ := List.append_inj' hy rfl
      exact .inr ⟨hA.symm, List.cons.inj hx |>.1⟩
    · rw [List.concat_eq_append, ← List.cons_append, ← List.append_assoc] at hy
      exact .inl ⟨B', (List.append_inj' hy rfl).1⟩
  constructor
  · intro r A B hH
    rcases hcases hH with ⟨B', hB'⟩ | ⟨rfl, hx⟩
    · exact h.woken r A B' hB'
    · exact hwoken r hx
  · intro r d A B hH
    rcases hcases hH with ⟨B', hB'⟩ | ⟨rfl, hx⟩
    · exact h.told r d A B' hB'
    · exact htold r d hx

theorem Seen.snoc_ticked {r : RunId} {moment : Moment} {woke : Bool} (h : Seen H) :
    Seen (H ++ [.ticked r moment woke]) := by
  refine h.snoc (fun r' he => ?_) (fun r' d he => ?_)
  · cases he
  · cases he

theorem Seen.snoc_resumed (h : Seen H) (hwoken : Woken r H) : Seen (H ++ [.resumed r]) := by
  refine h.snoc (fun r' he => ?_) (fun r' d he => ?_)
  · cases he
    exact hwoken
  · cases he

theorem Seen.snoc_read {d : Duration} (h : Seen H)
    (htold : d = Moment.lastGap (ticksOf r H)) : Seen (H ++ [.read r d]) := by
  refine h.snoc (fun r' he => ?_) (fun r' d' he => ?_)
  · cases he
  · cases he
    exact htold

/-- The invariant of the clocks. -/
structure Clocked (H : List Sight) (S : Stepwise) : Prop where
  sound : S.system.Sound
  /-- A clock is advanced only while a frame is delivered. -/
  advanced : S.isAdvanced = true → S.system.phase.isHolding = true
  /-- While a frame is delivered the current run cannot read its clock. -/
  held : S.system.phase.isHolding = true → ∀ r w, S.system.session.current? = some r →
    S.system.session.worker? r = some w → w.link.isClockHeld = true
  /-- A clock and the ticks that are due are what the ticks that were seen make of a new clock. -/
  clock : ∀ r w, S.system.session.worker? r = some w → ∃ start,
    (S.due r).foldl Clock.tick w.link.clock = (ticksOf r H).foldl Clock.tick (.startingAt start)
  /-- No tick is for a run that has not begun. -/
  unknown : ∀ r, S.system.session.worker? r = none → ticksOf r H = []
  /-- A frame that waits for a run was sent with a tick. -/
  signal : ∀ r w, S.system.session.worker? r = some w → w.link.signal = some .frame → Woken r H
  seen : Seen H

namespace Clocked

/-- A frame that a tick sends is for the current run, which waits for it. -/
theorem signal_tick {run : CurrentRun} (hS : System.Sound ⟨s, .held moment⟩)
    (hc : s.interpreter.current = some run) (hw : s.worker? r = some w)
    (hframe : (Link.wakeAll s.interpreter.tick.2 w.link).signal = some .frame) :
    w.link.signal = some .frame ∨ run.id = r ∧ s.isAwaited = true := by
  obtain ⟨v, stage, hv, -, -, -, hst⟩ := hS.live_worker hc
  rcases Link.signal_wakeAll s.interpreter.tick.2 w.link with hsame | ⟨x, hx, hself, -⟩
  · exact Or.inl (hsame ▸ hframe)
  · right
    obtain ⟨c, hqueued, rfl⟩ := List.mem_map.1 (show x ∈ s.queue.map _ from hx)
    have hmine : c = v.link.continuation := by
      cases hst <;> simp_all
    have hrun : v.link.run = w.link.run := by
      rw [← show c.run = v.link.run by rw [hmine]; rfl]
      exact congrArg Continuation.run hself
    rw [Session.run_of_worker? hv, Session.run_of_worker? hw] at hrun
    have hne : s.interpreter.scheduler.pending ≠ [] := List.ne_nil_of_mem hqueued
    exact ⟨hrun, by simp [Session.isAwaited, hne]⟩

/-- A host that wakes whoever waits: the tick counts from now on, and is due. -/
theorem tick (h : Clocked H ⟨⟨s, .held moment⟩, b⟩) :
    Clocked (H ++ s.tickSights moment)
      ⟨⟨s.decide Interpreter.tick, .woken moment s.isAwaited⟩, false⟩ := by
  obtain ⟨run, hc⟩ := h.sound.exists_current rfl
  obtain ⟨v, -, hv, -⟩ := h.sound.live_worker hc
  have hsights : s.tickSights moment = [.ticked run.id moment s.isAwaited] := by
    rw [Session.tickSights, hc]
    rfl
  have hcurrent : (s.decide Interpreter.tick).current? = some run.id := by
    rw [Session.current?, Session.interpreter_decide]
    exact System.Sound.current?_eq_some hc
  have hview {r : RunId} {w' : Worker} (hw' : (s.decide Interpreter.tick).worker? r = some w') :
      ∃ w, s.worker? r = some w ∧ w' = w.onLink (Link.wakeAll s.interpreter.tick.2) := by
    rw [Session.worker?_decide, Option.map_eq_some_iff] at hw'
    obtain ⟨w, hw, rfl⟩ := hw'
    exact ⟨w, hw, rfl⟩
  have hticks (r : RunId) : ticksOf r (H ++ s.tickSights moment) =
      ticksOf r H ++ if run.id = r then [moment] else [] := by
    rw [ticksOf_append, hsights]
    by_cases hr : run.id = r <;> simp [ticksOf, Sight.tick?, hr]
  constructor
  · exact h.sound.tick
  · intro hb
    cases hb
  · intro _ r w' hr hw'
    obtain ⟨w, hw, rfl⟩ := hview hw'
    cases hcurrent.symm.trans hr
    exact (System.isClockHeld_wakeAll _ _).trans
      (h.held rfl run.id w (System.Sound.current?_eq_some hc) hw)
  · intro r w' hw'
    obtain ⟨w, hw, rfl⟩ := hview hw'
    obtain ⟨start, hclock⟩ := h.clock r w hw
    have hsame : (w.onLink (Link.wakeAll s.interpreter.tick.2)).link.clock = w.link.clock := by
      show (Link.wakeAll s.interpreter.tick.2 w.link).clock = _
      rw [Link.wakeAll_eq]
    have hclock : w.link.clock = (ticksOf r H).foldl Clock.tick (.startingAt start) := hclock
    refine ⟨start, ?_⟩
    rw [hsame, hticks, List.foldl_append, ← hclock]
    by_cases hr : run.id = r
    · simp [due, hcurrent, hr]
    · simp [due, hcurrent, hr]
  · intro r hnone
    rw [Session.worker?_decide, Option.map_eq_none_iff] at hnone
    have hr : run.id ≠ r := by
      rintro rfl
      cases hv.symm.trans hnone
    rw [hticks, if_neg hr, List.append_nil]
    exact h.unknown r hnone
  · intro r w' hw' hframe
    obtain ⟨w, hw, rfl⟩ := hview hw'
    rcases signal_tick h.sound hc hw hframe with hframe | ⟨rfl, hawaited⟩
    · refine (h.signal r w hw hframe).append ?_
      rw [hsights]
      simp
    · exact ⟨H, moment, [], by rw [hsights, hawaited], List.not_mem_nil⟩
  · rw [hsights]
    exact h.seen.snoc_ticked

/-- The clock of the current run is advanced: nothing is due any longer. -/
theorem advance (h : Clocked H ⟨⟨s, .woken moment awaited⟩, false⟩) :
    Clocked H ⟨⟨s.advanceClock moment, .woken moment awaited⟩, true⟩ := by
  constructor
  · exact h.sound.advanceClock moment
  · exact fun _ => rfl
  · intro hp r w' hr hw'
    rw [Session.current?_advanceClock] at hr
    rw [Session.worker?_advanceClock, if_pos hr, Option.map_eq_some_iff] at hw'
    obtain ⟨w, hw, rfl⟩ := hw'
    exact h.held hp r w hr hw
  · intro r w' hw'
    rw [Session.worker?_advanceClock] at hw'
    by_cases hr : s.current? = some r
    · rw [if_pos hr, Option.map_eq_some_iff] at hw'
      obtain ⟨w, hw, rfl⟩ := hw'
      obtain ⟨start, hclock⟩ := h.clock r w hw
      refine ⟨start, ?_⟩
      rw [← hclock]
      simp [due, hr, Worker.onLink, Link.advance]
    · rw [if_neg hr] at hw'
      obtain ⟨start, hclock⟩ := h.clock r w' hw'
      refine ⟨start, ?_⟩
      rw [← hclock]
      simp [due, hr]
  · intro r hnone
    rw [Session.worker?_advanceClock] at hnone
    refine h.unknown r ?_
    split at hnone
    · exact Option.map_eq_none_iff.1 hnone
    · exact hnone
  · intro r w' hw' hframe
    rw [Session.worker?_advanceClock] at hw'
    split at hw'
    · obtain ⟨w, hw, rfl⟩ := Option.map_eq_some_iff.1 hw'
      exact h.signal r w hw hframe
    · exact h.signal r w' hw' hframe
  · exact h.seen

/-- The clock of the current run is let go of. -/
theorem unlock (h : Clocked H ⟨⟨s, .woken moment awaited⟩, true⟩) :
    Clocked H ⟨⟨s.unlock awaited, .ready⟩, false⟩ := by
  have hold {r : RunId} {w' : Worker} (hw' : (s.unlock awaited).worker? r = some w') :
      ∃ w, s.worker? r = some w ∧ w'.link.clock = w.link.clock ∧
        w'.link.signal = w.link.signal := by
    rw [Session.worker?_unlock] at hw'
    split at hw'
    · obtain ⟨w, hw, rfl⟩ := Option.map_eq_some_iff.1 hw'
      exact ⟨w, hw, rfl, rfl⟩
    · exact ⟨w', hw', rfl, rfl⟩
  constructor
  · exact h.sound.unlock
  · intro hb
    cases hb
  · intro hp
    cases hp
  · intro r w' hw'
    obtain ⟨w, hw, hclock, -⟩ := hold hw'
    obtain ⟨start, hfold⟩ := h.clock r w hw
    exact ⟨start, by rw [hclock]; exact hfold⟩
  · intro r hnone
    rw [Session.worker?_unlock] at hnone
    refine h.unknown r ?_
    split at hnone
    · exact Option.map_eq_none_iff.1 hnone
    · exact hnone
  · intro r w' hw' hframe
    obtain ⟨w, hw, -, hsignal⟩ := hold hw'
    exact h.signal r w hw (hsignal ▸ hframe)
  · exact h.seen

/-- A run that is told its clock is not the one that is ticked just now. -/
theorem due_eq_nil (h : Clocked H ⟨⟨s, phase⟩, b⟩) (hw : s.worker? r = some w)
    (hfree : w.link.isClockHeld = false) : due ⟨⟨s, phase⟩, b⟩ r = [] := by
  unfold due
  split
  next hphase =>
    refine if_neg fun hcurrent => ?_
    have hheld := h.held (by rw [hphase]; rfl) r w hcurrent.2 hw
    rw [hfree] at hheld
    cases hheld
  · rfl

/-- A run takes a step. -/
theorem thread (h : Clocked H ⟨⟨s, phase⟩, b⟩) (hs : s.advanceRun r = some t) :
    Clocked (H ++ Exchange.sights r (s.exchange r)) ⟨⟨t, phase⟩, b⟩ := by
  obtain ⟨w, w', hw, hw', hcalm, hcurrent, hothers, hsights⟩ := Session.advanceRun_sights hs
  have hold {id : RunId} {x' : Worker} (hx' : t.worker? id = some x') :
      ∃ x, s.worker? id = some x ∧ x.link.Calm x'.link := by
    by_cases hid : id = r
    · subst hid
      cases hw'.symm.trans hx'
      exact ⟨w, hw, hcalm⟩
    · exact ⟨x', (hothers id hid).symm.trans hx', .refl _⟩
  have hticks (id : RunId) :
      ticksOf id (H ++ Exchange.sights r (s.exchange r)) = ticksOf id H := by
    have hnone : ticksOf id (Exchange.sights r (s.exchange r)) = [] := by
      rcases hsights with he | ⟨he, -⟩ | ⟨he, -⟩ <;> rw [he] <;> rfl
    rw [ticksOf_append, hnone, List.append_nil]
  have hdue (id : RunId) :
      due ⟨⟨t, phase⟩, b⟩ id = due ⟨⟨s, phase⟩, b⟩ id := by
    unfold due
    rw [hcurrent]
  constructor
  · exact h.sound.thread hs
  · exact h.advanced
  · intro hp id x' hid hx'
    obtain ⟨x, hx, hcalm⟩ := hold hx'
    exact hcalm.isClockHeld (h.held hp id x (hcurrent ▸ hid) hx)
  · intro id x' hx'
    obtain ⟨x, hx, hcalm⟩ := hold hx'
    obtain ⟨start, hclock⟩ := h.clock id x hx
    exact ⟨start, by rw [hdue, hticks, hcalm.clock, hclock]⟩
  · intro id hnone
    rw [hticks]
    refine h.unknown id ?_
    by_cases hid : id = r
    · subst hid
      cases hw'.symm.trans hnone
    · exact (hothers id hid).symm.trans hnone
  · intro id x' hx' hframe
    obtain ⟨x, hx, hcalm'⟩ := hold hx'
    refine (h.signal id x hx (hcalm'.signal hframe)).append fun hmem => ?_
    rcases hsights with he | ⟨he, -, htaken⟩ | ⟨he, -⟩
    · rw [he] at hmem
      cases hmem
    · rw [he, List.mem_singleton] at hmem
      cases hmem
      cases hw'.symm.trans hx'
      exact htaken hframe
    · rw [he, List.mem_singleton] at hmem
      cases hmem
  · rcases hsights with he | ⟨he, hframe, -⟩ | ⟨he, hfree⟩
    · rw [he, List.append_nil]
      exact h.seen
    · rw [he]
      exact h.seen.snoc_resumed (h.signal r w hw hframe)
    · rw [he]
      refine h.seen.snoc_read ?_
      obtain ⟨start, hclock⟩ := h.clock r w hw
      rw [h.due_eq_nil hw hfree, Clock.foldl_tick] at hclock
      exact congrArg Clock.delta hclock

/-- Time passes. -/
theorem wait (h : Clocked H ⟨⟨s, phase⟩, b⟩) (time : Duration) :
    Clocked H ⟨⟨s.wait time, phase⟩, b⟩ :=
  ⟨h.sound.moves (.wait s phase time), h.advanced, h.held, h.clock, h.unknown, h.signal, h.seen⟩

/-- A move that has nothing to do with a frame under way. -/
theorem plain {S T : System} {notes : List Note} (h : Clocked H ⟨S, b⟩)
    (hm : System.Moves S notes T) (hphase : S.phase.isHolding = false) : Clocked H ⟨T, b⟩ := by
  have hb : b = false := by
    cases b with
    | false => rfl
    | true =>
        have hholding := h.advanced rfl
        rw [hphase] at hholding
        cases hholding
  have hknown {r : RunId} (hnone : T.session.worker? r = none) : S.session.worker? r = none := by
    cases hw : S.session.worker? r with
    | none => rfl
    | some w =>
        obtain ⟨w', hw'⟩ := h.sound.exists_worker hm hw
        rw [hnone] at hw'
        cases hw'
  constructor
  · exact h.sound.moves hm
  · intro hadvanced
    rw [hb] at hadvanced
    cases hadvanced
  · exact fun hp r w' hr hw' => hm.holds hphase hp hr hw'
  · intro r w' hw'
    rw [due_of_moves hm hphase]
    rcases hm.calm h.sound hphase hw' with ⟨w, hw, hcalm⟩ | ⟨hnone, ⟨start, hclock⟩, -⟩
    · obtain ⟨start, hclock⟩ := h.clock r w hw
      rw [due_of_not_holding hphase] at hclock
      exact ⟨start, hcalm.clock ▸ hclock⟩
    · refine ⟨start, ?_⟩
      rw [hclock, h.unknown r hnone]
  · exact fun r hnone => h.unknown r (hknown hnone)
  · intro r w' hw' hframe
    rcases hm.calm h.sound hphase hw' with ⟨w, hw, hcalm⟩ | ⟨-, -, hnone⟩
    · exact h.signal r w hw (hcalm.signal hframe)
    · rw [hnone] at hframe
      cases hframe
  · exact h.seen

/-- Every move keeps the invariant. -/
theorem moves (h : Clocked H S) (hm : Moves S ns T) : Clocked (H ++ ns) T := by
  cases hm with
  | tick s moment b => exact h.tick
  | advance s moment awaited =>
      rw [List.append_nil]
      exact h.advance
  | unlock s moment awaited =>
      rw [List.append_nil]
      exact h.unlock
  | thread hs phase b => exact h.thread hs
  | wait s phase b time =>
      rw [List.append_nil]
      exact h.wait time
  | plain hm hphase b =>
      rw [List.append_nil]
      exact h.plain hm hphase

/-- Before the first call there is neither a run nor a tick. -/
theorem ofConfig (config : Config) (platform : Platform) :
    Clocked [] (Stepwise.ofConfig config platform) where
  sound := System.sound_ofConfig config platform
  advanced := nofun
  held := nofun
  clock := nofun
  unknown := fun _ _ => rfl
  signal := nofun
  seen := ⟨fun _ A _ h => absurd h (by simp), fun _ _ A _ h => absurd h (by simp)⟩

theorem play (config : Config) (platform : Platform) (ms : List Move) :
    Clocked ((Stepwise.ofConfig config platform).play ms).2
      ((Stepwise.ofConfig config platform).play ms).1 :=
  play_induction (fun h hm => h.moves hm) (ofConfig config platform) ms

end Clocked

/-! ### Every history -/

/-- What a run can rely on when it asks for the time between two ticks. -/
structure Timely (H : List Sight) : Prop extends Seen H where
  /-- After a run went on, the tick that woke it is among the ticks it is told of. -/
  counted : ∀ r d A B C, H = A ++ .resumed r :: B ++ .read r d :: C →
    ∃ A₁ moment A₂, A = A₁ ++ .ticked r moment true :: A₂ ∧ .resumed r ∉ A₂ ∧
      d = Moment.lastGap (ticksOf r A₁ ++ moment :: (ticksOf r A₂ ++ ticksOf r B))

theorem Seen.timely (h : Seen H) : Timely H where
  toSeen := h
  counted r d A B C hH := by
    have htold := h.told r d (A ++ .resumed r :: B) C hH
    obtain ⟨A₁, moment, A₂, rfl, hlast⟩ := h.woken r A (B ++ .read r d :: C) (by simpa using hH)
    refine ⟨A₁, moment, A₂, rfl, hlast, htold.trans (congrArg _ ?_)⟩
    rw [ticksOf_append, ticksOf_append, ticksOf_ticked, ticksOf_resumed, List.append_assoc,
      List.cons_append]

/-- **Whatever steps the threads take while a frame is delivered, a run that goes on is never told
the time from before the tick that woke it.** -/
theorem resumed_reads_advanced (config : Config) (platform : Platform) (ms : List Move) :
    Timely ((ofConfig config platform).play ms).2 :=
  (Clocked.play config platform ms).seen.timely

end Stepwise

end FilterScript
