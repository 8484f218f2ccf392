/-
No wake-up is lost.

A run that waits for a frame has handed in a continuation, and that continuation is in
one place: in the channel of the run, where the host has not read it yet, with the host,
which holds it for the next frame, or it is gone, and then the run has its signal or
learns that nobody is left to send one.  So whoever waits is either about to be heard,
or about to be woken, or can go on.

The first two places are open to the current run only.  A run that was replaced is in
the last one, and the host has no frame for it any longer: a frame that it still finds
was delivered before.
-/
import FilterScript.Proofs.Interpreter.Ledger
import FilterScript.Proofs.Interpreter.Upkeep

namespace FilterScript

/-- Whether the thread of a run waits for a frame. -/
def Worker.isWaiting (w : Worker) : Bool :=
  match w.thread with
  | .ask .await _ => true
  | _ => false

/-- Whether a call of the host is over, or the host has gone away. -/
def HostPhase.isBetween : HostPhase → Bool
  | ready => true
  | closed => true
  | _ => false

namespace Session

/-- Whether the continuation of a run is on its way to the host. -/
def IsUnread (s : Session) (r : RunId) (w : Worker) : Prop :=
  s.current? = some r ∧ w.link.isOpen = true ∧ .suspend w.link.continuation ∈ w.link.events

/-- Whether the host holds the continuation of a run, and no other. -/
def IsHeld (s : Session) (r : RunId) (w : Worker) : Prop :=
  s.interpreter.current = some ⟨r, true⟩ ∧ s.queue = [w.link.continuation]

/-- Whether nobody is left who could send the signal that a run waits for. -/
def IsDisconnected (s : Session) (w : Worker) : Prop :=
  w.link.isUnread = false ∧ w.link.continuation ∉ s.queue

/-- Whether a run that waits has its signal, or learns that there is none to come. -/
def IsAnswered (s : Session) (w : Worker) : Prop :=
  w.link.signal ≠ none ∨ s.IsDisconnected w

end Session

/-- Of three things one holds. -/
def ExactlyOne (p q r : Prop) : Prop := p ∧ ¬q ∧ ¬r ∨ ¬p ∧ q ∧ ¬r ∨ ¬p ∧ ¬q ∧ r

namespace System

/-- What is promised to the runs that wait, in a history that led to a system. -/
structure NoLostWakeup (H : List Note) (S : System) : Prop where
  /-- The continuation of a run that waits is in one place. -/
  place : S.phase.isBetween = true → ∀ r w, S.session.worker? r = some w → w.isWaiting = true →
    ExactlyOne (S.session.IsUnread r w) (S.session.IsHeld r w) (S.session.IsAnswered w)
  /-- Whoever is answered has a step, and whoever is not has none. -/
  step : ∀ r w, S.session.worker? r = some w → w.isWaiting = true →
    (S.session.IsAnswered w ↔ ∃ t, S.session.advanceRun r = some t)
  /-- The current run is answered by a frame only. -/
  frame : S.phase.isBetween = true → ∀ r w, S.session.worker? r = some w → w.isWaiting = true →
    S.session.current? = some r → S.session.IsAnswered w → w.link.signal = some .frame
  /-- A run that was replaced, or whose host went away, is always answered. -/
  answered : S.phase.isBetween = true → ∀ r w, S.session.worker? r = some w →
    w.isWaiting = true → .abandoned r ∈ H → S.session.IsAnswered w
  /-- A frame that such a run finds was there before, for the same wait. -/
  earlier : ∀ r w, S.session.worker? r = some w → .abandoned r ∈ H → ∀ ms w',
    (S.play ms).1.session.worker? r = some w' → w'.link.signal = some .frame →
      w.link.signal = some .frame ∧ w'.link.continuation = w.link.continuation

variable {H : List Note} {S T : System} {s : Session} {phase : HostPhase} {r : RunId} {w : Worker}

/-! ### Who can go on -/

theorem thread_of_isWaiting (hwait : w.isWaiting = true) : ∃ k, w.thread = .ask .await k := by
  unfold Worker.isWaiting at hwait
  split at hwait
  next k hk => exact ⟨k, hk⟩
  · cases hwait

/-- A run that waits goes on exactly if it is answered. -/
theorem isAnswered_iff (hw : s.worker? r = some w) (hwait : w.isWaiting = true) :
    s.IsAnswered w ↔ ∃ t, s.advanceRun r = some t := by
  obtain ⟨k, hk⟩ := thread_of_isWaiting hwait
  constructor
  · intro hanswered
    cases hsignal : w.link.signal with
    | some resume =>
        have hstep : w.thread.step s.isQueued w.link s.surroundings = some (k (some resume),
            { w.link with signal := none },
            { s.surroundings with now := s.surroundings.now + Thread.stepTime }) := by
          rw [hk]
          simp only [Thread.step, Request.answer, hsignal, Option.map_some]
        exact Session.exists_advanceRun hw hstep
    | none =>
        rcases hanswered with hsome | ⟨hunread, hqueue⟩
        · exact absurd hsignal hsome
        · have hqueued : s.isQueued w.link.continuation = false := by
            simpa [Session.isQueued, Session.queue] using hqueue
          have hstep : w.thread.step s.isQueued w.link s.surroundings = some (k none, w.link,
              { s.surroundings with now := s.surroundings.now + Thread.stepTime }) := by
            rw [hk]
            simp only [Thread.step, Request.answer, hsignal, hunread, hqueued, Bool.or_self,
              Bool.false_eq_true, if_false, Option.map_some]
          exact Session.exists_advanceRun hw hstep
  · rintro ⟨t, ht⟩
    obtain ⟨v, u, l, hv, hstep, -, -⟩ := Session.advanceRun_some ht
    cases hw.symm.trans hv
    cases hsignal : w.link.signal with
    | some resume => exact Or.inl (by simp [hsignal])
    | none =>
        right
        rw [hk] at hstep
        simp only [Thread.step, Request.answer, hsignal] at hstep
        split at hstep
        · cases hstep
        next hnot =>
          rw [Bool.or_eq_true, not_or, Bool.not_eq_true, Bool.not_eq_true] at hnot
          exact ⟨hnot.1, by simpa [Session.isQueued, Session.queue] using hnot.2⟩

/-! ### Where continuations are -/

/-- A run waits only while it is parked. -/
theorem parked_of_isWaiting {stage : Stage} (hwait : w.isWaiting = true)
    (hconf : w.thread.Conforms Stage.isOver stage) : stage = .parked := by
  obtain ⟨k, hk⟩ := thread_of_isWaiting hwait
  rw [hk] at hconf
  exact Standing.eq_parked_of_allows hconf.of_ask.1

/-- Where the continuation of the current run is. -/
theorem place_current (hS : Sound ⟨s, phase⟩) (hphase : phase.isBetween = true)
    (hw : s.worker? r = some w) (hwait : w.isWaiting = true) (hc : s.current? = some r) :
    ExactlyOne (s.IsUnread r w) (s.IsHeld r w) (s.IsAnswered w) ∧
      (s.IsAnswered w → w.link.signal = some .frame) := by
  obtain ⟨run, hrun, rfl⟩ := Option.map_eq_some_iff.mp hc
  obtain ⟨v, stage, hv, hconf, hopen, -, hst⟩ := hS.live_worker hrun
  cases hw.symm.trans hv
  cases parked_of_isWaiting hwait hconf
  have hsuspended : run.isSuspended = !s.queue.isEmpty := by
    have hagrees := (hS.live run hrun).agrees
    cases phase <;> simp [HostPhase.isBetween] at hphase <;> exact hagrees
  cases hst with
  | working hs => rcases hs with hs | hs | ⟨hs, -⟩ <;> cases hs
  | unread ms he hq hsignal =>
      have hunread : w.link.isUnread = true := by simp [Link.isUnread, hopen, he]
      have hanswered : ¬ s.IsAnswered w := by
        rintro (hsome | ⟨hread, -⟩)
        · exact hsome hsignal
        · rw [hunread] at hread
          cases hread
      refine ⟨Or.inl ⟨⟨hc, hopen, by simp [he]⟩, fun hheld => ?_, hanswered⟩,
        fun h => absurd h hanswered⟩
      obtain ⟨-, hheld⟩ := hheld
      rw [hq] at hheld
      cases hheld
  | queued he hq hsignal =>
      have hanswered : ¬ s.IsAnswered w := by
        rintro (hsome | ⟨-, hqueue⟩)
        · exact hsome hsignal
        · exact hqueue (by simp [hq])
      refine ⟨Or.inr (Or.inl ⟨fun hunread => ?_, ⟨?_, hq⟩, hanswered⟩),
        fun h => absurd h hanswered⟩
      · obtain ⟨-, -, hmem⟩ := hunread
        rw [he] at hmem
        cases hmem
      · rw [hrun]
        cases run
        rw [hq] at hsuspended
        cases hsuspended
        rfl
  | woken he hq hsignal =>
      refine ⟨Or.inr (Or.inr ⟨fun hunread => ?_, fun hheld => ?_, Or.inl ?_⟩),
        fun _ => hsignal⟩
      · obtain ⟨-, -, hmem⟩ := hunread
        rw [he] at hmem
        cases hmem
      · obtain ⟨-, hheld⟩ := hheld
        rw [hq] at hheld
        cases hheld
      · simp [hsignal]

/-- The continuation of any other run is gone. -/
theorem place_bygone (hS : Sound ⟨s, phase⟩) (hphase : phase.isBetween = true)
    (hw : s.worker? r = some w) (hne : s.current? ≠ some r) :
    ¬ s.IsUnread r w ∧ ¬ s.IsHeld r w ∧ s.IsAnswered w := by
  have hplain : phase.isCleared = false := by
    cases phase <;> simp [HostPhase.isBetween] at hphase <;> simp [HostPhase.isCleared]
  refine ⟨fun h => hne h.1, fun h => hne (by simp [Session.current?, h.1]), Or.inr ⟨?_, ?_⟩⟩
  · have hshut := (hS.bygone r w hw hne).isClosed
    simp [Link.isUnread, hshut]
  · -- What the host holds is the continuation of the current run.
    intro hmem
    cases hc : s.interpreter.current with
    | none =>
        rw [hS.queue hc hplain] at hmem
        cases hmem
    | some run =>
        obtain ⟨v, stage, hv, -, -, -, hst⟩ := hS.live_worker hc
        have hmine : w.link.continuation = v.link.continuation := by
          cases hst <;> simp_all
        have hrun : w.link.run = v.link.run := congrArg Continuation.run hmine
        rw [Session.run_of_worker? hv, Session.run_of_worker? hw] at hrun
        exact hne (by simp [Session.current?, hc, hrun])

/-! ### Frames for a run that was replaced -/

/-- A step of a thread takes its signal or leaves it, and only with a new wait there is
room for another. -/
theorem signal_of_step {queued : Continuation → Bool} {u u' : Thread Unit} {l l' : Link}
    {shared shared' : Surroundings} (h : u.step queued l shared = some (u', l', shared')) :
    l'.signal = none ∨ l'.signal = l.signal ∧ l'.waits = l.waits := by
  have hsend : ∀ e, (l.send e).signal = l.signal ∧ (l.send e).waits = l.waits := by
    intro e
    simp only [Link.send]
    split <;> exact ⟨rfl, rfl⟩
  rcases Thread.step_cases h with ⟨-, -, rfl, -⟩ | ⟨q, k, x, -, -, ha⟩
  · exact Or.inr ⟨rfl, rfl⟩
  cases q <;> simp only [Request.answer] at ha
  case post m =>
    cases ha
    exact Or.inr (hsend _)
  case finish o =>
    cases ha
    exact Or.inr (hsend _)
  case suspend =>
    cases ha
    left
    simp only [Link.suspend, Link.send]
    split <;> rfl
  case await =>
    split at ha
    · cases ha
      exact Or.inl rfl
    · split at ha <;> cases ha
      exact Or.inr ⟨rfl, rfl⟩
  case elapsed => split at ha <;> cases ha; exact Or.inr ⟨rfl, rfl⟩
  case delta => split at ha <;> cases ha; exact Or.inr ⟨rfl, rfl⟩
  all_goals
    cases ha
    exact Or.inr ⟨rfl, rfl⟩

/-- A frame that a run finds which was replaced before a move was there before it. -/
theorem frame_moves {ns : List Note} {w' : Worker} (hS : Sound S) (hL : Ledger H S)
    (ha : .abandoned r ∈ H) (hm : Moves S ns T) (hw : S.session.worker? r = some w)
    (hw' : T.session.worker? r = some w') (hframe : w'.link.signal = some .frame) :
    w.link.signal = some .frame ∧ w'.link.waits = w.link.waits := by
  rcases hS.upkeep hm hw with ⟨hs, -, -⟩ | ⟨⟨l, hl, hupkeep⟩, -⟩
  · obtain ⟨v, u, l, hv, hstep, -, hview⟩ := Session.advanceRun_some hs
    cases hw.symm.trans hv
    cases ((hview r).trans (if_pos rfl)).symm.trans hw'
    rcases signal_of_step hstep with hnone | ⟨hsame, hwaits⟩
    · rw [hnone] at hframe
      cases hframe
    · exact ⟨hsame.symm.trans hframe, hwaits⟩
  · cases hl.symm.trans hw'
    refine ⟨?_, hupkeep.waits⟩
    rcases hupkeep.signal with hsame | hrejected | ⟨hcurrent, hflagged⟩
    · exact hsame.symm.trans hframe
    · rw [hrejected] at hframe
      cases hframe
    · -- A run that was replaced and is still current was told so.
      rcases ((hL.books r).abandoned ha).silent with ⟨-, htold⟩ | ⟨hne, -⟩
      · rw [htold] at hflagged
        cases hflagged
      · exact absurd hcurrent hne

/-- No history gives a frame to a run that was replaced before it. -/
theorem frame_play (h : Known H S) (ha : .abandoned r ∈ H) (hw : S.session.worker? r = some w)
    (ms : List Move) {w' : Worker} (hw' : (S.play ms).1.session.worker? r = some w')
    (hframe : w'.link.signal = some .frame) :
    w.link.signal = some .frame ∧ w'.link.waits = w.link.waits := by
  have hplay := play_induction
    (P := fun H' S' => Known H' S' ∧ .abandoned r ∈ H' ∧
      ∃ v, S'.session.worker? r = some v ∧ (v.link.signal = some .frame →
        w.link.signal = some .frame ∧ v.link.waits = w.link.waits))
    (fun {H' S' ns T} hP hm => ?_) ⟨h, ha, w, hw, fun hf => ⟨hf, rfl⟩⟩ ms
  · obtain ⟨-, -, v, hv, hkept⟩ := hplay
    cases hw'.symm.trans hv
    exact hkept hframe
  obtain ⟨hknown, ha', v, hv, hkept⟩ := hP
  obtain ⟨v', hv'⟩ := hknown.sound.exists_worker hm hv
  refine ⟨hknown.moves hm, List.mem_append_left _ ha', v', hv', fun hf => ?_⟩
  obtain ⟨hbefore, hwaits⟩ := frame_moves hknown.sound hknown.ledger ha' hm hv hv' hf
  exact ⟨(hkept hbefore).1, hwaits.trans (hkept hbefore).2⟩

/-! ### Every history -/

/-- **No wake-up is lost, at any moment of any history.** -/
theorem no_lost_wakeup (config : Config) (platform : Platform) (ms : List Move) :
    NoLostWakeup ((ofConfig config platform).play ms).2 ((ofConfig config platform).play ms).1 := by
  have hknown := known_play config platform ms
  generalize ((ofConfig config platform).play ms).2 = H at hknown
  generalize ((ofConfig config platform).play ms).1 = S at hknown
  obtain ⟨s, phase⟩ := S
  have hS := hknown.sound
  have hL := hknown.ledger
  refine ⟨fun hphase r w hw hwait => ?_, fun r w => isAnswered_iff, ?_, ?_, ?_⟩
  · by_cases hc : s.current? = some r
    · exact (place_current hS hphase hw hwait hc).1
    · exact Or.inr (Or.inr (place_bygone hS hphase hw hc))
  · exact fun hphase r w hw hwait hc => (place_current hS hphase hw hwait hc).2
  · intro hphase r w hw hwait ha
    have hne : s.current? ≠ some r := by
      intro hc
      rcases ((hL.books r).abandoned ha).silent with ⟨-, htold⟩ | ⟨hne, -⟩
      · cases phase <;> simp [HostPhase.isBetween] at hphase <;> cases htold
      · exact hne hc
    exact (place_bygone hS hphase hw hne).2.2
  · intro r w hw ha ms' w' hw' hframe
    obtain ⟨hbefore, hwaits⟩ := frame_play hknown ha hw ms' hw' hframe
    refine ⟨hbefore, ?_⟩
    simp only [Link.continuation, hwaits, Session.run_of_worker? hw, Session.run_of_worker? hw']

end System

end FilterScript
