/-
What happens to a run beside its own steps.

A run is changed by the steps of its thread and by the host, and by nobody else.  The
host leaves the thread alone and changes the link in few ways: it never takes back that
a run was cancelled, and a signal that it sends says that the run was rejected, unless
a frame was delivered while the run was current.
-/
import FilterScript.Proofs.Interpreter.Sound

namespace FilterScript

/-- Whether a note is about a step of the thread of a run. -/
def Note.isBy (r : RunId) : Note → Bool
  | said r' _ => r' = r
  | looked r' => r' = r
  | marked r' _ => r' = r
  | reported r' _ => r' = r
  | _ => false

namespace System

/-- What the host does to the link of a run. -/
structure Upkeep (S : System) (r : RunId) (l l' : Link) : Prop where
  waits : l'.waits = l.waits
  isCancelled : l.isCancelled = true → l'.isCancelled = true
  signal : l'.signal = l.signal ∨ l'.signal = some .cancelled ∨
    S.session.current? = some r ∧ S.phase.isFlagged = false

namespace Upkeep

variable {S : System} {r : RunId} {l l' : Link}

theorem refl (S : System) (r : RunId) (l : Link) : Upkeep S r l l :=
  ⟨rfl, id, Or.inl rfl⟩

theorem of_eq (hwaits : l'.waits = l.waits)
    (hcancelled : l.isCancelled = true → l'.isCancelled = true)
    (hsignal : l'.signal = l.signal) : Upkeep S r l l' := ⟨hwaits, hcancelled, Or.inl hsignal⟩

/-- Whoever is told that it was rejected was not woken by a frame. -/
theorem of_wakeAll {ws : List Wakeup} (hws : ∀ w ∈ ws, w.resume = .cancelled) :
    Upkeep S r l (Link.wakeAll ws l) := by
  refine ⟨?_, fun hc => ?_, ?_⟩
  · rw [Link.wakeAll_eq]
  · rw [Link.wakeAll_eq]
    exact hc
  · rcases Link.signal_wakeAll ws l with hsame | ⟨w, hw, -, hsignal⟩
    · exact Or.inl hsame
    · exact Or.inr (Or.inl (hsignal.trans (by rw [hws w hw])))

end Upkeep

namespace Sound

variable {S T : System} {ns : List Note} {r : RunId} {w : Worker} {s t : Session}

/-- What a step of another run notes is about that run. -/
theorem isBy_stepNotes {r' : RunId} (hr : r' ≠ r) : ∀ n ∈ s.stepNotes r', n.isBy r = false := by
  intro n hn
  rcases Session.of_mem_stepNotes hn with ⟨m, rfl⟩ | rfl | ⟨name, rfl⟩ | ⟨o, rfl⟩ <;>
    simp [Note.isBy, hr]

theorem isBy_abandonNotes : ∀ n ∈ s.abandonNotes, n.isBy r = false := by
  intro n hn
  obtain ⟨run, -, rfl⟩ := Session.of_mem_abandonNotes hn
  rfl

theorem isBy_receiveNotes : ∀ n ∈ s.receiveNotes, n.isBy r = false := by
  intro n hn
  obtain ⟨run, o, -, rfl⟩ := Session.of_mem_receiveNotes hn
  rfl

theorem isBy_failNotes {reason : String} : ∀ n ∈ s.failNotes reason, n.isBy r = false := by
  intro n hn
  obtain ⟨run, -, rfl⟩ := Session.of_mem_failNotes hn
  rfl

/-- A move that changes the link of no run, or only that of the current one. -/
theorem upkeep_onCurrent {f : Link → Link} (hf : Link.KeepsRun f)
    (hview : ∀ r, t.worker? r = (s.onCurrent f).worker? r)
    (hwaits : ∀ l, (f l).waits = l.waits)
    (hcancelled : ∀ l, l.isCancelled = true → (f l).isCancelled = true)
    (hsignal : ∀ l, (f l).signal = l.signal) (hw : s.worker? r = some w) (S : System) :
    ∃ l, t.worker? r = some ⟨l, w.thread⟩ ∧ Upkeep S r w.link l := by
  rw [hview, Session.worker?_onCurrent hf, hw]
  split
  · exact ⟨f w.link, rfl, .of_eq (hwaits _) (hcancelled _) (hsignal _)⟩
  · exact ⟨w.link, rfl, .refl _ _ _⟩

/-- A move that rejects some continuations. -/
theorem upkeep_wakeAll {ws : List Wakeup} (hws : ∀ w ∈ ws, w.resume = .cancelled)
    (hview : t.worker? r = (s.worker? r).map (·.onLink (Link.wakeAll ws)))
    (hw : s.worker? r = some w) (S : System) :
    ∃ l, t.worker? r = some ⟨l, w.thread⟩ ∧ Upkeep S r w.link l := by
  rw [hview, hw]
  exact ⟨_, rfl, .of_wakeAll hws⟩

/-- The end of the current run. -/
theorem upkeep_ending {run : CurrentRun} {v : Worker} {o : Outcome} (hv : s.worker? run.id = some v)
    (hending : s.Ending run v o t) (hw : s.worker? r = some w) (S : System) :
    ∃ l, t.worker? r = some ⟨l, w.thread⟩ ∧ Upkeep S r w.link l := by
  have hview := hending.worker r
  by_cases hr : r = run.id
  · subst hr
    cases hv.symm.trans hw
    have hwoken := Upkeep.of_wakeAll (S := S) (r := run.id) (l := w.link.remaining [])
      (resume_finish (i := s.interpreter) o)
    exact ⟨_, hview.trans (if_pos rfl), hwoken.waits, hwoken.isCancelled, hwoken.signal⟩
  · exact upkeep_wakeAll (resume_finish o) (hview.trans (if_neg hr)) hw S

/-- Whatever the host takes in. -/
theorem upkeep_receive {phase : HostPhase} (hS : Sound ⟨s, phase⟩) (hp : isPlain phase = true)
    (hr : s.receive = some t) (hw : s.worker? r = some w) (S : System) :
    ∃ l, t.worker? r = some ⟨l, w.thread⟩ ∧ Upkeep S r w.link l := by
  obtain ⟨run, v, stage, hc, hv, -, hreceipt⟩ := hS.receipt hp hr
  -- A run that is read from loses what was read; the link of all others stays as it is.
  have hread : ∀ {rest}, (t.worker? r =
      if r = run.id then some (v.onLink (Link.remaining rest)) else s.worker? r) →
      ∃ l, t.worker? r = some ⟨l, w.thread⟩ ∧ Upkeep S r w.link l := by
    intro rest hview
    by_cases hr : r = run.id
    · subst hr
      cases hv.symm.trans hw
      exact ⟨_, hview.trans (if_pos rfl), .of_eq rfl id rfl⟩
    · exact ⟨w.link, (hview.trans (if_neg hr)).trans hw, .refl _ _ _⟩
  cases hreceipt with
  | message m rest he hnotes hi hview => exact hread (hview r)
  | suspend hs he hsignal hnotes hi hview => exact hread (hview r)
  | ended o hsent ho hnotes hending => exact upkeep_ending hv hending hw S

/-- A run that begins leaves all others alone, but for whoever still waits. -/
theorem upkeep_begin {script : String} {moment : Moment} {phase : HostPhase} (hS : Sound ⟨s, phase⟩)
    (hw : s.worker? r = some w) (S : System) :
    ∃ l, (s.begin script moment).worker? r = some ⟨l, w.thread⟩ ∧ Upkeep S r w.link l := by
  have hr : r ≠ s.interpreter.generation + 1 := by
    rintro rfl
    exact absurd (hS.known _ w hw) (Nat.not_succ_le_self _)
  exact upkeep_wakeAll (fun _ => resume_wake)
    ((Session.worker?_begin script moment r).trans (if_neg hr)) hw S

/-- A frame wakes nobody but the current run. -/
theorem upkeep_tick {moment : Moment} (hS : Sound ⟨s, .held moment⟩) (hw : s.worker? r = some w) :
    ∃ l, (s.decide Interpreter.tick).worker? r = some ⟨l, w.thread⟩ ∧
      Upkeep ⟨s, .held moment⟩ r w.link l := by
  obtain ⟨run, hc⟩ := hS.exists_current rfl
  obtain ⟨v, stage, hv, -, -, -, hst⟩ := hS.live_worker hc
  refine ⟨Link.wakeAll s.interpreter.tick.2 w.link, ?_, ?_, fun hcancelled => ?_, ?_⟩
  · rw [Session.worker?_decide, hw]
    rfl
  · rw [Link.wakeAll_eq]
  · rw [Link.wakeAll_eq]
    exact hcancelled
  · by_cases hr : r = run.id
    · exact Or.inr (Or.inr ⟨hr ▸ current?_eq_some hc, rfl⟩)
    · left
      rcases Link.signal_wakeAll s.interpreter.tick.2 w.link with hsame | ⟨x, hx, hself, -⟩
      · exact hsame
      · -- Whoever is queued is the current run.
        obtain ⟨c, hqueued, rfl⟩ := List.mem_map.mp (show x ∈ s.queue.map _ from hx)
        have hmine : c = v.link.continuation := by
          cases hst <;> simp_all
        have hrun : v.link.run = w.link.run := by
          rw [← show c.run = v.link.run by rw [hmine]; rfl]
          exact congrArg Continuation.run hself
        rw [Session.run_of_worker? hv, Session.run_of_worker? hw] at hrun
        exact absurd hrun.symm hr

/-- **A run that was started takes a step, or the host leaves its thread alone.** -/
theorem upkeep (hS : Sound S) (hm : Moves S ns T) (hw : S.session.worker? r = some w) :
    (S.session.advanceRun r = some T.session ∧ T.phase = S.phase ∧ ns = S.session.stepNotes r) ∨
      (∃ l, T.session.worker? r = some ⟨l, w.thread⟩ ∧ Upkeep S r w.link l) ∧
        ∀ n ∈ ns, n.isBy r = false := by
  have hsame : ∃ l, S.session.worker? r = some ⟨l, w.thread⟩ ∧ Upkeep S r w.link l :=
    ⟨w.link, hw, .refl _ _ _⟩
  have hnone : ∀ n ∈ ([] : List Note), n.isBy r = false := by simp
  cases hm with
  | @thread s t r' h phase =>
      by_cases hr : r' = r
      · subst hr
        exact Or.inl ⟨h, rfl, rfl⟩
      · refine Or.inr ⟨?_, isBy_stepNotes hr⟩
        obtain ⟨_, _, _, _, _, _, hview⟩ := Session.advanceRun_some h
        rw [hview, if_neg (Ne.symm hr)]
        exact hsame
  | receive h hphase =>
      refine Or.inr ⟨hS.upkeep_receive ?_ h hw _, isBy_receiveNotes⟩
      rcases hphase with ⟨purpose, rfl⟩ | rfl <;> rfl
  | flag s script moment =>
      exact Or.inr ⟨upkeep_onCurrent Session.keepsRun_cancel (fun _ => rfl) (fun _ => rfl)
        (fun _ _ => rfl) (fun _ => rfl) hw _, isBy_abandonNotes⟩
  | leave s =>
      exact Or.inr ⟨upkeep_onCurrent Session.keepsRun_cancel (fun _ => rfl) (fun _ => rfl)
        (fun _ _ => rfl) (fun _ => rfl) hw _, isBy_abandonNotes⟩
  | forget s script moment =>
      exact Or.inr ⟨upkeep_onCurrent Session.keepsRun_shut (fun _ => rfl) (fun _ => rfl)
        (fun _ => id) (fun _ => rfl) hw _, hnone⟩
  | begin s script moment h => exact Or.inr ⟨hS.upkeep_begin hw _, hnone⟩
  | refuse s script moment reason h => exact Or.inr ⟨hS.upkeep_begin hw _, by simp [Note.isBy]⟩
  | fail s reason =>
      obtain ⟨run, v, -, hv, -, -, -, hending⟩ := hS.failure
      exact Or.inr ⟨upkeep_ending hv hending hw _, isBy_failNotes⟩
  | hold s moment h =>
      exact Or.inr ⟨upkeep_onCurrent (f := Link.holdClock) (fun _ => rfl) (fun _ => rfl)
        (fun _ => rfl) (fun _ => id) (fun _ => rfl) hw _, hnone⟩
  | tick s moment => exact Or.inr ⟨hS.upkeep_tick hw, hnone⟩
  | release s moment awaited =>
      refine Or.inr ⟨upkeep_onCurrent (f := fun l => (l.advance moment).releaseClock) (fun _ => rfl)
        (fun _ => ?_) (fun _ => rfl) (fun _ => id) (fun _ => rfl) hw _, hnone⟩
      cases awaited <;> rfl
  | vacate s =>
      exact Or.inr ⟨upkeep_onCurrent Session.keepsRun_shut (fun _ => rfl) (fun _ => rfl)
        (fun _ => id) (fun _ => rfl) hw _, hnone⟩
  | stop s =>
      exact Or.inr ⟨upkeep_wakeAll (fun _ => resume_wake) (Session.worker?_decide _ r) hw _, hnone⟩
  | hand s => exact Or.inr ⟨hsame, by simp [Note.isBy]⟩
  | _ => exact Or.inr ⟨hsame, hnone⟩

/-- A run that was started stays known. -/
theorem exists_worker (hS : Sound S) (hm : Moves S ns T) (hw : S.session.worker? r = some w) :
    ∃ w', T.session.worker? r = some w' := by
  rcases hS.upkeep hm hw with ⟨hs, -, -⟩ | ⟨⟨l, hl, -⟩, -⟩
  · obtain ⟨_, _, _, _, _, _, hview⟩ := Session.advanceRun_some hs
    exact ⟨_, (hview r).trans (if_pos rfl)⟩
  · exact ⟨_, hl⟩

/-- Only a run that was started takes steps. -/
theorem started_of_isBy {n : Note} (hm : Moves S ns T) (hn : n ∈ ns) (hr : n.isBy r = true) :
    ∃ w, S.session.worker? r = some w := by
  have hother : (∀ n ∈ ns, n.isBy r = false) → ∃ w, S.session.worker? r = some w := by
    intro h
    rw [h n hn] at hr
    cases hr
  cases hm with
  | @thread s t r' h phase =>
      by_cases hr' : r' = r
      · obtain ⟨w, _, _, hw, -⟩ := Session.advanceRun_some h
        exact ⟨w, hr' ▸ hw⟩
      · exact hother (isBy_stepNotes hr')
  | flag s script moment => exact hother isBy_abandonNotes
  | leave s => exact hother isBy_abandonNotes
  | refuse s script moment reason h => exact hother (by simp [Note.isBy])
  | fail s reason => exact hother isBy_failNotes
  | receive h hphase => exact hother isBy_receiveNotes
  | hand s => exact hother (by simp [Note.isBy])
  | _ => cases hn

end Sound

/-! ### The beginning of a run -/

variable {S T : System} {ns : List Note} {r : RunId}

/-- A move that starts a run, with a thread or without one. -/
inductive Begins (S : System) (ns : List Note) (T : System) (script : String)
    (moment : Moment) : Prop where
  | served (h : S.session.refusal? = none) (hns : ns = [])
      (hT : T = ⟨S.session.begin script moment, .ready⟩)
  | refused (reason : String) (h : S.session.refusal? = some reason)
      (hns : ns = [.refused (S.session.newest + 1) reason])
      (hT : T = ⟨S.session.begin script moment, .refused reason⟩)

theorem Begins.session {script : String} {moment : Moment} (h : Begins S ns T script moment) :
    T.session = S.session.begin script moment := by
  cases h with
  | served h hns hT => rw [hT]
  | refused reason h hns hT => rw [hT]

theorem Begins.worker? {script : String} {moment : Moment} (h : Begins S ns T script moment) :
    T.session.worker? (S.session.newest + 1) = some (S.session.beginner script moment) := by
  rw [h.session]
  exact (Session.worker?_begin script moment _).trans (if_pos rfl)

/-- Only the start of a run notes that there is no thread for it. -/
theorem Moves.of_refused {reason : String} (hm : Moves S ns T) (h : .refused r reason ∈ ns) :
    ∃ script moment, S.phase = .cleared script moment ∧ r = S.session.newest + 1 ∧
      S.session.refusal? = some reason ∧ T = ⟨S.session.begin script moment, .refused reason⟩ := by
  cases hm with
  | refuse s script moment reason' hrefused =>
      cases List.mem_singleton.mp h
      exact ⟨script, moment, rfl, rfl, hrefused, rfl⟩
  | thread hs phase =>
      rcases Session.of_mem_stepNotes h with ⟨_, he⟩ | he | ⟨_, he⟩ | ⟨_, he⟩ <;> cases he
  | receive hr hphase =>
      obtain ⟨run, o, -, he⟩ := Session.of_mem_receiveNotes h
      cases he
  | flag s script moment =>
      obtain ⟨run, -, he⟩ := Session.of_mem_abandonNotes h
      cases he
  | leave s =>
      obtain ⟨run, -, he⟩ := Session.of_mem_abandonNotes h
      cases he
  | fail s reason' =>
      obtain ⟨run, -, he⟩ := Session.of_mem_failNotes h
      cases he
  | hand s => cases List.mem_singleton.mp h
  | _ => cases h

/-- Only the end of the current run is taken in. -/
theorem Moves.current_of_collected {o : Outcome} (hm : Moves S ns T) (h : .collected r o ∈ ns) :
    S.session.current? = some r := by
  cases hm with
  | receive hr hphase =>
      obtain ⟨run, o', hc, he⟩ := Session.of_mem_receiveNotes h
      cases he
      exact Sound.current?_eq_some hc
  | fail s reason =>
      obtain ⟨run, hc, he⟩ := Session.of_mem_failNotes h
      cases he
      exact Sound.current?_eq_some hc
  | thread hs phase =>
      rcases Session.of_mem_stepNotes h with ⟨_, he⟩ | he | ⟨_, he⟩ | ⟨_, he⟩ <;> cases he
  | flag s script moment =>
      obtain ⟨run, -, he⟩ := Session.of_mem_abandonNotes h
      cases he
  | leave s =>
      obtain ⟨run, -, he⟩ := Session.of_mem_abandonNotes h
      cases he
  | refuse s script moment reason hrefused => simp at h
  | hand s => simp at h
  | _ => cases h

/-! ### Numbers that no run has yet -/

section Unknown

variable {s : Session} {id : RunId} (h : s.worker? r = none)
include h

theorem unknown_onCurrent {f : Link → Link} (hf : Link.KeepsRun f) :
    (s.onCurrent f).worker? r = none := by
  rw [Session.worker?_onCurrent hf, h]
  split <;> rfl

theorem unknown_decide {f : Interpreter → Interpreter × List Wakeup} :
    (s.decide f).worker? r = none := by
  rw [Session.worker?_decide, h]
  rfl

theorem unknown_closing {f : Interpreter → Interpreter × List Wakeup} :
    (s.closing id f).worker? r = none := by
  rw [Session.worker?_closing, h]
  split <;> rfl

theorem unknown_onLink {f : Link → Link} (hf : Link.KeepsRun f) :
    (s.onLink id f).worker? r = none := by
  rw [Session.worker?_onLink hf, h]
  split <;> rfl

theorem unknown_begin (script : String) (moment : Moment) :
    (s.begin script moment).worker? r = none ∨ r = s.newest + 1 := by
  by_cases hnew : r = s.interpreter.generation + 1
  · exact Or.inr hnew
  · rw [Session.worker?_begin, if_neg hnew, h]
    exact Or.inl rfl

end Unknown

/-- Only the beginning of a run makes its number known. -/
theorem Moves.unknown (hm : Moves S ns T) (hr : S.session.worker? r = none) :
    T.session.worker? r = none ∨
      r = S.session.newest + 1 ∧ ∃ script moment, Begins S ns T script moment := by
  cases hm with
  | flag s script moment => exact Or.inl (unknown_onCurrent hr Session.keepsRun_cancel)
  | leave s => exact Or.inl (unknown_onCurrent hr Session.keepsRun_cancel)
  | forget s script moment => exact Or.inl (unknown_onCurrent hr Session.keepsRun_shut)
  | vacate s => exact Or.inl (unknown_onCurrent hr Session.keepsRun_shut)
  | hold s moment h => exact Or.inl (unknown_onCurrent hr (f := Link.holdClock) fun _ => rfl)
  | release s moment awaited =>
      refine Or.inl (Eq.trans ?_ (unknown_onCurrent hr
        (f := fun l => (l.advance moment).releaseClock) fun _ => rfl))
      cases awaited <;> rfl
  | tick s moment => exact Or.inl (unknown_decide hr)
  | stop s => exact Or.inl (unknown_decide hr)
  | begin s script moment h =>
      exact (unknown_begin hr script moment).imp_right fun hnew => ⟨hnew, script, moment, .served h rfl rfl⟩
  | refuse s script moment reason h =>
      exact (unknown_begin hr script moment).imp_right fun hnew => ⟨hnew, script, moment, .refused reason h rfl rfl⟩
  | fail s reason =>
      left
      unfold Session.fail
      split
      · exact hr
      · exact unknown_closing hr
  | @thread s t r' h phase =>
      obtain ⟨v, u, l, hv, -, -, hview⟩ := Session.advanceRun_some h
      have hne : r ≠ r' := by
        rintro rfl
        cases hr.symm.trans hv
      exact Or.inl ((hview r).trans ((if_neg hne).trans hr))
  | receive h hphase =>
      obtain ⟨run, v, hc, hv, hreceived⟩ := Session.receive_some h
      left
      rcases hreceived with ⟨e, rest, -, rfl⟩ | ⟨-, -, rfl⟩
      · exact unknown_closing (unknown_onLink hr (Session.keepsRun_remaining rest))
      · exact unknown_closing hr
  | _ => exact Or.inl hr

end System

end FilterScript
