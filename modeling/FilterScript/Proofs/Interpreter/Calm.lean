/-
What leaves the clock of a run alone.

Only a frame changes a clock or delivers a signal to go on.  Every other move, of the host or of a
thread, is `Calm` on the link of each run that it finds: the clock stays, it is not let go of, and no
frame arrives.
-/
import FilterScript.Proofs.Interpreter.Held

namespace FilterScript

/-- The clock stays, it is not let go of, and no frame is delivered. -/
structure Link.Calm (l l' : Link) : Prop where
  clock : l'.clock = l.clock
  isClockHeld : l.isClockHeld = true → l'.isClockHeld = true
  signal : l'.signal = some .frame → l.signal = some .frame

namespace Link.Calm

theorem refl (l : Link) : Calm l l := ⟨rfl, id, id⟩

/-- Whoever is rejected was not woken by a frame. -/
theorem wakeAll {ws : List Wakeup} (hws : ∀ w ∈ ws, w.resume = .cancelled) (l : Link) :
    Calm l (Link.wakeAll ws l) := by
  refine ⟨?_, ?_, fun hframe => ?_⟩
  · rw [Link.wakeAll_eq]
  · rw [Link.wakeAll_eq]
    exact id
  · rcases Link.signal_wakeAll ws l with hsame | ⟨w, hw, -, hsignal⟩
    · exact hsame ▸ hframe
    · rw [hsignal, hws w hw] at hframe
      cases hframe

theorem onLink {o : Option Worker} {f : Link → Link} {w' : Worker} (hf : ∀ l, Calm l (f l))
    (h : o.map (·.onLink f) = some w') : ∃ w, o = some w ∧ Calm w.link w'.link := by
  obtain ⟨w, hw, rfl⟩ := Option.map_eq_some_iff.1 h
  exact ⟨w, hw, hf w.link⟩

theorem onCurrent {s : Session} {r : RunId} {f : Link → Link} {w' : Worker}
    (hkeeps : Link.KeepsRun f) (hf : ∀ l, Calm l (f l))
    (h : (s.onCurrent f).worker? r = some w') :
    ∃ w, s.worker? r = some w ∧ Calm w.link w'.link := by
  rw [Session.worker?_onCurrent hkeeps] at h
  split at h
  · exact onLink hf h
  · exact ⟨w', h, .refl _⟩

/-- Answers leave the clock alone. -/
theorem answer {q : Request} {queued : Continuation → Bool} {l l' : Link}
    {shared shared' : Surroundings} {x : q.Reply}
    (h : q.answer queued l shared = some (x, l', shared')) : Calm l l' := by
  have hsend (l : Link) (e : RunEvent) : Calm l (l.send e) := by
    unfold Link.send
    split
    · exact ⟨rfl, id, id⟩
    · exact .refl l
  cases q <;> simp only [Request.answer] at h
  case post m =>
    cases h
    exact hsend _ _
  case finish o =>
    cases h
    exact hsend _ _
  case suspend =>
    cases h
    have hsent := hsend { l with waits := l.waits + 1, signal := none } (.suspend ⟨l.run, l.waits + 1⟩)
    refine ⟨hsent.clock, hsent.isClockHeld, fun hframe => ?_⟩
    cases hsent.signal hframe
  case await =>
    split at h
    · cases h
      refine ⟨rfl, id, fun hframe => ?_⟩
      cases hframe
    · split at h
      · cases h
      · cases h
        exact .refl _
  case elapsed =>
    split at h
    · cases h
    · cases h
      exact .refl _
  case delta =>
    split at h
    · cases h
    · cases h
      exact .refl _
  all_goals
    cases h
    exact .refl _

end Link.Calm

namespace System

variable {S T : System} {ns : List Note} {s : Session} {r : RunId} {w' : Worker}

/-- The end of a run wakes nobody with a frame. -/
theorem calm_of_ending {t : Session} {run : CurrentRun} {v : Worker} {o : Outcome}
    (hv : s.worker? run.id = some v) (hending : s.Ending run v o t)
    (hw' : t.worker? r = some w') : ∃ w, s.worker? r = some w ∧ w.link.Calm w'.link := by
  rw [hending.worker] at hw'
  split at hw'
  next hr =>
    cases hw'
    have hcalm := Link.Calm.wakeAll (Sound.resume_finish (i := s.interpreter) o) (v.link.remaining [])
    exact ⟨v, hr ▸ hv, hcalm.clock, hcalm.isClockHeld, hcalm.signal⟩
  · exact Link.Calm.onLink (Link.Calm.wakeAll (Sound.resume_finish o)) hw'

/-- Nor does the beginning of one, and the clock of that one starts then. -/
theorem calm_of_begin {script : String} {moment : Moment} {phase : HostPhase}
    (hS : Sound ⟨s, phase⟩) (hw' : (s.begin script moment).worker? r = some w') :
    (∃ w, s.worker? r = some w ∧ w.link.Calm w'.link) ∨
      s.worker? r = none ∧ (∃ start, w'.link.clock = .startingAt start) ∧ w'.link.signal = none := by
  rw [Session.worker?_begin] at hw'
  split at hw'
  next hr =>
    cases hw'
    exact .inr ⟨hr ▸ hS.unstarted_next, ⟨moment, rfl⟩, rfl⟩
  · exact .inl (Link.Calm.onLink (Link.Calm.wakeAll fun _ => Sound.resume_wake) hw')

/-- A move leaves the clock of a run alone, or it begins the run, unless a frame is under way. -/
theorem Moves.calm (hm : Moves S ns T) (hS : Sound S) (hp : S.phase.isHolding = false)
    (hw' : T.session.worker? r = some w') :
    (∃ w, S.session.worker? r = some w ∧ w.link.Calm w'.link) ∨
      S.session.worker? r = none ∧ (∃ start, w'.link.clock = .startingAt start) ∧
        w'.link.signal = none := by
  cases hm with
  | flag s script moment =>
      exact .inl (Link.Calm.onCurrent Session.keepsRun_cancel (fun _ => ⟨rfl, id, id⟩) hw')
  | leave s =>
      exact .inl (Link.Calm.onCurrent Session.keepsRun_cancel (fun _ => ⟨rfl, id, id⟩) hw')
  | forget s script moment =>
      exact .inl (Link.Calm.onCurrent Session.keepsRun_shut (fun _ => ⟨rfl, id, id⟩) hw')
  | hold s moment h =>
      exact .inl (Link.Calm.onCurrent (f := Link.holdClock) (fun _ => rfl)
        (fun _ => ⟨rfl, fun _ => rfl, id⟩) hw')
  | begin s script moment h => exact calm_of_begin hS hw'
  | refuse s script moment reason h => exact calm_of_begin hS hw'
  | @receive s t phase hr hphase =>
      have hplain : Sound.isPlain phase = true := by
        rcases hphase with ⟨purpose, rfl⟩ | rfl <;> rfl
      obtain ⟨run, v, stage, -, hv, -, hreceipt⟩ := hS.receipt hplain hr
      left
      cases hreceipt with
      | message m rest he hnotes hi hview =>
          rw [hview] at hw'
          split at hw'
          next hr =>
            cases hw'
            exact ⟨v, hr ▸ hv, rfl, id, id⟩
          · exact ⟨w', hw', .refl _⟩
      | suspend hs he hsignal hnotes hi hview =>
          rw [hview] at hw'
          split at hw'
          next hr =>
            cases hw'
            exact ⟨v, hr ▸ hv, rfl, id, id⟩
          · exact ⟨w', hw', .refl _⟩
      | ended o hsent ho hnotes hending => exact calm_of_ending hv hending hw'
  | fail s reason =>
      obtain ⟨run, v, -, hv, -, -, -, hending⟩ := hS.failure
      exact .inl (calm_of_ending hv hending hw')
  | vacate s =>
      exact .inl (Link.Calm.onCurrent Session.keepsRun_shut (fun _ => ⟨rfl, id, id⟩) hw')
  | stop s =>
      rw [Session.worker?_decide] at hw'
      exact .inl (Link.Calm.onLink (Link.Calm.wakeAll fun _ => Sound.resume_wake) hw')
  | thread h phase =>
      obtain ⟨v, u, l, hv, hs, -, hview⟩ := Session.advanceRun_some h
      rw [hview] at hw'
      split at hw'
      next hr =>
        cases hw'
        refine .inl ⟨v, hr ▸ hv, ?_⟩
        rcases Thread.step_cases hs with ⟨-, -, rfl, -⟩ | ⟨q, k, x, -, -, ha⟩
        · exact .refl _
        · exact .answer ha
      · exact .inl ⟨w', hw', .refl _⟩
  | tick s moment => cases hp
  | release s moment awaited => cases hp
  | _ => exact .inl ⟨w', hw', .refl _⟩

/-- The clock of the current run is held when a frame begins. -/
theorem Moves.holds (hm : Moves S ns T) (hp : S.phase.isHolding = false)
    (hp' : T.phase.isHolding = true) (hcurrent : T.session.current? = some r)
    (hw' : T.session.worker? r = some w') : w'.link.isClockHeld = true := by
  cases hm with
  | hold s moment h =>
      have hid : s.interpreter.current.map (·.id) = some r := by
        rwa [Session.current?, Session.interpreter_onCurrent] at hcurrent
      rw [Session.worker?_onCurrent (f := Link.holdClock) fun _ => rfl, if_pos hid,
        Option.map_eq_some_iff] at hw'
      obtain ⟨w, -, rfl⟩ := hw'
      rfl
  | receive h hphase =>
      rw [hp] at hp'
      cases hp'
  | thread h phase =>
      rw [hp] at hp'
      cases hp'
  | wait s phase time =>
      rw [hp] at hp'
      cases hp'
  | tick s moment => cases hp
  | _ => cases hp'

end System

end FilterScript
