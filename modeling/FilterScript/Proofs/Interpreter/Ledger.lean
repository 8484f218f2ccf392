/-
The books are balanced at every moment.

What is left are the moves of a frame, which changes the clock and the signal of the
current run and not what the run sent, and the last move of a host that goes away.
The farewell of a run that got no thread stands in the books because the host has noted
that there was none.
-/
import FilterScript.Proofs.Interpreter.Ledger.Receive
import FilterScript.Proofs.Interpreter.Ledger.Replace
import FilterScript.Proofs.Interpreter.Unserved

namespace FilterScript

namespace System

namespace Ledger

variable {H : List Note} {s t : Session} {phase phase' : HostPhase}

/-- The clock is held, or may be read again. -/
theorem setClock {f : Link → Link} (h : Ledger H ⟨s, phase⟩) (hf : Link.KeepsRun f)
    (hevents : ∀ l, (f l).events = l.events)
    (hview : ∀ r, t.worker? r = (s.onCurrent f).worker? r)
    (houtbox : t.interpreter.outbox = s.interpreter.outbox) (hnewest : t.newest = s.newest)
    (hcurrent : t.current? = s.current?) (hflagged : phase'.isFlagged = phase.isFlagged)
    (hgone : phase.isGone = false) : Ledger H ⟨t, phase'⟩ := by
  refine h.idle houtbox hnewest hcurrent (fun r => ?_) (fun _ => hflagged) (by simp [hgone])
  obtain ⟨g, hg, hsame⟩ := worker_onCurrent (s := s) hf hevents r
  refine ⟨g, (hview r).trans hg, fun hc => hsame ?_⟩
  simpa only [Session.current?, Session.interpreter_onCurrent] using hcurrent.symm.trans hc

theorem hold {moment : Moment} (h : Ledger H ⟨s, .collecting (.frame moment)⟩) :
    Ledger H ⟨s.onCurrent Link.holdClock, .held moment⟩ := by
  refine h.setClock (f := Link.holdClock) (fun _ => rfl) (fun _ => rfl) (fun _ => rfl) ?_ ?_ ?_
    rfl rfl
  · rw [Session.interpreter_onCurrent]
  · simp only [Session.newest, Session.interpreter_onCurrent]
  · simp only [Session.current?, Session.interpreter_onCurrent]

theorem tick {moment : Moment} {awaited : Bool} (h : Ledger H ⟨s, .held moment⟩) :
    Ledger H ⟨s.decide Interpreter.tick, .woken moment awaited⟩ := by
  refine h.idle ?_ ?_ ?_ (fun r => ⟨_, Session.worker?_decide _ r, fun _ l => ?_⟩) (fun _ => rfl)
    nofun
  · rw [Session.interpreter_decide]
    rfl
  · simp only [Session.newest, Session.interpreter_decide]
    rfl
  · simp only [Session.current?, Session.interpreter_decide]
    rfl
  · rw [Link.wakeAll_eq]

theorem release {moment : Moment} {awaited : Bool} (h : Ledger H ⟨s, .woken moment awaited⟩) :
    Ledger H ⟨s.release moment awaited, .ready⟩ := by
  have hi : (s.release moment awaited).interpreter =
      if awaited then s.interpreter.resume else s.interpreter := by
    cases awaited <;> simp [Session.release]
  refine h.setClock (f := fun l => (l.advance moment).releaseClock) (fun _ => rfl) (fun _ => rfl)
    (fun r => ?_) ?_ ?_ ?_ rfl rfl
  · cases awaited <;> rfl
  · rw [hi]
    cases awaited <;> rfl
  · simp only [Session.newest, hi]
    cases awaited <;> rfl
  · simp only [Session.current?, hi]
    cases awaited <;> simp [Interpreter.resume, Function.comp_def]

/-- Whoever still waits is rejected, and says nothing. -/
theorem stop (h : Ledger H ⟨s, .left⟩) : Ledger H ⟨s.decide Interpreter.stop, .closed⟩ := by
  refine h.idle ?_ ?_ ?_ (fun r => ⟨_, Session.worker?_decide _ r, fun _ l => ?_⟩) (fun _ => rfl)
    fun _ => rfl
  · rw [Session.interpreter_decide]
    rfl
  · simp only [Session.newest, Session.interpreter_decide]
    rfl
  · simp only [Session.current?, Session.interpreter_decide]
    rfl
  · rw [Link.wakeAll_eq]

/-! ### Every move -/

/-- Every move keeps the books. -/
theorem moves {S T : System} {ns : List Note} (h : Ledger H S) (hS : Sound S) (hU : Unserved H S)
    (hm : Moves S ns T) : Ledger (H ++ ns) T := by
  cases hm with
  | flag s script moment => exact h.flag hS rfl
  | receive hr hphase =>
      refine h.receive hS ?_ hr
      rcases hphase with ⟨purpose, rfl⟩ | rfl <;> rfl
  | hand s => exact h.hand
  | leave s => exact h.flag hS rfl
  | thread hs phase => exact h.thread hS hs
  | forget s script moment => exact (List.append_nil H).symm ▸ h.forget hS
  | begin s script moment hserved => exact h.begin hS bookless_nil rfl
  | refuse s script moment reason hrefused =>
      exact h.begin hS ⟨fun _ => rfl, rfl, by simp, by simp⟩ rfl
  | fail s reason =>
      obtain ⟨r, hr, hnote⟩ := hU.noted rfl
      exact h.fail hS hr hnote
  | hold s moment hc => exact (List.append_nil H).symm ▸ h.hold
  | tick s moment => exact (List.append_nil H).symm ▸ h.tick
  | release s moment awaited => exact (List.append_nil H).symm ▸ h.release
  | vacate s => exact (List.append_nil H).symm ▸ h.vacate hS
  | stop s => exact (List.append_nil H).symm ▸ h.stop
  | wait s phase time =>
      rw [List.append_nil]
      exact h.idle rfl rfl rfl (worker_id fun _ => rfl) (fun _ => rfl) id
  | collect s purpose =>
      exact (List.append_nil H).symm ▸ h.plain rfl rfl rfl rfl rfl fun _ => rfl
  | settle s => exact (List.append_nil H).symm ▸ h.plain rfl rfl rfl rfl rfl fun _ => rfl
  | skip s moment hc => exact (List.append_nil H).symm ▸ h.plain rfl rfl rfl rfl rfl fun _ => rfl
  | settled s hs => exact (List.append_nil H).symm ▸ h.plain rfl rfl rfl rfl rfl fun _ => rfl
  | giveUp s => exact (List.append_nil H).symm ▸ h.plain rfl rfl rfl rfl rfl fun _ => rfl
  | tend s f => exact (List.append_nil H).symm ▸ h.plain rfl rfl rfl rfl rfl fun _ => rfl
  | diagnose s => exact (List.append_nil H).symm ▸ h.plain rfl rfl rfl rfl rfl fun _ => rfl

end Ledger

/-- What is known of a system and the history that led to it. -/
structure Known (H : List Note) (S : System) : Prop where
  sound : Sound S
  ledger : Ledger H S
  unserved : Unserved H S

theorem Known.moves {H ns : List Note} {S T : System} (h : Known H S) (hm : Moves S ns T) :
    Known (H ++ ns) T :=
  ⟨h.sound.moves hm, h.ledger.moves h.sound h.unserved hm, h.unserved.moves h.sound hm⟩

/-- **The books are balanced at every moment of every history**, and every run without a thread is
accounted for. -/
theorem known_play (config : Config) (platform : Platform) (ms : List Move) :
    Known ((ofConfig config platform).play ms).2 ((ofConfig config platform).play ms).1 :=
  play_induction (H := []) (fun h hm => h.moves hm)
    ⟨sound_ofConfig config platform, ledger_ofConfig config platform,
      unserved_ofConfig config platform⟩ ms

end System

end FilterScript
