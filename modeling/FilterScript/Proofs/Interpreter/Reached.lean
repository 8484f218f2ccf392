/-
What is known of a history and the system that it led to.

The invariants are proved move by move, each for itself.  `Reached` puts them together:
whoever knows that a history led to a system may use all of them, and proves a new one
by an induction in which the old ones are at hand.
-/
import FilterScript.Proofs.Interpreter.Held
import FilterScript.Proofs.Interpreter.Ledger
import FilterScript.Proofs.Interpreter.Upkeep

namespace FilterScript.System

/-- A history that led to a system, on some machine. -/
def Reached (config : Config) (H : List Note) (S : System) : Prop :=
  ∃ platform ms, (ofConfig config platform).play ms = (S, H)

variable {config : Config} {H B ns : List Note} {S T : System}

theorem reached_play (config : Config) (platform : Platform) (ms : List Move) :
    Reached config ((ofConfig config platform).play ms).2 ((ofConfig config platform).play ms).1 :=
  ⟨platform, ms, rfl⟩

/-- Whoever does nothing posts nothing. -/
theorem posted_of_isBy {r : RunId} (h : ∀ n ∈ B, n.isBy r = false) : posted r B = [] := by
  refine List.filterMap_eq_nil_iff.mpr fun n hn => ?_
  have hother := h n hn
  cases n <;> first | rfl | simp_all [Note.isBy, Note.said?]

namespace Reached

theorem append (h : Reached config H S) (h' : ∃ ms, S.play ms = (T, B)) :
    Reached config (H ++ B) T := by
  obtain ⟨platform, ms, hms⟩ := h
  obtain ⟨ms', hms'⟩ := h'
  exact ⟨platform, ms ++ ms', by simp [play_append, hms, hms']⟩

theorem step (h : Reached config H S) (m : Move) :
    Reached config (H ++ (S.step m).2) (S.step m).1 :=
  h.append ⟨[m], by simp [play]⟩

/-- What holds before the first call and is kept by every move, holds always. -/
theorem induct {P : List Note → System → Prop} (hbegin : ∀ platform, P [] (ofConfig config platform))
    (hmoves : ∀ {H S ns T}, Reached config H S → P H S → Moves S ns T → P (H ++ ns) T)
    (h : Reached config H S) : P H S := by
  have hplay : ∀ ms {H S}, Reached config H S → P H S →
      P (H ++ (S.play ms).2) (S.play ms).1 := by
    intro ms
    induction ms with
    | nil =>
        intro H S _ hP
        simpa [play] using hP
    | cons m ms ih =>
        intro H S hS hP
        have hnext : P (H ++ (S.step m).2) (S.step m).1 := by
          rcases step_moves S m with hstill | hm
          · rw [hstill]
            simpa using hP
          · exact hmoves hS hP hm
        simpa [play] using ih (hS.step m) hnext
  obtain ⟨platform, ms, hms⟩ := h
  have hall := hplay ms ⟨platform, [], rfl⟩ (hbegin platform)
  rwa [List.nil_append, hms] at hall

theorem known (h : Reached config H S) : Known H S := by
  obtain ⟨platform, ms, hms⟩ := h
  have hknown := known_play config platform ms
  rwa [hms] at hknown

theorem sound (h : Reached config H S) : Sound S := h.known.sound

theorem ledger (h : Reached config H S) : Ledger H S := h.known.ledger

theorem unserved (h : Reached config H S) : Unserved H S := h.known.unserved

theorem timely (h : Reached config H S) : Timely S := by
  obtain ⟨platform, ms, hms⟩ := h
  have htimely := timely_play config platform ms
  rwa [hms] at htimely

/-- Only runs that were started have done anything. -/
theorem started (h : Reached config H S) {n : Note} {r : RunId} (hn : n ∈ H)
    (hr : n.isBy r = true) : S.session.worker? r ≠ none := by
  refine h.induct (P := fun H S => n ∈ H → S.session.worker? r ≠ none) (by simp) ?_ hn
  intro H S ns T hS hP hm hn
  obtain ⟨w, hw⟩ : ∃ w, S.session.worker? r = some w := by
    rcases List.mem_append.mp hn with hn | hn
    · exact Option.ne_none_iff_exists'.mp (hP hn)
    · exact Sound.started_of_isBy hm hn hr
  obtain ⟨w', hw'⟩ := hS.sound.exists_worker hm hw
  simp [hw']

/-- A run ends once: when its end has been taken in it is not current any longer. -/
theorem collected_unique (h : Reached config H S) {r : RunId} {o o' : Outcome}
    (ho : .collected r o ∈ H) (ho' : .collected r o' ∈ H) : o = o' := by
  refine h.induct (P := fun H _ => ∀ o o', .collected r o ∈ H → .collected r o' ∈ H → o = o')
    (by simp) ?_ o o' ho ho'
  intro H S ns T hS hP hm o o' ho ho'
  have hnew {o o'} (ho : .collected r o ∈ H) (ho' : .collected r o' ∈ ns) : o = o' :=
    absurd (hm.current_of_collected ho') ((hS.ledger.books r).collected o ho).bygone
  rcases List.mem_append.mp ho with ho | ho <;> rcases List.mem_append.mp ho' with ho' | ho'
  · exact hP o o' ho ho'
  · exact hnew ho ho'
  · exact (hnew ho' ho).symm
  · rcases hm.notes with rfl | ⟨n, rfl⟩
    · cases ho
    · cases (List.mem_singleton.mp ho).trans (List.mem_singleton.mp ho').symm
      rfl

/-! ### Runs without a thread -/

/-- Nobody does anything for a run that got no thread. -/
theorem not_isBy_of_refused (h : Reached config H S) {r : RunId} {reason : String}
    (hr : .refused r reason ∈ H) : ∀ n ∈ H, n.isBy r = false := by
  refine h.induct (P := fun H _ => .refused r reason ∈ H → ∀ n ∈ H, n.isBy r = false) (by simp)
    ?_ hr
  intro H S ns T hS hP hm hr n hn
  rcases List.mem_append.mp hr with hr | hr
  · rcases List.mem_append.mp hn with hn | hn
    · exact hP hr n hn
    · obtain ⟨w, hw, hcrash⟩ := hS.unserved.crash hr
      rcases hS.sound.upkeep hm hw with ⟨hs, -, -⟩ | ⟨-, hothers⟩
      · rw [Unserved.advanceRun_of_crash hw hcrash] at hs
        cases hs
      · exact hothers n hn
  · obtain ⟨script, moment, -, rfl, -, -⟩ := hm.of_refused hr
    -- The run begins with this move, so nothing was done for it before.
    cases hby : n.isBy (S.session.newest + 1) with
    | false => rfl
    | true =>
        have hunknown := hS.sound.unstarted_next
        rcases List.mem_append.mp hn with hn | hn
        · exact absurd hunknown (hS.started hn hby)
        · obtain ⟨w, hw⟩ := Sound.started_of_isBy hm hn hby
          cases hunknown.symm.trans hw

/-- The end of a run was reported, or there is nobody who could report it. -/
theorem reported_or_crash (h : Reached config H S) {r : RunId} {o : Outcome}
    (ho : .collected r o ∈ H) :
    .reported r o ∈ H ∨ ∃ w, S.session.worker? r = some w ∧ w.thread = .crash := by
  cases ((h.ledger.books r).collected o ho).truly with
  | reported hreported => exact .inl hreported
  | lost ho hlost => exact .inr hlost
  | refused reason ho hrefused => exact .inr (h.unserved.crash hrefused)

/-- **What the host takes in of a run without a thread is that it failed to start.** -/
theorem collected_of_refused (h : Reached config H S) {r : RunId} {reason : String} {o : Outcome}
    (hr : .refused r reason ∈ H) (ho : .collected r o ∈ H) : o = Session.unstartedOutcome reason := by
  rcases h.unserved.ended hr with ⟨-, hcurrent⟩ | hended
  · exact absurd hcurrent ((h.ledger.books r).collected o ho).bygone
  · exact h.collected_unique ho hended

end Reached

/-! ### What the host was set up with

Nothing changes the settings of the host nor the machine that it runs on.
-/

theorem config_finish (i : Interpreter) (o : Outcome) : (i.finish o).1.config = i.config := by
  simp only [Interpreter.finish]
  split
  · rfl
  · cases o <;> rfl

theorem config_dispatch (i : Interpreter) (e : RunEvent) : (i.dispatch e).1.config = i.config := by
  simp only [Interpreter.dispatch]
  split
  · rfl
  · cases e with
    | finished o => exact config_finish i o
    | _ => rfl

theorem Moves.config_eq (hm : Moves S ns T) :
    T.session.interpreter.config = S.session.interpreter.config := by
  cases hm with
  | flag s script moment => simp [Session.flag]
  | leave s => simp [Session.flag]
  | forget s script moment =>
      simp only [Session.interpreter_forget, Interpreter.supersede]
      split <;> rfl
  | begin s script moment hserved =>
      rw [Session.interpreter_begin]
      rfl
  | refuse s script moment reason hrefused =>
      rw [Session.interpreter_begin]
      rfl
  | fail s reason =>
      cases hc : s.interpreter.current with
      | none => simp only [Session.fail, hc]
      | some run =>
          rw [Session.fail_eq hc, Session.interpreter_closing]
          exact config_finish _ _
  | receive h hphase =>
      obtain ⟨run, w, -, -, ⟨e, rest, -, rfl⟩ | ⟨-, -, rfl⟩⟩ := Session.receive_some h
      · rw [Session.interpreter_closing, config_dispatch, Session.interpreter_onLink]
      · rw [Session.interpreter_closing]
        exact config_finish _ _
  | hold s moment h => simp
  | tick s moment =>
      rw [Session.interpreter_decide]
      rfl
  | release s moment awaited => cases awaited <;> simp [Session.release, Interpreter.resume]
  | vacate s =>
      rw [Session.interpreter_leave]
      rfl
  | stop s =>
      rw [Session.interpreter_decide]
      rfl
  | thread h phase =>
      obtain ⟨_, _, _, _, _, hinterpreter, _⟩ := Session.advanceRun_some h
      rw [hinterpreter]
  | _ => rfl

theorem Moves.platform_eq (hm : Moves S ns T) : T.session.platform = S.session.platform := by
  cases hm with
  | receive h hphase =>
      obtain ⟨run, w, -, -, ⟨e, rest, -, rfl⟩ | ⟨-, -, rfl⟩⟩ := Session.receive_some h <;> simp
  | thread h phase => exact Session.platform_advanceRun h
  | fail s reason =>
      unfold Session.fail
      split <;> simp
  | release s moment awaited => cases awaited <;> simp [Session.release]
  | _ => simp [Session.flag, Session.forget, Session.begin, Session.leave, Session.onWidgets,
      Session.takeDiagnostics, Session.take, Session.wait]

/-- A system stays on its machine. -/
theorem platform_of_play (h : ∃ ms, S.play ms = (T, B)) : T.session.platform = S.session.platform := by
  obtain ⟨ms, hms⟩ := h
  have hplatform := play_induction (P := fun _ U => U.session.platform = S.session.platform)
    (H := []) (fun h hm => hm.platform_eq.trans h) rfl ms
  rwa [hms] at hplatform

theorem platform_play (config : Config) (platform : Platform) (ms : List Move) :
    ((ofConfig config platform).play ms).1.session.platform = platform :=
  platform_of_play ⟨ms, rfl⟩

namespace Reached

theorem config_eq (h : Reached config H S) : S.session.interpreter.config = config :=
  h.induct (P := fun _ S => S.session.interpreter.config = config) (fun _ => rfl) fun _ hP hm =>
    hm.config_eq.trans hP

/-- Why the platform of a system has no thread for a run, if it has none. -/
theorem refusal?_eq (h : Reached config H S) :
    S.session.refusal? = S.session.platform.refusal? (S.session.newest + 1) config.stackSize := by
  rw [Session.refusal?, h.config_eq]
  rfl

/-- **The runs without a thread are those that the platform has none for.** -/
theorem refused_iff (h : Reached config H S) {r : RunId} {reason : String} :
    .refused r reason ∈ H ↔
      S.session.worker? r ≠ none ∧ S.session.platform.refusal? r config.stackSize = some reason := by
  refine h.induct (P := fun H S => .refused r reason ∈ H ↔
    S.session.worker? r ≠ none ∧ S.session.platform.refusal? r config.stackSize = some reason) ?_ ?_
  · exact fun _ => ⟨nofun, fun hr => absurd rfl hr.1⟩
  intro H S ns T hS hP hm
  rw [List.mem_append, hP, hm.platform_eq]
  cases hw : S.session.worker? r with
  | some w =>
      obtain ⟨w', hw'⟩ := hS.sound.exists_worker hm hw
      have hnone : .refused r reason ∉ ns := fun hn => by
        obtain ⟨-, -, -, rfl, -, -⟩ := hm.of_refused hn
        rw [hS.sound.unstarted_next] at hw
        cases hw
      simp [hw', hnone]
  | none =>
      rcases hm.unknown hw with hnone | ⟨rfl, script, moment, hbegins⟩
      · have hnotes : .refused r reason ∉ ns := fun hn => by
          obtain ⟨script, moment, -, rfl, -, rfl⟩ := hm.of_refused hn
          cases ((Session.worker?_begin script moment _).trans (if_pos rfl)).symm.trans hnone
        simp [hnone, hnotes]
      · rw [hbegins.worker?, ← hS.refusal?_eq]
        cases hbegins with
        | served h hns hT => simp [h, hns]
        | refused reason' h hns hT => simp [h, hns, eq_comm]

end Reached

end FilterScript.System
