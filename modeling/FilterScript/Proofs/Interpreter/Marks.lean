/-
What a run that was replaced still does to the widgets.

A run marks a widget without looking before whether it was replaced; it looks right
behind the mark, when it announces the widget to the host.  So a run that is replaced
while it is on its way to a mark leaves that mark all the same, in the registry that
it shares with its successor, and the widget counts as one that the successor has not
declared.

That is all it does: it leaves one such mark at most, none once it has looked, and it
never touches the value of a widget.
-/
import FilterScript.Proofs.Interpreter.Ledger
import FilterScript.Proofs.Interpreter.Upkeep
import FilterScript.Proofs.Widget.Registry

namespace FilterScript

namespace Note

/-- Whether a run looked whether it was replaced, or marked a widget. -/
def isDealing (r : RunId) : Note → Bool
  | looked r' => r' = r
  | marked r' _ => r' = r
  | _ => false

end Note

/-- The widget that a run is about to mark. -/
def Session.marking? (s : Session) (r : RunId) : Option String :=
  match s.worker? r with
  | some ⟨_, .ask (.declare name) _⟩ => some name
  | _ => none

namespace Stage

/-- Whether a run that stands here and was replaced asks for nothing any longer but
whether it was. -/
def isSpent : Stage → Bool
  | marked => true
  | told => true
  | ended => true
  | _ => false

end Stage

namespace System

/-- The widgets. -/
def widgets (S : System) : Widget.Registry := S.session.surroundings.widgets

/-- What a run that was replaced can do to the widgets with its next step; `B` is what
was noted since it was replaced. -/
structure LateMarks (r : RunId) (B : List Note) (S : System) : Prop where
  /-- The step changes the registry exactly if it marks a widget that the run was not the
  last to mark. -/
  changes : (S.step (.thread r)).1.widgets ≠ S.widgets ↔
    ∃ name, S.session.marking? r = some name ∧ S.widgets.declaredIn? name ≠ some r
  /-- The mark is all that it leaves. -/
  effect : ∀ name, S.session.marking? r = some name →
    (S.step (.thread r)).1.widgets = S.widgets.declare name r
  values : ∀ name, (S.step (.thread r)).1.widgets.value? name = S.widgets.value? name
  /-- The widget is no longer one that the newest run has declared. -/
  orphaned : ∀ name, S.session.marking? r = some name → r ≠ S.session.newest →
    name ∈ (S.step (.thread r)).1.session.orphans
  /-- Who has looked or left a mark since it was replaced leaves none. -/
  once : (∃ n ∈ B, n.isDealing r = true) → S.session.marking? r = none

section Steps

variable {s t : Session} {r : RunId}

theorem marking?_eq_some_iff {name : String} :
    s.marking? r = some name ↔ ∃ l k, s.worker? r = some ⟨l, .ask (.declare name) k⟩ := by
  constructor
  · intro h
    simp only [Session.marking?] at h
    split at h
    next l name' k hw =>
      cases h
      exact ⟨l, k, hw⟩
    · cases h
  · rintro ⟨l, k, hw⟩
    simp only [Session.marking?, hw]

/-- No other answer changes the widgets. -/
theorem widgets_answer {queued : Continuation → Bool} {q : Request} {l l' : Link}
    {shared shared' : Surroundings} {x : q.Reply} (hq : ∀ name, q ≠ .declare name)
    (h : q.answer queued l shared = some (x, l', shared')) : shared'.widgets = shared.widgets := by
  cases q <;> simp only [Request.answer] at h
  case declare name => exact absurd rfl (hq name)
  case await =>
    split at h
    · cases h
      rfl
    · split at h <;> cases h
      rfl
  case elapsed => split at h <;> cases h; rfl
  case delta => split at h <;> cases h; rfl
  all_goals
    cases h
    rfl

/-- A step of a thread changes the widgets only by a mark. -/
theorem widgets_advanceRun (h : s.advanceRun r = some t) :
    t.surroundings.widgets =
      match s.marking? r with
      | some name => s.surroundings.widgets.declare name r
      | none => s.surroundings.widgets := by
  obtain ⟨w, u, l, hw, hstep, -, -⟩ := Session.advanceRun_some h
  cases hm : s.marking? r with
  | some name =>
      obtain ⟨link, k, hw'⟩ := marking?_eq_some_iff.mp hm
      cases hw.symm.trans hw'
      have hrun : link.run = r := Session.run_of_worker? hw
      have hshared := congrArg (fun x => x.2.2.widgets) (Option.some.inj hstep)
      exact hrun ▸ hshared.symm
  | none =>
      rcases Thread.step_cases hstep with ⟨-, -, -, hshared⟩ | ⟨q, k, x, hask, -, ha⟩
      · rw [hshared]
      · refine (widgets_answer (fun name hq => ?_) ha).trans rfl
        subst hq
        have hsome := marking?_eq_some_iff.mpr ⟨w.link, k, by rw [hw, ← hask]⟩
        rw [hm] at hsome
        cases hsome

/-- Whatever a thread does, the widgets keep their values. -/
theorem value?_advanceRun (h : s.advanceRun r = some t) (name : String) :
    t.surroundings.widgets.value? name = s.surroundings.widgets.value? name := by
  rw [widgets_advanceRun h]
  split
  · exact Widget.Registry.value?_declare
  · rfl

/-- A run that is about to mark a widget can take its step. -/
theorem exists_advanceRun_of_marking {name : String} (h : s.marking? r = some name) :
    ∃ t, s.advanceRun r = some t := by
  obtain ⟨l, k, hw⟩ := marking?_eq_some_iff.mp h
  exact Session.exists_advanceRun hw rfl

/-- What a step of a thread does to the widgets. -/
theorem widgets_step (S : System) (r : RunId) :
    (S.step (.thread r)).1.widgets =
      match S.session.marking? r with
      | some name => S.widgets.declare name r
      | none => S.widgets := by
  cases ha : S.session.advanceRun r with
  | some t =>
      simp only [step, ha, widgets]
      exact widgets_advanceRun ha
  | none =>
      have hnone : S.session.marking? r = none := by
        cases hm : S.session.marking? r with
        | none => rfl
        | some name =>
            obtain ⟨t, ht⟩ := exists_advanceRun_of_marking hm
            rw [ha] at ht
            cases ht
      simp only [step, ha, hnone]

/-- No step of a thread starts a run. -/
theorem newest_step (S : System) (r : RunId) :
    (S.step (.thread r)).1.session.newest = S.session.newest := by
  cases ha : S.session.advanceRun r with
  | some t =>
      obtain ⟨_, _, _, _, _, hinterpreter, _⟩ := Session.advanceRun_some ha
      simp only [step, ha, Session.newest, hinterpreter]
  | none => simp only [step, ha]

end Steps

/-! ### A run that was replaced

It knows no later than with its next look that it was replaced.
-/

/-- A run that was replaced, and what it noted since: once it has dealt with the widgets
or has looked, it marks none. -/
structure Warned (r : RunId) (B : List Note) (S : System) : Prop where
  worker : ∃ w stage, S.session.worker? r = some w ∧ w.link.isCancelled = true ∧
    w.thread.Conforms Stage.isOver stage ∧
      ((∃ n ∈ B, n.isDealing r = true) → stage.isSpent = true)

theorem not_isDealing_of_not_isBy {r : RunId} {n : Note} (h : n.isBy r = false) :
    n.isDealing r = false := by
  cases n <;> first | rfl | exact h

/-- A step of the run itself. -/
theorem Warned.thread {r : RunId} {B : List Note} {s t : Session} {phase : HostPhase}
    (h : Warned r B ⟨s, phase⟩) (hs : s.advanceRun r = some t) :
    Warned r (B ++ s.stepNotes r) ⟨t, phase⟩ := by
  obtain ⟨w, stage, hw, hcancelled, hconf, hspent⟩ := h.worker
  obtain ⟨v, u, l, hv, hstep, -, hview⟩ := Session.advanceRun_some hs
  cases hw.symm.trans hv
  have hself : t.worker? r = some ⟨l, u⟩ := (hview r).trans (if_pos rfl)
  have htold : l.isCancelled = true := (Thread.spares_of_step hstep).isCancelled.trans hcancelled
  rcases Thread.step_cases hstep with ⟨hspin, rfl, -, -⟩ | ⟨q, k, x, hask, rfl, ha⟩
  · have hnotes : s.stepNotes r = [] := by simp only [Session.stepNotes, hw, hspin]
    rw [hnotes, List.append_nil]
    exact ⟨_, stage, hself, htold, hspin ▸ hconf, hspent⟩
  · rw [hask] at hconf
    obtain ⟨hallowed, hnext⟩ := hconf.of_ask
    refine ⟨_, stage.after q x, hself, htold, hnext x, fun hdealt => ?_⟩
    cases q <;> simp only [Request.answer] at ha
    case isCancelled =>
      have hx : w.link.isCancelled = x := congrArg Prod.fst (Option.some.inj ha)
      rw [← hx, hcancelled]
      cases stage <;> rfl
    case declare name => cases stage <;> rfl
    case finish o => cases stage <;> rfl
    all_goals
      have hfree : stage.isSpent = false := by
        cases stage <;> first | rfl | exact hallowed.elim
      have hbefore : ∃ n ∈ B, n.isDealing r = true := by
        obtain ⟨n, hn, hr⟩ := hdealt
        rcases List.mem_append.mp hn with hn | hn
        · exact ⟨n, hn, hr⟩
        · simp only [Session.stepNotes, hw, hask] at hn
          simp_all [Note.isDealing]
      rw [hspent hbefore] at hfree
      cases hfree

/-- Every move. -/
theorem Warned.moves {r : RunId} {B : List Note} {S T : System} {ns : List Note}
    (h : Warned r B S) (hS : Sound S) (hm : Moves S ns T) : Warned r (B ++ ns) T := by
  obtain ⟨w, stage, hw, hcancelled, hconf, hspent⟩ := h.worker
  rcases hS.upkeep hm hw with ⟨hs, hphase, rfl⟩ | ⟨⟨l, hl, hupkeep⟩, hothers⟩
  · obtain ⟨s, phase⟩ := S
    obtain ⟨t, phase'⟩ := T
    cases hphase
    exact h.thread hs
  · refine ⟨_, stage, hl, hupkeep.isCancelled hcancelled, hconf, fun ⟨n, hn, hr⟩ => ?_⟩
    rcases List.mem_append.mp hn with hn | hn
    · exact hspent ⟨n, hn, hr⟩
    · rw [not_isDealing_of_not_isBy (hothers n hn)] at hr
      cases hr

/-- The moment at which a run is replaced. -/
theorem Moves.flagged_of_abandoned {S T : System} {ns : List Note} {r : RunId}
    (hm : Moves S ns T) (hr : .abandoned r ∈ ns) :
    T.session.current? = some r ∧ T.phase.isFlagged = true := by
  have hflag : ∀ s : Session, .abandoned r ∈ s.abandonNotes → s.flag.current? = some r := by
    intro s hr
    obtain ⟨run, hc, he⟩ := Session.of_mem_abandonNotes hr
    simp only [Session.current?, Session.flag, Session.interpreter_onCurrent, hc]
    cases he
    rfl
  cases hm with
  | flag s script moment => exact ⟨hflag s hr, rfl⟩
  | leave s => exact ⟨hflag s hr, rfl⟩
  | fail s reason =>
      obtain ⟨run, -, he⟩ := Session.of_mem_failNotes hr
      cases he
  | refuse s script moment reason h => simp at hr
  | receive h hphase =>
      obtain ⟨run, o, -, he⟩ := Session.of_mem_receiveNotes hr
      cases he
  | thread h phase => simpa using Session.of_mem_stepNotes hr
  | hand s => simp at hr
  | _ => cases hr

theorem warned_of_abandoned {S T : System} {r : RunId} (hT : Sound T)
    (hm : Moves S [.abandoned r] T) : Warned r [] T := by
  obtain ⟨hcurrent, hflagged⟩ := hm.flagged_of_abandoned List.mem_cons_self
  obtain ⟨t, phase⟩ := T
  obtain ⟨run, hc, rfl⟩ := Option.map_eq_some_iff.mp hcurrent
  obtain ⟨w, stage, hw, hconf, -, hcancelled, -⟩ := hT.live_worker hc
  exact ⟨w, stage, hw, hcancelled.trans hflagged, hconf, by simp⟩

/-- A run that was warned and has dealt with the widgets since does not mark any. -/
theorem Warned.marking?_eq_none {r : RunId} {B : List Note} {S : System} (h : Warned r B S)
    (hdealt : ∃ n ∈ B, n.isDealing r = true) : S.session.marking? r = none := by
  obtain ⟨w, stage, hw, -, hconf, hspent⟩ := h.worker
  cases hm : S.session.marking? r with
  | none => rfl
  | some name =>
      obtain ⟨l, k, hw'⟩ := marking?_eq_some_iff.mp hm
      cases hw.symm.trans hw'
      have hallowed := hconf.of_ask.1
      have hstage := hspent hdealt
      cases stage <;> simp [Stage.isSpent] at hstage <;> exact hallowed.elim

/-- **What a run that was replaced still does to the widgets, at every moment of every
history: one mark at most.** -/
theorem late_marks {config : Config} {platform : Platform} {ms : List Move} {r : RunId} {A B : List Note}
    (h : ((ofConfig config platform).play ms).2 = A ++ .abandoned r :: B) :
    LateMarks r B ((ofConfig config platform).play ms).1 := by
  obtain ⟨ms₁, m, ms₂, rfl, -, hnote, hbehind⟩ := play_split h
  have hmove : Moves ((ofConfig config platform).play ms₁).1 [.abandoned r]
      (((ofConfig config platform).play ms₁).1.step m).1 := by
    rcases step_moves ((ofConfig config platform).play ms₁).1 m with he | hm
    · rw [he] at hnote
      cases hnote
    · exact hnote ▸ hm
  have hsound := (sound_play config platform ms₁).moves hmove
  have hplay := play_induction (P := fun B S => Sound S ∧ Warned r B S)
    (fun hP hm => ⟨hP.1.moves hm, hP.2.moves hP.1 hm⟩)
    ⟨hsound, warned_of_abandoned hsound hmove⟩ ms₂
  rw [List.nil_append, hbehind] at hplay
  have hend : ((ofConfig config platform).play (ms₁ ++ m :: ms₂)).1 =
      ((((ofConfig config platform).play ms₁).1.step m).1.play ms₂).1 := by
    simp [play_append, play]
  rw [← hend] at hplay
  obtain ⟨-, hwarned⟩ := hplay
  generalize ((ofConfig config platform).play (ms₁ ++ m :: ms₂)).1 = S at hwarned
  have hstep := widgets_step S r
  refine ⟨?_, ?_, ?_, ?_, hwarned.marking?_eq_none⟩
  · rw [hstep]
    cases hmarking : S.session.marking? r with
    | none => simp
    | some name => simp [Widget.Registry.declare_eq_self_iff]
  · intro name hmarking
    rw [hstep, hmarking]
  · intro name
    rw [hstep]
    cases hmarking : S.session.marking? r with
    | none => rfl
    | some name' => exact Widget.Registry.value?_declare
  · intro name hmarking hne
    rw [hmarking] at hstep
    show name ∈ (S.step (.thread r)).1.widgets.orphans (S.step (.thread r)).1.session.newest
    rw [hstep, newest_step]
    exact Widget.Registry.mem_orphans_of_declaredIn?
      (Widget.Registry.declaredIn?_declare.trans (if_pos rfl)) hne

/-- Two runs of a script with a checkbox, of which the first is replaced on its way to
the mark and the second has left its mark. -/
def lateHistory : List Move :=
  [.call (.start "checkbox(\"m\");" 0), .host, .host, .thread 1, .thread 1,
    .call (.start "checkbox(\"m\");" 0), .host, .host, .thread 2, .thread 2, .thread 2]

/-- The first run takes the widget away from the second. -/
theorem late_marks_checkbox :
    ((ofConfig .standard .usual).play lateHistory).2 =
        [.looked 1, .looked 1] ++ .abandoned 1 :: [.looked 2, .looked 2, .marked 2 "m"] ∧
      ((ofConfig .standard .usual).play lateHistory).1.session.orphans = [] ∧
      "m" ∈ (((ofConfig .standard .usual).play lateHistory).1.step (.thread 1)).1.session.orphans := by
  have hnotes : ((ofConfig .standard .usual).play lateHistory).2 =
      [.looked 1, .looked 1] ++ .abandoned 1 :: [.looked 2, .looked 2, .marked 2 "m"] := by
    decide +kernel
  have hmarking : ((ofConfig .standard .usual).play lateHistory).1.session.marking? 1 = some "m" := by
    decide +kernel
  have hnewest : 1 ≠ ((ofConfig .standard .usual).play lateHistory).1.session.newest := by
    decide +kernel
  have horphans : ((ofConfig .standard .usual).play lateHistory).1.session.orphans = [] := by
    decide +kernel
  have hlate := late_marks hnotes
  exact ⟨hnotes, horphans, hlate.orphaned "m" hmarking hnewest⟩

end System

end FilterScript
