/-
Which widgets the newest run has left behind.

A run tells the registry of a widget only when it announces it to the host, and it
announces a widget once.  So what the registry knows of the run dates from the last
mark: it lasts as long as nobody else marks the widget, no other run begins and the
host does not clear the widgets.  Behind a clearing the run goes on to read a widget
that the registry has not heard of, and the next value that the host reports makes an
orphan of it, which is pruned though the script uses it.

Two things are put together here.  A monitor shows that a run marks each widget before
it reads it.  And from the last mark on the registry is followed move by move.
-/
import FilterScript.Proofs.Interpreter.Marks
import FilterScript.Proofs.Interpreter.Watch

namespace FilterScript

/-! ### A run marks what it reads -/

/-- Remembers which widgets a run has marked, and lets it read no others. -/
def Monitor.marking : Monitor (List String) where
  protocol :=
    { Allows := fun names q =>
        match q with
        | .widgetValue name => name ∈ names
        | _ => True
      after := fun names q _ =>
        match q with
        | .declare name => name :: names
        | _ => names
      MayStop := fun _ => True }
  Inv names c := ∀ d ∈ c.declared, d.1 ∈ names
  mayStop _ := trivial
  aside names r hr := by
    cases r <;> first | exact ⟨trivial, fun _ => rfl⟩ | cases hr
  irrelevant _ _ hu := hu
  render hu := ⟨trivial, hu⟩
  direct _ hu := ⟨trivial, hu⟩
  edit _ hu := hu
  known {names c name shape} hu hknown := by
    unfold Context.knows at hknown
    split at hknown
    next s hs =>
      obtain ⟨l₁, l₂, hl, -⟩ := List.lookup_eq_some_iff.mp hs
      exact hu (name, s) (by simp [hl])
    · cases hknown
  read _ _ hu := hu
  mark _ _ := trivial
  announce {names c name shape} hu _ := by
    refine ⟨trivial, List.mem_cons_self, fun d hd => ?_⟩
    rcases List.mem_cons.mp hd with rfl | hd
    · exact List.mem_cons_self
    · exact List.mem_cons_of_mem _ (hu d (List.mem_filter.mp hd).1)

/-- The widget whose value a run is about to read. -/
def Session.reading? (s : Session) (r : RunId) : Option String :=
  match s.worker? r with
  | some ⟨_, .ask (.widgetValue name) _⟩ => some name
  | _ => none

namespace System

variable {config : Config} {platform : Platform} {H : List Note} {S T : System} {r g : RunId}
  {name : String}

theorem records_marking :
    Monitor.marking.Records [] fun r H names => ∀ name ∈ names, .marked r name ∈ H where
  fresh _ _ d hd := by cases hd
  begins _ name hname := by cases hname
  reply {r H names q} x hR _ name hname := by
    cases q
    case declare name' =>
      rcases List.mem_cons.mp hname with rfl | hname
      · exact List.mem_append_right _ List.mem_cons_self
      · exact List.mem_append_left _ (hR name hname)
    all_goals exact List.mem_append_left _ (hR name hname)
  other hR _ name hname := List.mem_append_left _ (hR name hname)

/-- **A run has marked every widget that it reads.** -/
theorem marked_of_reading (hS : Reached config H S) (h : S.session.reading? r = some name) :
    .marked r name ∈ H := by
  unfold Session.reading? at h
  split at h
  next l name' k hw =>
    cases h
    obtain ⟨names, hR, hfollows⟩ := records_marking.watched hS hw
    exact hR name hfollows.of_ask.1
  · cases h

/-! ### What a move does to the widgets -/

/-- The widgets behind a move. -/
def tend (S : System) : Move → Widget.Registry
  | .call (.update name value) =>
    if S.phase = .ready then S.widgets.update name value else S.widgets
  | .call .clearWidgets => if S.phase = .ready then .empty else S.widgets
  | .call .prune => if S.phase = .ready then S.widgets.prune S.session.newest else S.widgets
  | .thread r =>
    match S.session.marking? r with
    | some name => S.widgets.declare name r
    | none => S.widgets
  | _ => S.widgets

theorem surroundings_receive {s t : Session} (h : s.receive = some t) :
    t.surroundings = s.surroundings := by
  obtain ⟨run, w, -, -, ⟨e, rest, -, rfl⟩ | ⟨-, -, rfl⟩⟩ := Session.receive_some h
  · rw [Session.surroundings_closing, Session.surroundings_onLink]
  · rw [Session.surroundings_closing]

/-- What the host does by itself leaves alone what all runs share. -/
theorem surroundings_goOn (s : Session) (phase : HostPhase) :
    (goOn s phase).1.session.surroundings = s.surroundings := by
  cases phase with
  | collecting purpose =>
      cases hr : s.receive with
      | some t => simp only [goOn, hr, surroundings_receive hr]
      | none =>
          simp only [goOn, hr]
          cases purpose with
          | poll => rfl
          | frame moment =>
              simp only [run]
              split
              · rfl
              · simp only [Session.surroundings_onCurrent]
  | settling =>
      simp only [goOn]
      split
      · rfl
      · cases hr : s.receive with
        | some t => simp only [surroundings_receive hr]
        | none => rfl
  | woken moment awaited =>
      simp only [goOn, Session.release]
      cases awaited <;> simp
  | cleared script moment => rw [session_goOn_cleared, Session.surroundings_begin]
  | _ => simp [goOn, Session.forget]

theorem widgets_goOn (s : Session) (phase : HostPhase) :
    (goOn s phase).1.widgets = s.surroundings.widgets :=
  congrArg Surroundings.widgets (surroundings_goOn s phase)

theorem widgets_call (s : Session) (c : Call) :
    (call s c).1.widgets = tend ⟨s, .ready⟩ (.call c) := by
  cases c with
  | start script moment => simp [call, widgets, tend, Session.flag]
  | close => simp [call, widgets, tend, Session.flag]
  | _ => rfl

theorem widgets_move (S : System) (m : Move) : (S.step m).1.widgets = S.tend m := by
  obtain ⟨s, phase⟩ := S
  cases m with
  | call c =>
      by_cases hp : phase = .ready
      · subst hp
        exact widgets_call s c
      · rw [show (System.mk s phase).step (.call c) = (⟨s, phase⟩, []) from if_neg hp]
        cases c <;> first | rfl | exact (if_neg hp).symm
  | host => exact widgets_goOn s phase
  | giveUp =>
      by_cases hp : phase = .settling
      · simp only [step, hp, if_true]
        rfl
      · simp only [step, hp, if_false]
        rfl
  | thread r => exact widgets_step ⟨s, phase⟩ r
  | wait time => rfl

theorem proper_tend (h : S.widgets.Proper) (m : Move) : (S.tend m).Proper := by
  unfold tend
  split
  · split
    · exact h.update
    · exact h
  · split
    · exact Widget.Registry.proper_empty
    · exact h
  · split
    · exact h.prune
    · exact h
  · split
    · exact h.declare
    · exact h
  · exact h

/-- **The registry is proper at every moment.** -/
theorem proper_play (h : S.widgets.Proper) (ms : List Move) : (S.play ms).1.widgets.Proper := by
  induction ms generalizing S with
  | nil => exact h
  | cons m ms ih =>
      refine ih (S := (S.step m).1) ?_
      rw [widgets_move]
      exact proper_tend h m

/-! ### The number of the newest run -/

theorem generation_dispatch (i : Interpreter) (e : RunEvent) :
    (i.dispatch e).1.generation = i.generation := by
  simp only [Interpreter.dispatch]
  split
  · rfl
  · cases e with
    | finished o => exact Sound.generation_finish i o
    | _ => rfl

/-- Only the beginning of a run changes the number of the newest. -/
theorem Moves.newest_le {ns : List Note} (hm : Moves S ns T) :
    S.session.newest ≤ T.session.newest := by
  have hsame : T.session.interpreter.generation = S.session.interpreter.generation →
      S.session.newest ≤ T.session.newest := fun h => Nat.le_of_eq h.symm
  cases hm with
  | flag s script moment => exact hsame (by simp [Session.flag])
  | leave s => exact hsame (by simp [Session.flag])
  | forget s script moment =>
      exact hsame (by rw [Session.interpreter_forget, Sound.generation_supersede])
  | begin s script moment h =>
      simp only [Session.newest, Session.interpreter_begin]
      exact Nat.le_succ _
  | refuse s script moment reason h =>
      simp only [Session.newest, Session.interpreter_begin]
      exact Nat.le_succ _
  | fail s reason =>
      refine hsame ?_
      unfold Session.fail
      split
      · rfl
      · rw [Session.interpreter_closing]
        exact Sound.generation_finish _ _
  | receive h hphase =>
      refine hsame ?_
      obtain ⟨run, w, -, -, ⟨e, rest, -, rfl⟩ | ⟨-, -, rfl⟩⟩ := Session.receive_some h
      · rw [Session.interpreter_closing, generation_dispatch, Session.interpreter_onLink]
      · rw [Session.interpreter_closing]
        exact Sound.generation_finish _ _
  | hold s moment h => exact hsame (by simp)
  | tick s moment =>
      refine hsame ?_
      rw [Session.interpreter_decide]
      rfl
  | release s moment awaited =>
      refine hsame ?_
      cases awaited <;> simp [Session.release, Interpreter.resume]
  | vacate s =>
      refine hsame ?_
      rw [Session.interpreter_leave]
      rfl
  | stop s =>
      refine hsame ?_
      rw [Session.interpreter_decide]
      rfl
  | thread h phase =>
      obtain ⟨_, _, _, _, _, hinterpreter, _⟩ := Session.advanceRun_some h
      exact hsame (by rw [hinterpreter])
  | _ => exact hsame rfl

theorem newest_le_step (S : System) (m : Move) :
    S.session.newest ≤ (S.step m).1.session.newest := by
  rcases step_moves S m with hstill | hm
  · exact Nat.le_of_eq (by rw [hstill])
  · exact hm.newest_le

/-! ### From the last mark on -/

/-- Whether the host clears the widgets with a move. -/
def isCleared (S : System) : Move → Bool
  | .call .clearWidgets => S.phase = .ready
  | _ => false

/-- Whether the host clears the widgets in the course of some moves. -/
def clears (S : System) : List Move → Bool
  | [] => false
  | m :: ms => S.isCleared m || (S.step m).1.clears ms

/-- What the registry knows of a widget that run `g` marked last: that, or nothing if the
widgets were cleared since.  It is of no interest when another run has begun. -/
structure Remembers (g : RunId) (name : String) (cleared : Bool) (S : System) : Prop where
  proper : S.widgets.Proper
  newest : g ≤ S.session.newest
  declaredIn : S.session.newest = g →
    S.widgets.declaredIn? name = if cleared then none else some g

/-- A widget that is marked is marked in the notes. -/
theorem marked_of_marking (h : S.session.marking? r = some name) :
    (S.step (.thread r)).2 = [.marked r name] := by
  obtain ⟨t, ht⟩ := exists_advanceRun_of_marking h
  obtain ⟨l, k, hw⟩ := marking?_eq_some_iff.mp h
  simp [step, ht, Session.stepNotes, hw]

theorem Remembers.step {cleared : Bool} (h : Remembers g name cleared S) (m : Move)
    (hother : ∀ r, .marked r name ∉ (S.step m).2) :
    Remembers g name (cleared || S.isCleared m) (S.step m).1 := by
  refine ⟨?_, Nat.le_trans h.newest (newest_le_step S m), fun hnewest => ?_⟩
  · rw [widgets_move]
    exact proper_tend h.proper m
  have hg : S.session.newest = g := Nat.le_antisymm (hnewest ▸ newest_le_step S m) h.newest
  have hdeclared := h.declaredIn hg
  rw [widgets_move]
  cases m with
  | call c =>
      by_cases hready : S.phase = .ready
      · cases c with
        | update name' value =>
            simp only [tend, hready, if_true, isCleared, Bool.or_false,
              Widget.Registry.declaredIn?_update]
            exact hdeclared
        | clearWidgets =>
            simp [tend, hready, isCleared, Widget.Registry.declaredIn?_empty]
        | prune =>
            -- What the newest run has declared is not pruned.
            simp only [tend, hready, if_true, isCleared, Bool.or_false,
              h.proper.declaredIn?_prune, h.proper.mem_orphans_iff, hdeclared, hg]
            cases cleared <;> simp
        | _ => simpa only [tend, isCleared, Bool.or_false] using hdeclared
      · have hsame : S.tend (.call c) = S.widgets := by
          cases c <;> first | rfl | exact if_neg hready
        have hkept : S.isCleared (.call c) = false := by
          cases c <;> first | rfl | exact decide_eq_false hready
        rw [hsame, hkept, Bool.or_false]
        exact hdeclared
  | thread r =>
      simp only [tend, isCleared, Bool.or_false]
      split
      next name' hmarking =>
        rw [Widget.Registry.declaredIn?_declare, if_neg]
        · exact hdeclared
        · rintro rfl
          exact hother r (by rw [marked_of_marking hmarking]; exact List.mem_cons_self)
      · exact hdeclared
  | _ => simpa only [tend, isCleared, Bool.or_false] using hdeclared

theorem Remembers.play {cleared : Bool} (h : Remembers g name cleared S) (ms : List Move)
    (hother : ∀ r, .marked r name ∉ (S.play ms).2) :
    Remembers g name (cleared || S.clears ms) (S.play ms).1 := by
  induction ms generalizing S cleared with
  | nil => simpa [clears, System.play] using h
  | cons m ms ih =>
      have hfirst := h.step m fun r hr => hother r (List.mem_append_left _ hr)
      have hrest := ih hfirst fun r hr => hother r (List.mem_append_right _ hr)
      rwa [Bool.or_assoc] at hrest

/-- Behind its mark the registry knows that the run declared the widget. -/
theorem remembers_mark (hS : Sound S) (hproper : S.widgets.Proper)
    (h : S.session.marking? g = some name) : Remembers g name false (S.step (.thread g)).1 := by
  obtain ⟨l, k, hw⟩ := marking?_eq_some_iff.mp h
  refine ⟨?_, ?_, fun _ => ?_⟩
  · rw [widgets_move]
    exact proper_tend hproper _
  · rw [newest_step]
    exact hS.known g _ hw
  · rw [widgets_step, h]
    exact Widget.Registry.declaredIn?_declare.trans (if_pos rfl)

/-! ### The last mark -/

theorem exists_last {α : Type} {p : α → Bool} {l : List α} (h : ∃ x ∈ l, p x = true) :
    ∃ l₁ x l₂, l = l₁ ++ x :: l₂ ∧ p x = true ∧ ∀ y ∈ l₂, p y = false := by
  induction l with
  | nil => simp at h
  | cons x l ih =>
      by_cases hl : ∃ y ∈ l, p y = true
      · obtain ⟨l₁, y, l₂, rfl, hy, hrest⟩ := ih hl
        exact ⟨x :: l₁, y, l₂, rfl, hy, hrest⟩
      · have hnone : ∀ y ∈ l, p y = false := by simpa using hl
        obtain ⟨y, hy, hp⟩ := h
        rcases List.mem_cons.mp hy with rfl | hy
        · exact ⟨[], y, l, rfl, hp, hnone⟩
        · rw [hnone y hy] at hp
          cases hp

theorem isBy_call {s : Session} (c : Call) : ∀ n ∈ (call s c).2, n.isBy r = false := by
  cases c with
  | start script moment => exact Sound.isBy_abandonNotes
  | close => exact Sound.isBy_abandonNotes
  | _ => simp [call]

theorem isBy_goOn {s : Session} {phase : HostPhase} : ∀ n ∈ (goOn s phase).2, n.isBy r = false := by
  cases phase with
  | collecting purpose =>
      simp only [goOn]
      split
      · exact Sound.isBy_receiveNotes
      · cases purpose with
        | poll => simp [run, Note.isBy]
        | frame moment =>
            simp only [run]
            split <;> simp
  | settling =>
      simp only [goOn]
      split
      · simp
      · split
        · exact Sound.isBy_receiveNotes
        · simp
  | cleared script moment =>
      simp only [goOn]
      split <;> simp [Note.isBy]
  | refused reason => exact Sound.isBy_failNotes
  | _ => simp [goOn]

/-- Nobody but its own thread notes anything for a run. -/
theorem isBy_step {m : Move} (hm : m ≠ .thread r) : ∀ n ∈ (S.step m).2, n.isBy r = false := by
  obtain ⟨s, phase⟩ := S
  cases m with
  | thread r' =>
      have hr : r' ≠ r := fun he => hm (he ▸ rfl)
      simp only [step]
      split
      · exact Sound.isBy_stepNotes hr
      · simp
  | call c =>
      simp only [step]
      split
      · exact isBy_call c
      · simp
  | host => exact isBy_goOn
  | giveUp =>
      simp only [step]
      split <;> simp
  | wait time => simp [step]

/-- Only a step of a run marks a widget. -/
theorem marking_of_marked {m : Move} (h : (S.step m).2 = [.marked r name]) :
    m = .thread r ∧ S.session.marking? r = some name := by
  have hm : m = .thread r := by
    by_cases hm : m = .thread r
    · exact hm
    · have hothers := isBy_step hm (.marked r name) (by rw [h]; exact List.mem_singleton_self _)
      simp [Note.isBy] at hothers
  subst hm
  refine ⟨rfl, ?_⟩
  cases ha : S.session.advanceRun r with
  | none =>
      simp only [step, ha] at h
      cases h
  | some t =>
      simp only [step, ha] at h
      obtain ⟨w, _, _, hw, -⟩ := Session.advanceRun_some ha
      simp only [Session.stepNotes, hw] at h
      split at h
      next m k =>
        split at h <;> cases h
      · cases h
      next name' k hthread =>
        cases h
        refine marking?_eq_some_iff.mpr ⟨w.link, k, ?_⟩
        rw [hw, ← hthread]
      · cases h
      · cases h

/-- Run `g` marked a widget with its step behind the moves `a`, and nobody did in the
moves `b` that followed. -/
structure MarksLast (S : System) (g : RunId) (name : String) (a b : List Move) : Prop where
  marks : (S.play a).1.session.marking? g = some name
  last : ∀ r, .marked r name ∉ (((S.play a).1.step (.thread g)).1.play b).2

/-- What becomes of a widget in use, where `cleared` says whether the host has cleared
the widgets since the mark. -/
structure InUse (name : String) (cleared : Bool) (S : System) : Prop where
  /-- It is an orphan exactly if it was cleared and then reported again. -/
  orphan : name ∈ S.session.orphans ↔ cleared = true ∧ S.widgets.value? name ≠ none
  /-- Pruning takes its value exactly if it was cleared. -/
  pruned : S.session.prune.surroundings.widgets.value? name =
    if cleared then none else S.widgets.value? name

theorem Remembers.inUse {cleared : Bool} (h : Remembers g name cleared S)
    (hnewest : S.session.newest = g) : InUse name cleared S := by
  have hdeclared := h.declaredIn hnewest
  have horphan : name ∈ S.widgets.orphans S.session.newest ↔
      cleared = true ∧ S.widgets.value? name ≠ none := by
    rw [h.proper.mem_orphans_iff, hdeclared, hnewest]
    cases cleared with
    | false => simp
    | true =>
        -- An entry without a declaration has a value.
        simp only [if_true, reduceCtorEq, not_false_eq_true, ne_eq, and_true, true_and]
        constructor
        · intro hentry
          exact (h.proper.known name hentry).resolve_right fun hd => hd (by simpa using hdeclared)
        · intro hvalue hentry
          exact hvalue (by rw [Widget.Registry.value?, hentry]; rfl)
  refine ⟨horphan, ?_⟩
  show (S.widgets.prune S.session.newest).value? name = _
  rw [h.proper.value?_prune]
  cases cleared with
  | false =>
      rw [if_neg fun hmem => Bool.false_ne_true (horphan.mp hmem).1]
      rfl
  | true =>
      by_cases hvalue : S.widgets.value? name = none
      · simp [hvalue]
      · rw [if_pos (horphan.mpr ⟨rfl, hvalue⟩), if_pos rfl]

/-- **A widget in use is an orphan only behind a clearing.**  `g` is the newest run, and it
has come to where it reads the widget in some call; nobody else has marked the widget
since `g` did. -/
theorem widget_in_use {config : Config} {platform : Platform} {ms ms' : List Move} {g : RunId}
    {name : String}
    (hcall : ((ofConfig config platform).play ms).1.session.reading? g = some name)
    (hnewest : ((ofConfig config platform).play (ms ++ ms')).1.session.newest = g)
    (halone : ∀ A r B, ((ofConfig config platform).play (ms ++ ms')).2 = A ++ .marked r name :: B →
      .marked g name ∈ A → r = g) :
    ∃ a b, ms ++ ms' = a ++ .thread g :: b ∧ MarksLast (ofConfig config platform) g name a b ∧
      InUse name ((((ofConfig config platform).play a).1.step (.thread g)).1.clears b)
        ((ofConfig config platform).play (ms ++ ms')).1 := by
  have hmarked : .marked g name ∈ ((ofConfig config platform).play (ms ++ ms')).2 := by
    rw [play_append]
    exact List.mem_append_left _ (marked_of_reading ⟨platform, ms, rfl⟩ hcall)
  obtain ⟨A, n, B, hnotes, hn, hlast⟩ := exists_last
    (p := fun n => match n with | .marked _ name' => decide (name' = name) | _ => false)
    ⟨_, hmarked, by simp⟩
  obtain ⟨r, rfl⟩ : ∃ r, n = .marked r name := by
    cases n with
    | marked r name' => exact ⟨r, by rw [of_decide_eq_true hn]⟩
    | _ => cases hn
  have hlast' : ∀ r, .marked r name ∉ B := by
    intro r hr
    have hnone := hlast _ hr
    simp at hnone
  -- The last mark is one of `g`: another would have come behind a mark of `g`.
  obtain rfl : r = g := by
    rw [hnotes] at hmarked
    rcases List.mem_append.mp hmarked with hA | hrest
    · exact halone A r B hnotes hA
    · rcases List.mem_cons.mp hrest with heq | hB
      · cases heq
        rfl
      · exact absurd hB (hlast' g)
  obtain ⟨a, m, b, hmoves, -, hstep, hB⟩ := play_split hnotes
  obtain ⟨rfl, hmarking⟩ := marking_of_marked hstep
  have hreached := reached_play config platform a
  have hproper := proper_play (S := ofConfig config platform) Widget.Registry.proper_empty a
  have hremembers := (remembers_mark hreached.sound hproper hmarking).play b
    fun r hr => hlast' r (hB ▸ hr)
  have hend : ((ofConfig config platform).play (ms ++ ms')).1 =
      ((((ofConfig config platform).play a).1.step (.thread r)).1.play b).1 := by
    rw [hmoves, play_append]
    rfl
  rw [Bool.false_or, ← hend] at hremembers
  exact ⟨a, b, hmoves, ⟨hmarking, fun r hr => hlast' r (hB ▸ hr)⟩, hremembers.inUse hnewest⟩

/-- A script with a checkbox in each of its frames.  The host clears the widgets and
reports the checkbox between the two calls, and the second call is about to read it. -/
def usedHistory : List Move :=
  [.call (.start "checkbox(\"m\"); frame(); checkbox(\"m\"); frame();" 0), .host, .host] ++
    List.replicate 9 (.thread 1) ++ [.call .poll, .host, .host, .host, .call .clearWidgets,
      .call (.update "m" (.checkbox true)), .call (.frame 0), .host, .host, .host] ++
    List.replicate 3 (.thread 1)

/-- The second call returns the reported value, and pruning takes it away. -/
theorem widget_in_use_checkbox :
    ((ofConfig .standard .usual).play usedHistory).1.session.reading? 1 = some "m" ∧
      ∃ a b, usedHistory ++ [.thread 1] = a ++ .thread 1 :: b ∧
        MarksLast (ofConfig .standard .usual) 1 "m" a b ∧
        ((((ofConfig .standard .usual).play a).1.step (.thread 1)).1.clears b = true) ∧
        "m" ∈ ((ofConfig .standard .usual).play (usedHistory ++ [.thread 1])).1.session.orphans := by
  have hcall : ((ofConfig .standard .usual).play usedHistory).1.session.reading? 1 = some "m" := by
    decide +kernel
  have hnewest :
      ((ofConfig .standard .usual).play (usedHistory ++ [.thread 1])).1.session.newest = 1 := by
    decide +kernel
  have halone : ∀ n ∈ ((ofConfig .standard .usual).play (usedHistory ++ [.thread 1])).2,
      n.isBy 1 = true ∨ n.batch ≠ [] := by
    decide +kernel
  have horphan :
      "m" ∈ ((ofConfig .standard .usual).play (usedHistory ++ [.thread 1])).1.session.orphans := by
    decide +kernel
  obtain ⟨a, b, hmoves, hlast, huse⟩ := widget_in_use hcall hnewest fun A r B hnotes _ => by
    have hby := halone (.marked r "m") (by rw [hnotes]; simp)
    simpa [Note.isBy, Note.batch] using hby
  exact ⟨hcall, a, b, hmoves, hlast, (huse.orphan.mp horphan).1, horphan⟩

end System

end FilterScript
