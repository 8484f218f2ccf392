/-
The host's values of widgets outlive the runs, and runs only read them.

An entry of the registry holds two things, the value that the host reported and the run that declared
the widget last.  Declarations come from the runs and leave the values alone; values are changed by
three calls of the host.  So the value of a widget is that of the last report that no clearing and no
pruning has undone, and what runs do in between, whether they are current or not, makes no difference.

A widget call of a run asks for the value once, and that request is one step of its thread: what the
call answers is what the value was at that step.
-/
import FilterScript.Proofs.Interpreter.Orphans
import FilterScript.Proofs.Interpreter.Trace
import FilterScript.Proofs.Script.Reading

namespace FilterScript

open Script

namespace System

variable {config : Config} {platform : Platform} {S : System} {m : Move}
  {ms before after : List Move} {r : RunId}
  {name : String} {v : Widget.Value}

/-! ### The last report -/

/-- The value that the host reports for a widget with a move. -/
def update? (S : System) (name : String) : Move → Option Widget.Value
  | .call (.update name' value) => if S.phase = .ready ∧ name' = name then some value else none
  | _ => none

/-- Whether the host forgets a widget with a move. -/
def forgets (S : System) (name : String) : Move → Bool
  | .call .clearWidgets => S.phase = .ready
  | .call .prune => S.phase = .ready ∧ name ∈ S.session.orphans
  | _ => false

/-- Whether the host neither reports a value for a widget nor forgets it in the course of some
moves. -/
def keeps (S : System) (name : String) : List Move → Bool
  | [] => true
  | m :: ms => (S.update? name m).isNone && !S.forgets name m && (S.step m).1.keeps name ms

theorem keeps_append : S.keeps name (before ++ after) =
    (S.keeps name before && (S.play before).1.keeps name after) := by
  induction before generalizing S with
  | nil => rfl
  | cons m ms ih =>
      rw [List.cons_append, keeps, keeps, ih, play, ← Bool.and_assoc]

/-- **What a move does to the value of a widget.** -/
theorem value?_step (h : S.widgets.Proper) (m : Move) :
    (S.step m).1.widgets.value? name =
      match S.update? name m with
      | some v => some v
      | none => if S.forgets name m then none else S.widgets.value? name := by
  rw [widgets_move]
  cases m with
  | call c =>
      by_cases hready : S.phase = .ready
      · cases c with
        | update name' value =>
            by_cases hn : name' = name
            · simp [tend, update?, hready, hn, Widget.Registry.value?_update]
            · simp [tend, update?, forgets, hready, hn, Ne.symm hn, Widget.Registry.value?_update]
        | clearWidgets =>
            simp only [tend, update?, forgets, hready, if_true, decide_true]
            rfl
        | prune =>
            simp only [tend, update?, forgets, hready, if_true, true_and, decide_eq_true_eq]
            exact h.value?_prune
        | _ => rfl
      · cases c <;> simp [tend, update?, forgets, hready]
  | thread r =>
      simp only [tend, update?, forgets]
      split
      · exact Widget.Registry.value?_declare
      · rfl
  | _ => rfl

/-- Only the host changes values. -/
theorem value?_thread (h : S.widgets.Proper) (r : RunId) :
    (S.step (.thread r)).1.widgets.value? name = S.widgets.value? name :=
  value?_step h (.thread r)

/-- The value that a history leaves a widget: the host reported it, and it neither reported another one
nor forgot the widget since. -/
structure LastUpdate (S : System) (ms : List Move) (name : String) (v : Widget.Value)
    (before after : List Move) : Prop where
  split : ms = before ++ .call (.update name v) :: after
  ready : (S.play before).1.phase = .ready
  kept : (S.play (before ++ [.call (.update name v)])).1.keeps name after = true

theorem keeps_singleton :
    S.keeps name [m] = true ↔ S.update? name m = none ∧ S.forgets name m = false := by
  simp [keeps, Option.isNone_iff_eq_none]

theorem update?_eq_some (h : S.update? name m = some v) :
    m = .call (.update name v) ∧ S.phase = .ready := by
  unfold update? at h
  split at h
  · split at h
    next hready =>
      cases h
      exact ⟨by rw [hready.2], hready.1⟩
    · cases h
  · cases h

/-- The last update of a history with one move more is that move, or an earlier one that the move
leaves standing. -/
theorem lastUpdate_append_singleton :
    (∃ before after, LastUpdate S (ms ++ [m]) name v before after) ↔
      (S.play ms).1.update? name m = some v ∨
        ((S.play ms).1.update? name m = none ∧ (S.play ms).1.forgets name m = false) ∧
          ∃ before after, LastUpdate S ms name v before after := by
  constructor
  · rintro ⟨before, after, hsplit, hready, hkept⟩
    rcases List.eq_nil_or_concat after with rfl | ⟨after, m', rfl⟩
    · obtain ⟨rfl, he⟩ := List.append_inj' hsplit rfl
      cases he
      exact .inl (if_pos ⟨hready, rfl⟩)
    · rw [List.concat_eq_append, ← List.cons_append, ← List.append_assoc] at hsplit
      obtain ⟨rfl, he⟩ := List.append_inj' hsplit rfl
      cases he
      rw [List.concat_eq_append, keeps_append, Bool.and_eq_true] at hkept
      refine .inr ⟨?_, before, after, rfl, hready, hkept.1⟩
      rw [← keeps_singleton, List.append_cons, play_append]
      exact hkept.2
  · rintro (hm | ⟨hstands, before, after, rfl, hready, hkept⟩)
    · obtain ⟨rfl, hready⟩ := update?_eq_some hm
      exact ⟨ms, [], rfl, hready, rfl⟩
    · refine ⟨before, after ++ [m], by rw [List.append_assoc, List.cons_append], hready, ?_⟩
      rw [keeps_append, hkept, Bool.true_and, keeps_singleton]
      rw [List.append_cons, play_append] at hstands
      exact hstands

theorem proper_history (config : Config) (platform : Platform) (ms : List Move) :
    ((ofConfig config platform).play ms).1.widgets.Proper :=
  proper_play (S := ofConfig config platform) Widget.Registry.proper_empty ms

/-- **The value of a widget is that of the last update.** -/
theorem value?_play (config : Config) (platform : Platform) (ms : List Move) (name : String)
    (v : Widget.Value) :
    ((ofConfig config platform).play ms).1.widgets.value? name = some v ↔
      ∃ before after, LastUpdate (ofConfig config platform) ms name v before after := by
  induction ms using List.reverseRecOn generalizing v with
  | nil =>
      refine iff_of_false (fun h => by cases h) ?_
      rintro ⟨before, after, hsplit, -, -⟩
      cases before <;> cases hsplit
  | append_singleton ms m ih =>
      have hstep : (((ofConfig config platform).play ms).1.step m).1.widgets.value? name = _ :=
        value?_step (proper_history config platform ms) m
      rw [lastUpdate_append_singleton, ← ih, play_append]
      show ((((ofConfig config platform).play ms).1.step m).1).widgets.value? name = some v ↔ _
      rw [hstep]
      cases hupdate : ((ofConfig config platform).play ms).1.update? name m with
      | some v' => simp
      | none => cases hforgets : ((ofConfig config platform).play ms).1.forgets name m <;> simp

/-! ### What a run reads -/

/-- The next step of a run makes no exchange, or it answers what its thread asks for. -/
theorem exchange_cases (s : Session) (r : RunId) :
    s.exchange r = [] ∨ ∃ w q k x l shared, s.worker? r = some w ∧ w.thread = .ask q k ∧
      q.answer s.isQueued w.link s.next = some (x, l, shared) ∧ s.exchange r = [⟨q, x⟩] := by
  cases hw : s.worker? r with
  | none =>
      left
      unfold Session.exchange
      rw [hw]
  | some w =>
      cases hask : w.thread with
      | ask q k =>
          cases ha : q.answer s.isQueued w.link s.next with
          | none =>
              left
              unfold Session.exchange
              simp only [hw, hask, ha, Option.map_none, Option.toList_none]
          | some a =>
              obtain ⟨x, l, shared⟩ := a
              exact .inr ⟨w, q, k, x, l, shared, rfl, hask, ha, Session.exchange_of_answer hw hask ha⟩
      | _ =>
          left
          unfold Session.exchange
          simp only [hw, hask]

/-- A history can be cut at an exchange of a run. -/
theorem exchanges_split {ys zs : List Exchange} {x : Exchange}
    (h : S.exchanges r ms = ys ++ x :: zs) :
    ∃ before after, ms = before ++ .thread r :: after ∧
      (S.play before).1.session.exchange r = [x] := by
  induction ms generalizing S ys with
  | nil => cases ys <;> cases h
  | cons m ms ih =>
      have later (ys' : List Exchange) (hrest : (S.step m).1.exchanges r ms = ys' ++ x :: zs) :
          ∃ before after, m :: ms = before ++ .thread r :: after ∧
            (S.play before).1.session.exchange r = [x] := by
        obtain ⟨before, after, rfl, hx⟩ := ih hrest
        exact ⟨m :: before, after, rfl, hx⟩
      rw [exchanges] at h
      cases hm : S.exchange r m with
      | nil =>
          rw [hm] at h
          exact later ys h
      | cons y rest =>
          -- Only a step of the run makes an exchange for it, and that is one.
          obtain ⟨rfl, hy⟩ : m = .thread r ∧ S.session.exchange r = y :: rest := by
            cases m with
            | thread id =>
                rw [exchange] at hm
                split at hm
                next hid =>
                  subst hid
                  exact ⟨rfl, hm⟩
                · cases hm
            | _ => cases hm
          obtain rfl : rest = [] := by
            rcases exchange_cases S.session r with hnone | ⟨_, _, _, _, _, _, -, -, -, hone⟩
            · cases hnone.symm.trans hy
            · cases hone.symm.trans hy
              rfl
          rw [hm, List.singleton_append] at h
          cases ys with
          | nil =>
              rw [List.nil_append, List.cons.injEq] at h
              exact ⟨[], ms, rfl, h.1 ▸ hy⟩
          | cons y' ys' =>
              rw [List.cons_append, List.cons.injEq] at h
              exact later ys' h.2

/-- What a run is told of a widget is what the registry says. -/
theorem reply_of_exchange {s : Session} {x : Option Widget.Value}
    (h : s.exchange r = [⟨.widgetValue name, x⟩]) :
    s.reading? r = some name ∧ x = s.surroundings.widgets.value? name := by
  rcases exchange_cases s r with hnone | ⟨w, q, k, x', l, shared, hw, hask, ha, hone⟩
  · cases hnone.symm.trans h
  · cases hone.symm.trans h
    refine ⟨?_, ?_⟩
    · unfold Session.reading?
      rw [hw]
      obtain ⟨link, thread⟩ := w
      cases hask
      rfl
    · unfold Request.answer at ha
      cases ha
      rfl

/-! ### Every history -/

/-- In the course of some moves a run makes a call, from where its thread begins the call to where the
call has an answer. -/
structure Calls (S : System) (r : RunId) (ms : List Move) (function : String)
    (args : List Value) (pos : Position) (m m' : Machine) (e : Library.Effect) : Prop where
  begun : ∃ k, S.session.thread? r = some
    (((Evaluator.callOutside function args pos).run.run m).bind k)
  answered : ((Evaluator.callOutside function args pos).run.run m).Goes (S.exchanges r ms)
    (.done (.ok e, m'))

/-- What holds of the values of the widgets behind a history. -/
structure WidgetValues (S : System) (ms : List Move) : Prop where
  /-- A widget has the value of the last update that was not undone, and no value where there is no
  such update. -/
  stored : ∀ name v, (S.play ms).1.widgets.value? name = some v ↔
    ∃ before after, LastUpdate S ms name v before after
  /-- No step of a run, whichever run it is, changes, adds or removes a value. -/
  untouched : ∀ r name, ((S.play ms).1.step (.thread r)).1.widgets.value? name =
    (S.play ms).1.widgets.value? name
  /-- A widget call that a run makes next reads the value at one of the steps of the run, and what it
  answers is made of that value. -/
  read : ∀ r during function args pos m m' e c name answer,
    Calls (S.play ms).1 r during function args pos m m' e →
    Primitive.select m.limits.items function args = some (.ok c) →
    c.reading? = some (name, answer) →
      ∃ before after, during = before ++ .thread r :: after ∧
        (S.play (ms ++ before)).1.session.reading? r = some name ∧
        e.result = answer ((S.play (ms ++ before)).1.widgets.value? name)
  /-- So a radio answers one of its options. -/
  offered : ∀ r during function args pos m m' e name options,
    Calls (S.play ms).1 r during function args pos m m' e →
    Primitive.select m.limits.items function args = some (.ok (.radio name options)) →
      ∃ o ∈ options, e.result = .string o

/-- **The host's values of widgets outlive the runs, and runs only read them.** -/
theorem widget_values (config : Config) (platform : Platform) (ms : List Move) :
    WidgetValues (ofConfig config platform) ms := by
  have read (r : RunId) (during : List Move) (function : String) (args : List Value)
      (pos : Position) (m m' : Machine) (e : Library.Effect) (c : Command) (name : String)
      (answer : Option Widget.Value → Value)
      (hcall : Calls ((ofConfig config platform).play ms).1 r during function args pos m m' e)
      (hselect : Primitive.select m.limits.items function args = some (.ok c))
      (hc : c.reading? = some (name, answer)) :
      ∃ before after, during = before ++ .thread r :: after ∧
        ((ofConfig config platform).play (ms ++ before)).1.session.reading? r = some name ∧
        e.result = answer (((ofConfig config platform).play (ms ++ before)).1.widgets.value? name) := by
    obtain ⟨ys, x, hys, hresult⟩ := goes_callOutside hselect hc hcall.answered
    obtain ⟨before, after, hsplit, hx⟩ := exchanges_split hys
    obtain ⟨hreading, rfl⟩ := reply_of_exchange hx
    refine ⟨before, after, hsplit, ?_⟩
    rw [play_append]
    exact ⟨hreading, hresult⟩
  refine ⟨value?_play config platform ms,
    fun r name => value?_thread (proper_history config platform ms) r, read, ?_⟩
  intro r during function args pos m m' e name options hcall hselect
  obtain ⟨answer, hanswer⟩ : ∃ answer, (Command.radio name options).reading? = some (name, answer) :=
    ⟨_, rfl⟩
  obtain ⟨before, after, -, -, hresult⟩ :=
    read r during function args pos m m' e _ name answer hcall hselect hanswer
  rw [hresult]
  exact radio_mem (options_ne_nil hselect) hanswer _

end System

end FilterScript
