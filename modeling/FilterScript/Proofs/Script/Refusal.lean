/-
A refused argument changes nothing.

A primitive fails with a refusal where `Primitive.select` refuses, which looks at the name and at all
the arguments before anything is done, and where a choice finds nothing to choose from, which draws
nothing.  `Primitive.refusal?` says so of the arguments.  It has to be shown that no refusal comes from
anywhere else: every other command gives a value or finds that the run was replaced, an answer can only
be too large, and the functions of the library fail in ways of their own.  `Blameless` says that of a
computation, whatever its requests are answered with.

What follows is that a refused call is over before it asked for anything, with the machine as it was:
the filter, the random numbers, the declared widgets and the budget of the log are in the machine,
and to the registry and to the channel there is no way but a request.
-/
import FilterScript.Proofs.Random
import FilterScript.Proofs.Thread.Exchange
import FilterScript.Script.Evaluator.Call

namespace FilterScript

open Script

/-! ### Actions that succeed -/

section Done

variable {α β : Type} {xs : List Exchange}

/-- An action made of two parts that succeeds went through both. -/
theorem Action.goes_bind_done {a : Action α} {f : α → Action β} {c c' : Context} {y : β}
    (h : ((a >>= f).run.run c).Goes xs (.done (.ok y, c'))) :
    ∃ ys zs x c₁, xs = ys ++ zs ∧ (a.run.run c).Goes ys (.done (.ok x, c₁)) ∧
      ((f x).run.run c₁).Goes zs (.done (.ok y, c')) := by
  obtain ⟨ys, zs, ⟨r, c₁⟩, rfl, ha, hf⟩ := Thread.Goes.of_bind_done h
  cases r with
  | ok x => exact ⟨ys, zs, x, c₁, rfl, ha, hf⟩
  | error e => cases hf.of_done.2

/-- An action whose value is turned into another one. -/
theorem Action.goes_map_done {a : Action α} {f : α → β} {c c' : Context} {y : β}
    (h : ((a >>= fun x => pure (f x)).run.run c).Goes xs (.done (.ok y, c'))) :
    ∃ x, (a.run.run c).Goes xs (.done (.ok x, c')) ∧ y = f x := by
  obtain ⟨ys, zs, x, c₁, rfl, ha, hend⟩ := Action.goes_bind_done h
  obtain ⟨rfl, he⟩ := hend.of_done
  cases he
  rw [List.append_nil]
  exact ⟨x, ha, rfl⟩

end Done

namespace Script

open Eval

/-- Whether a fault is the refusal of an argument. -/
def Fault.isRefusal : Fault → Bool
  | .thrown (.refusal _) => true
  | _ => false

namespace Eval

variable {α β : Type}

/-! ### Exchanges of the machine -/

/-- A look at the machine asks for nothing. -/
theorem run_get (f : Machine → Eval α) (m : Machine) :
    (get >>= f : Eval α).run.run m = (f m).run.run m := rfl

/-- Behind a first part that only gives a value, the second begins. -/
theorem run_bind_of_done {e : Eval α} {f : α → Eval β} {m m' : Machine} {a : α}
    (h : e.run.run m = .done (.ok a, m')) : (e >>= f).run.run m = (f a).run.run m' := by
  show (e.run.run m).bind _ = _
  rw [h]
  rfl

theorem run_act_of_done {a : Action α} {pos : Position} {m : Machine} {c : Context} {y : α}
    (h : a.run.run m.context = .done (.ok y, c)) :
    (act a pos).run.run m = .done (.ok y, { m with context := c }) := by
  show (a.run.run m.context).bind _ = _
  rw [h]
  rfl

section Goes

variable {m m' : Machine} {xs : List Exchange}

/-- Behind a first part that answers, the second begins. -/
theorem goes_bind {e : Eval α} {f : α → Eval β} {a : α}
    (h : (e.run.run m).Goes xs (.done (.ok a, m'))) :
    ((e >>= f).run.run m).Goes xs ((f a).run.run m') :=
  Thread.Goes.bind h _

/-- A first part that is interrupted interrupts the whole. -/
theorem goes_bind_error {e : Eval α} {f : α → Eval β} {i : Interrupt}
    (h : (e.run.run m).Goes xs (.done (.error i, m'))) :
    ((e >>= f).run.run m).Goes xs (.done (.error i, m')) :=
  Thread.Goes.bind h _

/-- A computation of the machine made of two parts that succeeds went through both. -/
theorem goes_bind_done {e : Eval α} {f : α → Eval β} {y : β}
    (h : ((e >>= f).run.run m).Goes xs (.done (.ok y, m'))) :
    ∃ ys zs x m₁, xs = ys ++ zs ∧ (e.run.run m).Goes ys (.done (.ok x, m₁)) ∧
      ((f x).run.run m₁).Goes zs (.done (.ok y, m')) := by
  obtain ⟨ys, zs, ⟨r, m₁⟩, rfl, he, hf⟩ := Thread.Goes.of_bind_done h
  cases r with
  | ok x => exact ⟨ys, zs, x, m₁, rfl, he, hf⟩
  | error i => cases hf.of_done.2

/-- An action that succeeds on the machine succeeds on its context. -/
theorem goes_act_done {a : Action α} {pos : Position} {y : α}
    (h : ((act a pos).run.run m).Goes xs (.done (.ok y, m'))) :
    (a.run.run m.context).Goes xs (.done (.ok y, m'.context)) := by
  obtain ⟨ys, zs, ⟨r, c⟩, rfl, ha, hz⟩ := Thread.Goes.of_bind_done h
  cases r with
  | ok x =>
      obtain ⟨rfl, he⟩ := hz.of_done
      cases he
      rw [List.append_nil]
      exact ha
  | error e => cases hz.of_done.2

/-- What is attempted ends where it ends by itself. -/
theorem goes_attempt {e : Eval α} {r : Except Interrupt α}
    (h : (e.run.run m).Goes xs (.done (r, m'))) :
    ((attempt e).run.run m).Goes xs (.done (.ok r, m')) :=
  Thread.Goes.bind h _

end Goes

/-- A computation that never fails with a refusal. -/
def Blameless (e : Eval α) : Prop :=
  ∀ m xs x m', (e.run.run m).Goes xs (.done (.error (.error x), m')) → x.fault.isRefusal = false

namespace Blameless

theorem pure (a : α) : Blameless (pure a : Eval α) := by
  intro m xs x m' h
  cases h.of_done.2

theorem exit : Blameless (throw .exit : Eval α) := by
  intro m xs x m' h
  cases h.of_done.2

theorem fail {f : Fault} (hf : f.isRefusal = false) (pos : Position) :
    Blameless (fail f pos : Eval α) := by
  intro m xs x m' h
  cases h.of_done.2
  exact hf

theorem bind {e : Eval α} {f : α → Eval β} (he : Blameless e) (hf : ∀ a, Blameless (f a)) :
    Blameless (e >>= f) := by
  intro m xs x m' h
  obtain ⟨ys, zs, ⟨r, m₁⟩, -, hy, hz⟩ := Thread.Goes.of_bind_done h
  cases r with
  | ok a => exact hf a _ _ _ _ hz
  | error i =>
      cases hz.of_done.2
      exact he _ _ _ _ hy

theorem get {f : Machine → Eval β} (hf : ∀ m, Blameless (f m)) :
    Blameless (MonadState.get >>= f) :=
  fun m xs x m' h => hf m m xs x m' h

/-- An action that does not go through finds that the run was replaced, and says so. -/
theorem act (a : Action α) (pos : Position) : Blameless (act a pos) := by
  intro m xs x m' h
  obtain ⟨ys, zs, ⟨r, c⟩, -, -, hz⟩ := Thread.Goes.of_bind_done h
  cases r with
  | ok v => cases hz.of_done.2
  | error _ =>
      cases hz.of_done.2
      rfl

theorem checkSize (v : Value) (pos : Position) : Blameless (checkSize v pos) := by
  refine get fun m => ?_
  split
  · exact fail rfl pos
  · exact pure ()

theorem ofAnswer (a : Except String α) (pos : Position) : Blameless (ofAnswer a pos) := by
  cases a with
  | ok v => exact pure v
  | error text => exact fail rfl pos

theorem printed (level : LogLevel) (text : String) (pos : Position) :
    Blameless (Evaluator.printed level text pos) :=
  bind (act _ pos) fun _ => pure _

theorem find? (name : String) : Blameless (find? name) := get fun _ => pure _

/-- What a primitive gives can only be too large. -/
theorem given (v : Value) (pos : Position) : Blameless (Evaluator.given pos (.ok v)) :=
  bind (checkSize v pos) fun _ => pure _

end Blameless

end Eval

end Script

/-! ### Refusals -/

namespace Primitive

/-- The refusal of a call, by its name and its arguments alone. -/
def refusal? (limit : Nat) (name : String) (args : List Value) : Option Refusal :=
  match select limit name args with
  | some (.error refusal) => some refusal
  | some (.ok (.choose [])) => some nothingToChoose
  | _ => none

variable {limit : Nat} {name : String} {args : List Value} {command : Command} {c c' : Context}
  {xs : List Exchange} {refusal : Refusal}

theorem refusal?_of_select (h : select limit name args = some (.error refusal)) :
    refusal? limit name args = some refusal := by
  unfold refusal?
  rw [h]

/-- Only the call of a primitive is refused. -/
theorem exists_select_of_refused (h : refusal? limit name args = some refusal) :
    ∃ d, select limit name args = some d := by
  unfold refusal? at h
  split at h
  next hselect => exact ⟨_, hselect⟩
  next hselect => exact ⟨_, hselect⟩
  · cases h

/-- A choice among nothing is refused and draws nothing, as its stream does. -/
theorem perform_choose_nil (c : Context) :
    (perform (.choose [])).run.run c = .done (.ok (.error nothingToChoose), c) := by
  let drawn : Option Value × Random := c.random.choose []
  have hnothing : drawn = (none, c.random) := Random.choose_nil c.random
  show Thread.done (Except.ok (chosen drawn.1), { c with random := drawn.2 }) = _
  rw [hnothing]
  rfl

/-- Of all commands only a choice among nothing is refused. -/
theorem eq_choose_of_refused
    (h : ((perform command).run.run c).Goes xs (.done (.ok (.error refusal), c'))) :
    command = .choose [] ∧ refusal = nothingToChoose := by
  cases command with
  | choose items =>
      cases items with
      | nil =>
          rw [perform_choose_nil] at h
          cases h.of_done.2
          exact ⟨rfl, rfl⟩
      | cons v rest =>
          obtain ⟨x, -, hx⟩ := Random.choose_eq (List.cons_ne_nil v rest) c.random
          have hperform : (perform (.choose (v :: rest))).run.run c =
              .done (.ok (chosen (c.random.choose (v :: rest)).1),
                { c with random := (c.random.choose (v :: rest)).2 }) := rfl
          rw [hperform, hx] at h
          cases h.of_done.2
  | answer v => cases h.of_done.2
  | sleepBeyond => cases h.of_crash.2
  | countBeyond => cases h.of_crash.2
  | reboot =>
      obtain ⟨ys, zs, -, c₁, -, -, h⟩ := Action.goes_bind_done h
      obtain ⟨x, -, hx⟩ := Action.goes_map_done h
      cases hx
  | radio name options =>
      obtain ⟨ys, zs, -, c₁, -, -, h⟩ := Action.goes_bind_done h
      obtain ⟨x, -, hx⟩ := Action.goes_map_done h
      cases hx
  | _ =>
      obtain ⟨x, -, hx⟩ := Action.goes_map_done h
      cases hx

end Primitive

namespace Script

open Eval

namespace Evaluator

variable {name : String} {args : List Value} {pos : Position} {m : Machine}

/-- A call that is refused is over, and the machine is as it was. -/
theorem callOutside_of_refused {refusal : Refusal}
    (h : Primitive.refusal? m.limits.items name args = some refusal) :
    (callOutside name args pos).run.run m =
      .done (.error (.error (.at (.thrown refusal.value) pos)), m) := by
  unfold callOutside
  rw [run_get]
  unfold Primitive.refusal? at h
  split at h
  next refusal' hselect =>
    cases h
    rw [hselect]
    rfl
  next hselect =>
    cases h
    rw [hselect]
    exact run_bind_of_done (run_act_of_done (Primitive.perform_choose_nil m.context))
  · cases h

/-- Where a function is no primitive, its error is no refusal. -/
theorem isRefusal_of_native {xs : List Exchange} {e : Error} {m' : Machine}
    (hselect : Primitive.select m.limits.items name args = none)
    (h : ((callOutside name args pos).run.run m).Goes xs (.done (.error (.error e), m'))) :
    e.fault.isRefusal = false := by
  have excluded {c : Eval Library.Effect} (blameless : Blameless c)
      (hc : (c.run.run m).Goes xs (.done (.error (.error e), m'))) : e.fault.isRefusal = false :=
    blameless _ _ _ _ hc
  unfold callOutside at h
  rw [run_get, hselect] at h
  refine excluded ?_ h
  dsimp only
  split
  · exact .printed _ _ pos
  · exact .printed _ _ pos
  · exact .printed _ _ pos
  · exact .printed _ _ pos
  · exact .pure _
  · exact .exit
  · exact .exit
  · exact .pure _
  · exact .bind (.find? _) fun _ => .pure _
  · exact .pure _
  · split
    · refine .bind (.ofAnswer _ pos) fun e => .bind (.checkSize _ pos) fun _ => ?_
      split
      · exact .bind (.checkSize _ pos) fun _ => .pure _
      · exact .pure _
    · exact .fail rfl pos

/-- The arguments alone decide of a refusal. -/
theorem refused_of_callOutside {xs : List Exchange} {e : Error} {m' : Machine} {text : String}
    (h : ((callOutside name args pos).run.run m).Goes xs (.done (.error (.error e), m')))
    (he : e.fault = .thrown (.refusal text)) :
    Primitive.refusal? m.limits.items name args = some (.argument text) := by
  have guilty : e.fault.isRefusal = true := by rw [he]; rfl
  have argument {refusal : Refusal} (hthrown : e.fault = .thrown refusal.value) :
      refusal = .argument text := by
    rw [he] at hthrown
    cases refusal with
    | argument t =>
        cases hthrown
        rfl
    | assertion t => cases hthrown
  cases hselect : Primitive.select m.limits.items name args with
  | none => exact absurd (isRefusal_of_native hselect h) (by simp [guilty])
  | some d =>
      unfold callOutside at h
      rw [run_get, hselect] at h
      cases d with
      | ok command =>
          obtain ⟨ys, zs, ⟨r, m₁⟩, -, hy, hz⟩ := Thread.Goes.of_bind_done h
          cases r with
          | error i =>
              cases hz.of_done.2
              exact absurd (Blameless.act _ pos _ _ _ _ hy) (by simp [guilty])
          | ok result =>
              cases result with
              | ok v => exact absurd (Blameless.given v pos _ _ _ _ hz) (by simp [guilty])
              | error refusal =>
                  cases hz.of_done.2
                  obtain ⟨rfl, rfl⟩ := Primitive.eq_choose_of_refused (goes_act_done hy)
                  unfold Primitive.refusal?
                  rw [hselect]
                  exact congrArg some (argument rfl)
      | error refusal =>
          cases h.of_done.2
          rw [Primitive.refusal?_of_select hselect, argument rfl]

/-! ### Calls that a script makes

A call of a script first looks whether the function is one that calls back.  No primitive is.
-/

/-- No primitive takes a function as its first argument under these names. -/
theorem select_function {limit : Nat} (hname : name = "call" ∨ name = "curry") (f : String)
    (bound : List Value) : Primitive.select limit name (.function f bound :: args) = none := by
  rcases args with _ | ⟨a, _ | ⟨b, _ | ⟨c, _ | ⟨d, rest⟩⟩⟩⟩ <;> rcases hname with rfl | rfl <;>
    simp [Primitive.select, Primitive.unary, Primitive.binary]

/-- No primitive has the name and the arguments of a function that calls back. -/
theorem callBack_of_select {ev : Evaluator} {limit : Nat} {d : Primitive.Decision}
    (h : Primitive.select limit name args = some d) : ev.callBack name args pos = pure none := by
  unfold callBack
  split
  case h_13 =>
    rw [select_function (.inl rfl)] at h
    cases h
  case h_14 =>
    rw [select_function (.inr rfl)] at h
    cases h
  case h_15 => rfl
  all_goals simp [Primitive.select, Primitive.binary] at h

theorem callAny_of_select {ev : Evaluator} {limit : Nat} {d : Primitive.Decision}
    (h : Primitive.select limit name args = some d) :
    ev.callAny name args pos = callOutside name args pos := by
  rw [callAny, callBack_of_select h]
  rfl

/-- What is left behind by a call that was refused. -/
structure Untouched (name : String) (args : List Value) (pos : Position) (m : Machine)
    (text : String) : Prop where
  /-- The arguments alone decide. -/
  selected : Primitive.refusal? m.limits.items name args = some (.argument text)
  /-- However a script comes to the call, it is over at once, and the machine is as it was. -/
  ended : ∀ ev : Evaluator, (ev.callAny name args pos).run.run m =
    .done (.error (.error (.at (.thrown (.refusal text)) pos)), m)
  /-- What is shared with the host and the other runs is as it was, and nothing was sent. -/
  shared : ∀ (ev : Evaluator) n link surroundings,
    (((ev.callAny name args pos).run.run m).steps n link surroundings).2 = (link, surroundings)
  /-- A script that catches the error goes on from where the call began: whatever it did on the way
  to the call, the handler follows it directly. -/
  caught : ∀ (ev : Evaluator) {α β γ : Type} (before : Eval α) (after : Library.Effect → Eval β)
    (handler : Except Interrupt β → Eval γ) m₀ xs a,
    (before.run.run m₀).Goes xs (.done (.ok a, m)) →
      ((attempt (before >>= fun _ => ev.callAny name args pos >>= after) >>= handler).run.run m₀).Goes
        xs ((handler (.error (.error (.at (.thrown (.refusal text)) pos)))).run.run m)

theorem untouched_of_refused {text : String}
    (h : Primitive.refusal? m.limits.items name args = some (.argument text)) :
    Untouched name args pos m text := by
  have ended (ev : Evaluator) : (ev.callAny name args pos).run.run m =
      .done (.error (.error (.at (.thrown (.refusal text)) pos)), m) := by
    obtain ⟨d, hselect⟩ := Primitive.exists_select_of_refused h
    rw [callAny_of_select hselect]
    exact callOutside_of_refused h
  refine ⟨h, ended, fun ev n link surroundings => ?_, ?_⟩
  · rw [ended]
    cases n <;> rfl
  · intro ev α β γ before after handler m₀ xs a hb
    have call : ((ev.callAny name args pos >>= after).run.run m).Goes []
        (.done (.error (.error (.at (.thrown (.refusal text)) pos)), m)) := by
      refine goes_bind_error ?_
      rw [ended]
      exact .stay _
    have whole := (goes_bind (f := fun _ => ev.callAny name args pos >>= after) hb).append call
    rw [List.append_nil] at whole
    exact goes_bind (goes_attempt whole)

/-- **A call that is refused for its arguments has changed nothing**: whatever its requests would have
been answered with, it asked for none, and the machine is as it was. -/
theorem refusal_changes_nothing {xs : List Exchange} {e : Error} {m' : Machine} {text : String}
    (h : ((callOutside name args pos).run.run m).Goes xs (.done (.error (.error e), m')))
    (he : e.fault = .thrown (.refusal text)) :
    xs = [] ∧ m' = m ∧ Untouched name args pos m text := by
  have selected := refused_of_callOutside h he
  rw [callOutside_of_refused selected] at h
  obtain ⟨rfl, same⟩ := h.of_done
  cases same
  exact ⟨rfl, rfl, untouched_of_refused selected⟩

/-- A colour whose last part is no number, met by a run that has a filter, has drawn random numbers,
and has told the host of a widget. -/
theorem refusal_changes_nothing_defaultColor :
    let context : Context :=
      ⟨{ Filter.initial with wrap := true }, .ofSeed 7, [("c", .checkbox)], .ofLimit 3⟩
    let m : Machine := ⟨⟨0, 0, 0, 0, 0, 0⟩, context, [], none, [], [], 5, 0⟩
    Untouched "defaultColor" [.array [.int 1, .float 0, .bool true]] ⟨1, 1⟩ m
      "defaultColor expects a number, got bool" :=
  (refusal_changes_nothing (.stay _) rfl).2.2

end Evaluator

end Script

end FilterScript
