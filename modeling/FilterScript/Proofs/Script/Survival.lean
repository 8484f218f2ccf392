/-
Which calls of primitives the thread of a run survives.

Whatever a script does wrong is to end in an error that the script can catch or the host can read.  The
two primitives that count do not keep to that for all numbers: a sleep that no clock can hold, and a
range that no memory can hold where arrays have no limit, end the thread on the spot.  `Deadly` is these
calls, and of the primitives no other.  A sleep of whole milliseconds is not among them: the integers of
scripts end long before.  Of the functions of the language itself only those that print are looked at,
because they write to the log of the host.  The others are left out; some of them can ask for more than
any memory as well, such as those that pad an array or a string where it has no limit.

Every other call of a primitive goes on to an answer or to an error at its own place, whatever the
requests on its way are answered with.  That is a protocol again, one that allows every request and
forbids a thread to go silent, so the rule of `bind` carries it through the primitives.  No primitive
begins inside another one, because an action has no way back into the script.
-/
import FilterScript.Proofs.Number.Single
import FilterScript.Proofs.Filter.Build
import FilterScript.Proofs.Script.Command
import FilterScript.Proofs.Script.Refusal

namespace FilterScript

open Script

namespace Primitive

/-! ### Times -/

theorem has_thousand : thousand.Has false 1000 :=
  ⟨1000 * 2 ^ 14, -14, by decide +kernel, by norm_num⟩

theorem has_longestSleep : longestSleep.Has false (2 ^ 63) :=
  ⟨2 ^ 23, 40, by decide +kernel, by norm_num⟩

/-- An integer of a script is at most the first number beyond the integers. -/
theorem has_ofInt_le {i : Int} (hlow : Value.minInt ≤ i) (hhigh : i ≤ Value.maxInt) :
    ∃ q, (Single.ofInt i).Has (i < 0) q ∧ q ≤ 2 ^ (63 : ℤ) := by
  refine Single.has_ofRatio_le _ Nat.one_pos (by decide) (by decide) ?_
  have hbound : i.natAbs ≤ 2 ^ 63 := by
    unfold Value.minInt at hlow
    unfold Value.maxInt at hhigh
    omega
  rw [Nat.cast_one, div_one]
  exact_mod_cast hbound

/-- **A clock can hold every sleep of whole milliseconds.** -/
theorem seconds_ofInt {i : Int} (hlow : Value.minInt ≤ i) (hhigh : i ≤ Value.maxInt) :
    longestSleep.le (seconds (.ofInt i)) = false := by
  obtain ⟨q, hq, hle⟩ := has_ofInt_le hlow hhigh
  obtain ⟨s, p, hp, hple⟩ : ∃ s p,
      (if Single.lt 0 (.ofInt i) then Single.ofInt i else 0).Has s p ∧ p ≤ 2 ^ (63 : ℤ) := by
    split
    · exact ⟨_, q, hq, hle⟩
    · exact ⟨false, 0, Single.has_zero, by positivity⟩
  obtain ⟨n, d, hd, hratio, hseconds⟩ := Single.div_eq_ofRatio hp has_thousand (by norm_num)
  have hquotient : (n : ℚ) / d ≤ 2 ^ (54 : ℤ) := by
    rw [hratio]
    norm_num at hple ⊢
    linarith
  obtain ⟨r, hr, hrle⟩ := Single.has_ofRatio_le (s ^^ false) hd (by decide) (by decide) hquotient
  rw [seconds, hseconds, ← Bool.not_eq_true, Single.le_iff has_longestSleep hr, not_le]
  calc Single.signOf (s ^^ false) r ≤ r := by
        have := hr.nonneg
        unfold Single.signOf
        split <;> linarith
    _ ≤ 2 ^ (54 : ℤ) := hrle
    _ < 2 ^ 63 := by norm_num

/-! ### Deadly calls -/

/-- The calls of primitives that end the thread, where arrays hold at most `limit` values. -/
inductive Deadly (limit : Nat) : String → List Value → Prop where
  | sleep {ms : Single} (hfinite : ms.isFinite = true)
      (hlong : longestSleep.le (seconds ms) = true) : Deadly limit "sleep" [.float ms]
  | range {n : Int} (hmost : mostValues < n.toNat) (hlimit : ¬ (0 < limit ∧ limit < n.toNat)) :
      Deadly limit "range" [.int n]

/-- Whether the integers among some arguments are such as a script can have. -/
def InRange (args : List Value) : Prop :=
  ∀ i, .int i ∈ args → Value.minInt ≤ i ∧ i ≤ Value.maxInt

variable {limit : Nat} {name : String} {args : List Value} {c : Command}

/-- A deadly call is accepted, and comes to a deadly command. -/
theorem Deadly.select (h : Deadly limit name args) :
    ∃ c, Primitive.select limit name args = some (.ok c) ∧ perform c = dies := by
  cases h with
  | @sleep ms hfinite hlong =>
      refine ⟨.sleepBeyond, ?_, rfl⟩
      rcases sleep_cases ms with ⟨-, he⟩ | ⟨hshort, -⟩
      · show some (if ms.isFinite = true then _ else _) = _
        rw [if_pos hfinite, he]
      · cases hshort.symm.trans hlong
  | @range n hmost hlimit =>
      refine ⟨.countBeyond, ?_, rfl⟩
      rcases count_cases limit n with ⟨hover, -⟩ | ⟨-, ⟨-, he⟩ | ⟨hfew, -⟩⟩
      · exact absurd hover hlimit
      · exact congrArg some he
      · omega

/-- Only deadly calls come to deadly commands. -/
theorem deadly_of_select (h : Primitive.select limit name args = some (.ok c))
    (hc : c.isDeadly = true) (hargs : InRange args) : Deadly limit name args := by
  cases select_ok h with
  | ordinary hordinary => cases c <;> simp [Command.isDeadly, Command.isOrdinary] at hc hordinary
  | radio => cases hc
  | slider => cases hc
  | @sleepInt ms _ hs =>
      obtain ⟨hlow, hhigh⟩ := hargs ms (List.mem_singleton_self _)
      rcases sleep_cases (.ofInt ms) with ⟨hlong, -⟩ | ⟨-, time, he⟩
      · cases (seconds_ofInt hlow hhigh).symm.trans hlong
      · cases he.symm.trans hs
        cases hc
  | @sleepFloat ms _ hfinite hs =>
      rcases sleep_cases ms with ⟨hlong, -⟩ | ⟨-, time, he⟩
      · exact .sleep hfinite hlong
      · cases he.symm.trans hs
        cases hc
  | @range n _ hr =>
      rcases count_cases limit n with ⟨-, text, he⟩ | ⟨hlimit, ⟨hmost, -⟩ | ⟨-, v, he⟩⟩
      · cases he.symm.trans hr
      · exact .range hmost hlimit
      · cases he.symm.trans hr
        cases hc

end Primitive

/-! ### Actions -/

/-- A run may ask for anything, and it may not go silent. -/
def Protocol.surviving : Protocol Unit where
  Allows _ _ := True
  after _ _ _ := ()
  MayStop _ := False

namespace Action

variable {α β : Type}

/-- An action that comes to its end, whatever its requests are answered with. -/
def Survives (a : Action α) : Prop :=
  Takes .surviving (fun _ _ => True) (fun _ _ _ => True) a

theorem log_survives (level : LogLevel) (text : String) : Survives (log level text) :=
  log_keeps (fun _ => trivial) (fun _ _ _ _ _ => trivial) level text

/-- **Every command that is not deadly comes to its end.** -/
theorem perform_survives {c : Command} (hc : c.isDeadly = false) :
    Survives (Primitive.perform c) := by
  cases hedit : c.edit? with
  | none =>
      refine perform_keeps (fun _ => trivial) (fun _ _ _ _ _ => trivial) hedit fun hdeadly => ?_
      rw [hc] at hdeadly
      cases hdeadly
  | some e =>
      have hmodify (f : Context → Context) : Survives (modify f : Action Unit) :=
        Keeps.modify fun _ _ => trivial
      cases c <;> cases hedit
      · exact Keeps.bind (hmodify _) fun _ => .pure _
      · exact Keeps.bind (hmodify _) fun _ =>
          .bind (post_keeps (fun _ => trivial) _) fun _ => .pure _

end Action

namespace Script

/-! ### Calls -/

/-- How a call may end: with an answer, or with an error where it stands. -/
def Eval.EndsAt {α : Type} (pos : Position) : Except Interrupt α → Prop
  | .ok _ => True
  | .error (.error e) => ∃ f, e = .at f pos
  | .error _ => False

/-- A computation that comes to its end, whatever its requests are answered with. -/
def Eval.Survives {α : Type} (pos : Position) (e : Eval α) : Prop :=
  ∀ m, (e.run.run m).Follows .surviving (fun _ x => EndsAt pos x.1) ()

namespace Eval.Survives

variable {α β : Type} {pos : Position}

theorem pure (a : α) : Survives pos (pure a : Eval α) := fun _ => .done trivial

theorem fail (f : Fault) : Survives pos (fail f pos : Eval α) := fun _ => .done ⟨f, rfl⟩

theorem bind {e : Eval α} {f : α → Eval β} (he : Survives pos e) (hf : ∀ a, Survives pos (f a)) :
    Survives pos (e >>= f) := by
  intro m
  refine Thread.Follows.bind (he m) ?_
  rintro ⟨⟩ ⟨r, m'⟩ hr
  cases r with
  | ok a => exact hf a m'
  | error i =>
      refine .done ?_
      cases i <;> exact hr

theorem get {f : Machine → Eval β} (hf : ∀ m, Survives pos (f m)) :
    Survives pos (MonadState.get >>= f) :=
  fun m => hf m m

/-- An action that does not go through finds that the run was replaced, and says so. -/
theorem act {a : Action α} (ha : a.Survives) : Survives pos (act a pos) := by
  intro m
  refine Thread.Follows.bind (ha () m.context trivial) ?_
  rintro ⟨⟩ ⟨r, c⟩ -
  cases r with
  | ok v => exact .done trivial
  | error _ => exact .done ⟨_, rfl⟩

theorem checkSize (v : Value) : Survives pos (checkSize v pos) := by
  refine get fun m => ?_
  split
  · exact fail _
  · exact pure ()

/-- What a primitive gives may be too large, or the call is refused. -/
theorem given (result : Primitive.Result) : Survives pos (Evaluator.given pos result) := by
  cases result with
  | ok v => exact bind (checkSize v) fun _ => pure _
  | error refusal => exact fail _

theorem printed (level : LogLevel) (text : String) :
    Survives pos (Evaluator.printed level text pos) :=
  bind (act (Action.log_survives _ _)) fun _ => pure _

end Eval.Survives

namespace Evaluator

open Eval Primitive

variable {name : String} {args : List Value} {pos : Position} {m : Machine}

/-- Whether a call is one of what the host gives to its scripts: of a primitive, or of a function that
prints to the log. -/
def IsProvided (limit : Nat) (name : String) (args : List Value) : Prop :=
  (∃ d, select limit name args = some d) ∨
    (name = "print" ∨ name = "debug") ∧ (args = [] ∨ ∃ v, args = [v])

/-- What is printed goes to the log. -/
theorem callOutside_of_printing (pos : Position) (hselect : select m.limits.items name args = none)
    (hname : name = "print" ∨ name = "debug") (hargs : args = [] ∨ ∃ v, args = [v]) :
    ∃ level text, (callOutside name args pos).run.run m = (printed level text pos).run.run m := by
  unfold callOutside
  rw [run_get, hselect]
  rcases hname with rfl | rfl <;> rcases hargs with rfl | ⟨v, rfl⟩ <;> exact ⟨_, _, rfl⟩

/-- A call of what the host provides comes to its end if it is not deadly. -/
theorem callOutside_survives (hprovided : IsProvided m.limits.items name args)
    (h : ¬ Deadly m.limits.items name args) (hargs : InRange args) :
    ((callOutside name args pos).run.run m).Follows .surviving (fun _ x => EndsAt pos x.1) () := by
  cases hselect : select m.limits.items name args with
  | none =>
      obtain ⟨d, hd⟩ | ⟨hname, hfew⟩ := hprovided
      · cases hselect.symm.trans hd
      · obtain ⟨level, text, heq⟩ := callOutside_of_printing pos hselect hname hfew
        rw [heq]
        exact Eval.Survives.printed level text m
  | some d =>
      unfold callOutside
      rw [run_get, hselect]
      cases d with
      | error refusal => exact Eval.Survives.given (.error refusal) m
      | ok c =>
          have hc : c.isDeadly = false := by
            rw [← Bool.not_eq_true]
            exact fun hdeadly => h (deadly_of_select hselect hdeadly hargs)
          exact Eval.Survives.bind (.act (Action.perform_survives hc)) .given m

/-- A deadly call is the end of the thread. -/
theorem callAny_of_deadly (h : Deadly m.limits.items name args) (ev : Evaluator) :
    (ev.callAny name args pos).run.run m = .crash := by
  obtain ⟨c, hselect, hdies⟩ := h.select
  rw [callAny_of_select hselect]
  unfold callOutside
  rw [run_get, hselect]
  show ((act (perform c) pos >>= _ : Eval Library.Effect)).run.run m = _
  rw [hdies]
  rfl

/-- What becomes of a thread at a call of what the host provides. -/
structure Survival (name : String) (args : List Value) (pos : Position) (m : Machine) : Prop where
  /-- A call that is not deadly has an answer, or an error where it stands. -/
  survives : IsProvided m.limits.items name args → ¬ Deadly m.limits.items name args → InRange args →
    ((callOutside name args pos).run.run m).Follows .surviving (fun _ x => EndsAt pos x.1) ()
  /-- A refused call fails where it stands with an error that scripts can catch. -/
  refused : ∀ refusal, refusal? m.limits.items name args = some refusal →
    (callOutside name args pos).run.run m =
        .done (.error (.error (.at (.thrown refusal.value) pos)), m) ∧
      (Fault.thrown refusal.value).isSystem = false
  /-- However a script comes to the call of a primitive, it is this call. -/
  called : ∀ (ev : Evaluator) d, select m.limits.items name args = some d →
    ev.callAny name args pos = callOutside name args pos
  /-- A deadly call is the end of the thread. -/
  dies : Deadly m.limits.items name args → ∀ ev : Evaluator,
    (ev.callAny name args pos).run.run m = .crash
  /-- No script can catch that: whatever it did on the way to the call, the handler is not reached. -/
  uncaught : Deadly m.limits.items name args →
    ∀ (ev : Evaluator) {α β γ : Type} (before : Eval α) (after : Library.Effect → Eval β)
      (handler : Except Interrupt β → Eval γ) m₀ xs a,
    (before.run.run m₀).Goes xs (.done (.ok a, m)) →
      ((attempt (before >>= fun _ => ev.callAny name args pos >>= after) >>= handler).run.run m₀).Goes
        xs .crash

/-- **A call of what the host provides ends its thread exactly if it is deadly.** -/
theorem survival (name : String) (args : List Value) (pos : Position) (m : Machine) :
    Survival name args pos m where
  survives := callOutside_survives
  refused _ h := ⟨callOutside_of_refused h, rfl⟩
  called _ _ := callAny_of_select
  dies := callAny_of_deadly
  uncaught h ev α β γ before after handler m₀ xs a hb := by
    have hcall : (ev.callAny name args pos >>= after).run.run m = .crash := by
      show ((ev.callAny name args pos).run.run m).bind _ = _
      rw [callAny_of_deadly h]
      rfl
    have hbody := goes_bind (f := fun _ => ev.callAny name args pos >>= after) hb
    rw [hcall] at hbody
    have hattempt : ((attempt (before >>= fun _ => ev.callAny name args pos >>= after)).run.run m₀).Goes
        xs .crash := hbody.bind _
    exact hattempt.bind _

end Evaluator

end Script

end FilterScript
