/-
Calls keep to every discipline.

Every rule of evaluation is orderly if the rules that it refers to are.  Two places
need an argument.  A function of the script catches whatever its body was
interrupted by, to restore the variables, and hands it on as a value; `Leads` keeps
track of the place that goes with the value until `ofAttempt` throws it again.  And
the text that `eval` runs is caught as well, but the only fault of the machine that
says that the run was replaced is handed on by name.
-/
import FilterScript.Proofs.Script.Machine
import FilterScript.Script.Evaluator.Call

namespace FilterScript.Script

open Eval

/-- The rules that others refer to are orderly. -/
structure Evaluator.Orderly {σ : Type} (D : Discipline σ) (ev : Evaluator) : Prop where
  expr : ∀ e, Eval.Orderly D (ev.expr e)
  stmt : ∀ s, Eval.Orderly D (ev.stmt s)
  loop : ∀ s, Eval.Orderly D (ev.loop s)

namespace Evaluator

variable {σ : Type} {D : Discipline σ} {ev : Evaluator} {α β : Type}

theorem stmts_orderly (h : ev.Orderly D) (body : List Stmt) : Eval.Orderly D (ev.stmts body) := by
  fun_induction ev.stmts body with
  | case1 => exact .pure _
  | case2 s => exact h.stmt s
  | case3 s rest _ ih => exact .bind (h.stmt s) fun _ => ih

theorem block_orderly (h : ev.Orderly D) (body : List Stmt) : Eval.Orderly D (ev.block body) :=
  .enclosed (stmts_orderly h body)

theorem needBool_orderly (v : Value) (pos : Position) : Eval.Orderly D (needBool v pos) := by
  unfold needBool
  split
  · exact .pure _
  · exact .fail (by simp)

theorem condition_orderly (h : ev.Orderly D) (e : Expr) : Eval.Orderly D (ev.condition e) :=
  .bind (h.expr e) fun _ => needBool_orderly _ _

/-! ### Functions of the script -/

/-- What was attempted leads, when it is thrown again, to where it led before. -/
theorem ofAttempt_leads (r : Except Interrupt α) :
    Leads D (placeAfter r) (fun _ => .free) (ofAttempt r) := by
  cases r with
  | ok a => exact .pure (q := fun _ => .free) a
  | error i => exact .throw i

/-- Catching a computation and throwing again what interrupted it is orderly, if
what stands between leaves the run where it is. -/
theorem attempt_orderly {e : Eval α} {f : Except Interrupt α → Eval β} (he : Eval.Orderly D e)
    (hf : ∀ r, Leads D (placeAfter r) (fun _ => .free) (f r)) :
    Eval.Orderly D (attempt e >>= f) :=
  Leads.bind (.attempt he) hf

/-- An error that comes out of a call is the same fault. -/
theorem answered_leads (f : Function) (pos : Position) (r : Except Interrupt Value) :
    Leads D (placeAfter r) (fun _ => .free) (answered f pos r) := by
  unfold answered
  split
  · exact .pure (q := fun _ => .free) _
  · exact .pure (q := fun _ => .free) _
  next e =>
    have hmoved : (e.moved pos).fault = e.fault := by cases e <;> rfl
    have hplace : (Interrupt.error (e.moved pos)).place = (Interrupt.error e).place := by
      simp only [Interrupt.place, hmoved]
    split
    · have ht := Leads.throw (D := D) (q := fun _ : Value => Place.free) (.error (e.moved pos))
      rwa [hplace] at ht
    · exact Leads.throw (D := D) (q := fun _ : Value => Place.free) (.error (.inCall f.name e pos))
  · exact .throw _

/-- Where a call of a function of the script leaves the run. -/
def callPlace (x : Except Interrupt Value × Option Value) : Place := placeAfter x.1

theorem callFunction_leads (h : ev.Orderly D) (f : Function) (args : List Value)
    (this : Option Value) (pos : Position) :
    Leads D .free callPlace (ev.callFunction f args this pos) := by
  refine Leads.bind (Orderly.tick pos) fun _ => .getFrom fun m => ?_
  split
  · exact Leads.fail (by simp) _
  refine .bind (.set rfl) fun _ => .bind (.attempt (stmts_orderly h f.body)) fun r => ?_
  refine .get fun m' => .bind (.modify fun _ => rfl) fun _ => ?_
  exact .bind (.attempt (answered_leads f pos r)) fun r' => Leads.pure (q := callPlace) (r', m'.this)

/-- A call whose answer is thrown on. -/
theorem callAndThrow_orderly (h : ev.Orderly D) (f : Function) (args : List Value)
    (this : Option Value) (pos : Position) :
    Eval.Orderly D (do
      let (r, _) ← ev.callFunction f args this pos
      ofAttempt r) :=
  Leads.bind (callFunction_leads h f args this pos) fun x => ofAttempt_leads x.1

theorem function?_orderly (name : String) (arity : Nat) : Eval.Orderly D (function? name arity) :=
  .get fun _ => .pure _

/-! ### Functions outside the script -/

theorem printed_orderly (level : LogLevel) (text : String) (pos : Position) :
    Eval.Orderly D (printed level text pos) :=
  .bind (.act (D.log level text) pos) fun _ => .pure _

theorem runText_orderly (h : ev.Orderly D) (script : String) (pos : Position) :
    Eval.Orderly D (ev.runText script pos) := by
  refine .bind (.tick pos) fun _ => .get fun m => attempt_orderly ?_ fun r => ?_
  · split
    · exact .fail (by simp)
    · exact .ite (stmts_orderly h _) (.fail (by simp))
  · split
    · exact .pure (q := fun _ => .free) _
    next e => exact Leads.throw (D := D) (q := fun _ : Value => Place.free) (.error (.inCall "eval" e pos))
    · exact ofAttempt_leads _

theorem callOutside_orderly (name : String) (args : List Value) (pos : Position) :
    Eval.Orderly D (callOutside name args pos) := by
  refine .get fun m => ?_
  split
  next command hselect =>
    refine .bind (.act (D.perform hselect) pos) fun result => ?_
    cases result with
    | ok v => exact .bind (.checkSize v pos) fun _ => .pure _
    | error refusal => exact .fail (f := .thrown refusal.value) (by simp)
  next refusal _ => exact .fail (f := .thrown refusal.value) (by simp)
  · split
    · exact printed_orderly _ _ _
    · exact printed_orderly _ _ _
    · exact printed_orderly _ _ _
    · exact printed_orderly _ _ _
    · exact .pure _
    · exact .throw rfl
    · exact .throw rfl
    · exact .pure _
    · exact .bind (Neutral.find? _).orderly fun _ => .pure _
    · exact .pure _
    · split
      · refine .bind (.ofAnswer _ _) fun e => .bind (.checkSize _ _) fun _ => ?_
        split
        · exact .bind (.checkSize _ _) fun _ => .pure _
        · exact .pure _
      · exact .fail (by simp)

/-! ### Functions as values -/

theorem callValue_orderly (h : ev.Orderly D) (name : String) (bound args : List Value)
    (pos : Position) : Eval.Orderly D (ev.callValue name bound args pos) := by
  refine .bind (function?_orderly _ _) fun f => ?_
  split
  · exact callAndThrow_orderly h _ _ _ _
  · refine .bind (.mapM (fun v => (Neutral.content v).orderly) _) fun _ => ?_
    exact .bind (callOutside_orderly _ _ _) fun _ => .pure _

theorem callOnItem_orderly (h : ev.Orderly D) (name : String) (bound : List Value) (item : Value)
    (i : Nat) (pos : Position) : Eval.Orderly D (ev.callOnItem name bound item i pos) := by
  refine .bind (function?_orderly _ _) fun f => .bind (function?_orderly _ _) fun g => ?_
  refine .bind (function?_orderly _ _) fun g' => ?_
  split
  · exact callAndThrow_orderly h _ _ _ _
  · exact callAndThrow_orderly h _ _ _ _
  · exact callValue_orderly h _ _ _ _

theorem partedAfter_orderly (h : ev.Orderly D) (name : String) (bound : List Value) (pos : Position)
    (yes no : List Value) (i : Nat) (xs : List Value) :
    Eval.Orderly D (ev.partedAfter name bound pos yes no i xs) := by
  induction xs generalizing yes no i with
  | nil => exact .pure _
  | cons x xs ih =>
      refine .bind (callOnItem_orderly h _ _ _ _ _) fun v => .ite ?_ ?_
      · exact ih _ _ _
      · exact ih _ _ _

theorem firstThat_orderly (h : ev.Orderly D) (wanted : Bool) (name : String) (bound : List Value)
    (pos : Position) (i : Nat) (xs : List Value) :
    Eval.Orderly D (ev.firstThat wanted name bound pos i xs) := by
  induction xs generalizing i with
  | nil => exact .pure _
  | cons x xs ih => exact .bind (callOnItem_orderly h _ _ _ _ _) fun v => .ite (.pure _) (ih _)

theorem mappedAfter_orderly (h : ev.Orderly D) (name : String) (bound : List Value) (pos : Position)
    (done : List Value) (i : Nat) (xs : List Value) :
    Eval.Orderly D (ev.mappedAfter name bound pos done i xs) := by
  induction xs generalizing done i with
  | nil => exact .pure _
  | cons x xs ih => exact .bind (callOnItem_orderly h _ _ _ _ _) fun v => ih _ _

theorem reduced_orderly (h : ev.Orderly D) (name : String) (bound : List Value) (pos : Position)
    (i : Nat) (acc : Value) (xs : List Value) :
    Eval.Orderly D (ev.reduced name bound pos i acc xs) := by
  induction xs generalizing i acc with
  | nil => exact .pure _
  | cons x xs ih =>
      refine .bind (function?_orderly _ _) fun f => .bind (function?_orderly _ _) fun g => ?_
      split
      · exact .bind (callValue_orderly h _ _ _ _) fun _ => ih _ _
      · exact .bind (callValue_orderly h _ _ _ _) fun _ => ih _ _

theorem insertSorted_orderly (h : ev.Orderly D) (name : String) (bound : List Value)
    (pos : Position) (x : Value) (ys : List Value) :
    Eval.Orderly D (ev.insertSorted name bound pos x ys) := by
  induction ys with
  | nil => exact .pure _
  | cons y ys ih =>
      refine .bind (callValue_orderly h _ _ _ _) fun v => .ite ?_ (.pure _)
      exact .bind ih fun _ => .pure _

theorem sortedBy_orderly (h : ev.Orderly D) (name : String) (bound : List Value) (pos : Position)
    (done xs : List Value) : Eval.Orderly D (ev.sortedBy name bound pos done xs) := by
  induction xs generalizing done with
  | nil => exact .pure _
  | cons x xs ih => exact .bind (insertSorted_orderly h _ _ _ _ _) fun _ => ih _

theorem callBack_orderly (h : ev.Orderly D) (name : String) (args : List Value) (pos : Position) :
    Eval.Orderly D (ev.callBack name args pos) := by
  unfold callBack
  extract_lets gives
  have hgives : ∀ v, Eval.Orderly D (gives v) := fun v => .pure _
  split
  · exact .bind (mappedAfter_orderly h _ _ _ _ _ _) fun _ => hgives _
  · exact .bind (partedAfter_orderly h _ _ _ _ _ _ _) fun _ => hgives _
  · exact .bind (mappedAfter_orderly h _ _ _ _ _ _) fun _ => hgives _
  · exact .bind (reduced_orderly h _ _ _ _ _ _) fun _ => hgives _
  · exact .bind (reduced_orderly h _ _ _ _ _ _) fun _ => hgives _
  · exact .bind (firstThat_orderly h _ _ _ _ _ _) fun _ => hgives _
  · exact .bind (firstThat_orderly h _ _ _ _ _ _) fun _ => hgives _
  · refine .bind (firstThat_orderly h _ _ _ _ _ _) fun i => ?_
    split
    · exact hgives _
    · exact hgives _
  · refine .bind (firstThat_orderly h _ _ _ _ _ _) fun i => ?_
    split
    · exact hgives _
    · exact hgives _
  · exact .bind (partedAfter_orderly h _ _ _ _ _ _ _) fun _ => .pure _
  · exact .bind (partedAfter_orderly h _ _ _ _ _ _ _) fun _ => .pure _
  · exact .bind (sortedBy_orderly h _ _ _ _ _) fun _ => .pure _
  · exact .bind (callValue_orderly h _ _ _ _) fun _ => hgives _
  · exact hgives _
  · exact .pure _

theorem callAny_orderly (h : ev.Orderly D) (name : String) (args : List Value) (pos : Position) :
    Eval.Orderly D (ev.callAny name args pos) := by
  refine .bind (callBack_orderly h _ _ _) fun e => ?_
  split
  · exact .pure _
  · exact callOutside_orderly _ _ _

end Evaluator

end FilterScript.Script
