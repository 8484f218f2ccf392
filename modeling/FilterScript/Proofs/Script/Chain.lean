/-
Chains and assignments keep to every discipline.

A method of the script may change its receiver before the error that it ended in
is thrown on, and that is done wherever the method left the run: storing a value
asks for nothing.
-/
import FilterScript.Proofs.Script.Call
import FilterScript.Script.Evaluator.Chain

namespace FilterScript.Script

/-! ### Parts of values

Looking for a part fails in many ways, but not with the fault of a replaced run.
-/

theorem Value.index_ne_terminated (v idx : Value) : v.index idx ≠ .error .terminated := by
  unfold Value.index
  split
  · split <;> simp
  · simp
  · simp [Value.wantsInt]
  · simp
  · simp
  · simp only
    split <;> simp
  · simp
  · simp [Value.wantsInt]
  · split <;> simp
  · simp

theorem Value.property_ne_terminated (v : Value) (name : String) :
    v.property name ≠ .error .terminated := by
  unfold Value.property
  split
  · simp
  · extract_lets missing
    have hmissing : missing ≠ .error .terminated := by simp [missing]
    split
    · split
      · simp
      · simp
      · exact hmissing
    · exact hmissing

namespace Evaluator

open Eval

variable {σ : Type} {D : Discipline σ} {ev : Evaluator}

theorem store_neutral (t : Target) (v : Value) : Neutral D (t.store v) := by
  unfold Target.store
  split
  · refine .bind (.variableAt? _) fun x => ?_
    split
    · exact .setVariable _ _
    · exact .pure _
  · refine .get fun m => ?_
    split
    · exact .bind (.content _) fun _ => .setThis _
    · exact .pure _
  · exact .pure _

theorem thisValue_orderly (pos : Position) : Eval.Orderly D (thisValue pos) := by
  refine .get fun m => ?_
  split
  · exact (Neutral.content _).orderly
  · exact .fail (by simp)

theorem targetOfName_orderly (name : String) (pos : Position) :
    Eval.Orderly D (targetOfName name pos) := by
  refine .bind (Neutral.find? name).orderly fun n => ?_
  split
  · refine .bind (Neutral.variableAt? _).orderly fun x => ?_
    split
    · exact .pure _
    · exact .fail (by simp)
  · refine .bind (Neutral.outside? name).orderly fun v => ?_
    split
    · exact .pure _
    · exact .fail (by simp)

theorem targetOf_orderly (h : ev.Orderly D) (e : Expr) : Eval.Orderly D (ev.targetOf e) := by
  unfold targetOf
  split
  · exact .bind (.tick _) fun _ => targetOfName_orderly _ _
  · exact .bind (.tick _) fun _ => .bind (thisValue_orderly _) fun _ => .pure _
  · exact .bind (h.expr _) fun _ => .pure _

theorem prepared_orderly (h : ev.Orderly D) (links : List Link) :
    Eval.Orderly D (ev.prepared links) := by
  fun_induction ev.prepared links with
  | case1 => exact .pure _
  | case2 s optional _ pos ls ih => exact .bind ih fun _ => .pure _
  | case3 s args optional _ pos ls ih =>
      exact .bind (.mapM h.expr _) fun _ => .bind ih fun _ => .pure _
  | case4 e optional _ ls ih => exact .bind (h.expr _) fun _ => .bind ih fun _ => .pure _

/-- What is stored between the end of a function and the error that it is thrown on
with leaves the run where that error does. -/
theorem callOn_orderly (h : ev.Orderly D) (t : Target) (f : Function) (args : List Value)
    (pos : Position) : Eval.Orderly D (ev.callOn t f args pos) := by
  refine Leads.bind (callFunction_leads h f args (some t.value) pos) fun x => ?_
  obtain ⟨r, this⟩ := x
  cases this with
  | some v => exact .bind (store_neutral t v (placeAfter r)) fun _ => ofAttempt_leads r
  | none => exact ofAttempt_leads r

theorem callMethod_orderly (h : ev.Orderly D) (t : Target) (name : String) (args : List Value)
    (pos : Position) : Eval.Orderly D (ev.callMethod t name args pos) := by
  unfold callMethod
  split
  · exact callValue_orderly h _ _ _ _
  · exact .pure _
  · extract_lets own
    clear_value own
    split
    · refine .bind (function?_orderly _ _) fun f => ?_
      split
      · exact callOn_orderly h _ _ _ _
      · exact callValue_orderly h _ _ _ _
    · refine .bind (function?_orderly _ _) fun f => ?_
      split
      · exact callOn_orderly h _ _ _ _
      · refine .ite (.fail (by simp)) (.bind (callAny_orderly h _ _ _) fun e => ?_)
        extract_lets result
        split
        · exact .bind (store_neutral _ _).orderly fun _ => .pure _
        · exact .pure _

theorem follow_orderly (h : ev.Orderly D) (t : Target) (step : Step) :
    Eval.Orderly D (ev.follow t step) := by
  cases step with
  | property name pos =>
      exact .bind (.ofPart (t.value.property_ne_terminated name)) fun _ => .pure _
  | method name args pos => exact .bind (callMethod_orderly h _ _ _ _) fun _ => .pure _
  | index idx pos => exact .bind (.ofPart (t.value.index_ne_terminated idx)) fun _ => .pure _

theorem walk_orderly (h : ev.Orderly D) (steps : List (Step × Bool)) (t : Target) :
    Eval.Orderly D (ev.walk steps t) := by
  induction steps generalizing t with
  | nil => exact .pure _
  | cons s rest ih => exact .ite (.pure _) (.bind (follow_orderly h _ _) fun _ => ih _)

theorem chain_orderly (h : ev.Orderly D) (root : Expr) (links : List Link) :
    Eval.Orderly D (ev.chain root links) :=
  .bind (prepared_orderly h links) fun _ => .bind (targetOf_orderly h root) fun _ =>
    walk_orderly h _ _

/-! ### Assignments -/

theorem combine_orderly (h : ev.Orderly D) (op : Option Operator) (old v : Value) (pos : Position) :
    Eval.Orderly D (ev.combine op old v pos) := by
  unfold combine
  split
  · exact .pure _
  · split
    · exact .pure _
    · exact .pure _
    · split
      · exact .ofAnswer _ _
      · exact .bind (callAny_orderly h _ _ _) fun _ => .pure _

theorem needVariable_orderly (t : Target) : Eval.Orderly D (needVariable t) := by
  unfold needVariable
  split
  · exact .fail (by simp)
  · exact .pure _

theorem assignTo_orderly (h : ev.Orderly D) (t : Target) (op : Option Operator) (v : Value)
    (pos : Position) : Eval.Orderly D (ev.assignTo t op v pos) := by
  refine .bind (needVariable_orderly t) fun _ => .bind (combine_orderly h _ _ _ _) fun v => ?_
  split
  · exact .bind (.checkSize _ _) fun _ => (store_neutral _ _).orderly
  · exact (store_neutral _ _).orderly

theorem assignLast_orderly (h : ev.Orderly D) (t : Target) (step : Step) (op : Option Operator)
    (v : Value) (pos : Position) : Eval.Orderly D (ev.assignLast t step op v pos) := by
  unfold assignLast
  split
  · split
    · refine .bind (needVariable_orderly t) fun _ => .bind (combine_orderly h _ _ _ _) fun v => ?_
      exact .bind (.checkSize _ _) fun _ => (store_neutral _ _).orderly
    · exact .fail (by simp)
  · refine .bind (.ofPart (t.value.index_ne_terminated _)) fun x => ?_
    obtain ⟨key, old⟩ := x
    cases key with
    | some k =>
      refine .bind (needVariable_orderly t) fun _ => .bind (combine_orderly h _ _ _ _) fun v => ?_
      exact .bind (.checkSize _ _) fun _ => (store_neutral _ _).orderly
    | none => exact .fail (by simp)
  · exact .fail (by simp)

theorem walkAndAssign_orderly (h : ev.Orderly D) (op : Option Operator) (v : Value) (pos : Position)
    (steps : List (Step × Bool)) (t : Target) :
    Eval.Orderly D (ev.walkAndAssign op v pos steps t) := by
  fun_induction ev.walkAndAssign op v pos steps t with
  | case1 t => exact assignTo_orderly h _ _ _ _
  | case2 t step _ => exact assignLast_orderly h _ _ _ _ _
  | case3 => exact .pure _
  | case4 t step optional rest _ _ ih => exact .bind (follow_orderly h _ _) ih

theorem assign_orderly (h : ev.Orderly D) (op : Option Operator) (target : Expr) (v : Value)
    (pos : Position) : Eval.Orderly D (ev.assign op target v pos) := by
  unfold assign
  split
  · refine .bind (prepared_orderly h _) fun _ => .bind (targetOf_orderly h _) fun _ => ?_
    exact walkAndAssign_orderly h _ _ _ _ _
  · exact .bind (targetOf_orderly h _) fun _ => assignTo_orderly h _ _ _ _

end Evaluator

end FilterScript.Script
