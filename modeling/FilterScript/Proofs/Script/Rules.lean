/-
Every script keeps to every discipline.

The rules of evaluation refer to one another through an evaluator, so their
orderliness is proved for any orderly evaluator, and then of the evaluators that
`ofDepth` ties together by induction on the depth.  What is caught here, by a round
of a loop or by a handler, is either a jump, which leaves the run free, or is thrown
again as it was: no script can catch the fault of a replaced run.
-/
import FilterScript.Proofs.Script.Chain
import FilterScript.Script.Evaluator

namespace FilterScript.Script

open Eval

namespace Evaluator

variable {σ : Type} {D : Discipline σ} {ev : Evaluator}

/-! ### Expressions -/

theorem textOf_orderly (h : ev.Orderly D) (done : String) (parts : List Expr) :
    Eval.Orderly D (ev.textOf done parts) := by
  induction parts generalizing done with
  | nil => exact .pure _
  | cons e es ih => exact .bind (h.expr e) fun _ => .bind (.checkSize _ _) fun _ => ih _

theorem itemsOf_orderly (h : ev.Orderly D) (size : Value.Size) (items : List Expr) :
    Eval.Orderly D (ev.itemsOf size items) := by
  induction items generalizing size with
  | nil => exact .pure _
  | cons e es ih =>
      refine .bind (h.expr e) fun v => .get fun m => ?_
      split
      · exact .fail (by simp)
      · exact .bind (ih _) fun _ => .pure _

theorem membersOf_orderly (h : ev.Orderly D) (size : Value.Size) (members : List (String × Expr)) :
    Eval.Orderly D (ev.membersOf size members) := by
  induction members generalizing size with
  | nil => exact .pure _
  | cons member ms ih =>
      obtain ⟨name, e⟩ := member
      refine .bind (h.expr e) fun v => .get fun m => ?_
      split
      · exact .fail (by simp)
      · exact .bind (ih _) fun _ => .pure _

theorem shared_orderly (names : List (String × Position)) : Eval.Orderly D (shared names) := by
  induction names with
  | nil => exact .pure _
  | cons x rest ih =>
      obtain ⟨name, pos⟩ := x
      refine .bind (Neutral.find? name).orderly fun n => ?_
      split
      · exact .bind (Neutral.share _).orderly fun _ => .bind ih fun _ => .pure _
      · refine .bind (Neutral.outside? name).orderly fun v => ?_
        split
        · exact .bind (.pure _) fun _ => .bind ih fun _ => .pure _
        · exact .bind (.fail (by simp)) fun _ => .bind ih fun _ => .pure _

theorem callWith_orderly (h : ev.Orderly D) (name : String) (args : List Value) (pos : Position) :
    Eval.Orderly D (ev.callWith name args pos) := by
  refine .bind (function?_orderly _ _) fun f => ?_
  split
  · exact callAndThrow_orderly h _ _ _ _
  · exact .bind (callAny_orderly h _ _ _) fun _ => .pure _

theorem callOnName_orderly (h : ev.Orderly D) (name x : String) (xpos : Position) (args : List Expr)
    (pos : Position) : Eval.Orderly D (ev.callOnName name x xpos args pos) := by
  refine .bind (.mapM h.expr _) fun vs => .bind (.tick _) fun _ => ?_
  refine .bind (targetOfName_orderly _ _) fun t => .bind (function?_orderly _ _) fun f => ?_
  split
  · exact callAndThrow_orderly h _ _ _ _
  · refine .bind (callAny_orderly h _ _ _) fun e => ?_
    extract_lets result
    split
    · exact .bind (store_neutral _ _).orderly fun _ => .pure _
    · exact .pure _

theorem callRule_orderly (h : ev.Orderly D) (name : String) (args : List Expr) (pos : Position) :
    Eval.Orderly D (ev.callRule name args pos) := by
  unfold callRule
  split
  · refine .bind (h.expr _) fun v => ?_
    split
    · exact runText_orderly h _ _
    · exact .fail (by simp)
  · exact callOnName_orderly h _ _ _ _ _
  · exact .bind (.mapM h.expr _) fun _ => callWith_orderly h _ _ _

theorem operate_orderly (h : ev.Orderly D) (op : Operator) (x y : Value) (pos : Position) :
    Eval.Orderly D (ev.operate op x y pos) := by
  unfold operate
  split
  · refine .bind (.ofAnswer _ _) fun v => ?_
    split
    · exact .bind (.checkSize _ _) fun _ => .pure _
    · exact .pure _
  · exact .bind (callAny_orderly h _ _ _) fun _ => .pure _

theorem exprRule_orderly (h : ev.Orderly D) (e : Expr) : Eval.Orderly D (ev.exprRule e) := by
  cases e with
  | constant v _ => exact .pure _
  | name x pos => exact .lookup _ _
  | this pos => exact thisValue_orderly _
  | text parts _ => exact .bind (textOf_orderly h _ _) fun _ => .pure _
  | array items _ => exact .bind (itemsOf_orderly h _ _) fun _ => .pure _
  | map members _ => exact .bind (membersOf_orderly h _ _) fun _ => .pure _
  | closure f names _ => exact .bind (shared_orderly _) fun _ => .pure _
  | call f args pos => exact callRule_orderly h _ _ _
  | sign s e pos =>
      refine .bind (h.expr e) fun v => ?_
      split
      · exact .ofAnswer _ _
      · exact .fail (by simp)
  | operation op left right pos =>
      exact .bind (h.expr _) fun _ => .bind (h.expr _) fun _ => operate_orderly h _ _ _ _
  | contains container item pos =>
      refine .bind (h.expr _) fun _ => .bind (h.expr _) fun _ => ?_
      exact .bind (callAny_orderly h _ _ _) fun _ => .pure _
  | junction j left right _ =>
      refine .bind (h.expr left) fun x => ?_
      cases j with
      | and =>
          refine .bind (needBool_orderly _ _) fun b => .ite ?_ (.pure _)
          exact .bind (condition_orderly h _) fun _ => .pure _
      | or =>
          refine .bind (needBool_orderly _ _) fun b => .ite (.pure _) ?_
          exact .bind (condition_orderly h _) fun _ => .pure _
      | otherwise =>
          dsimp only
          split
          · exact h.expr _
          · exact .pure _
  | chain root links => exact chain_orderly h _ _
  | block body _ => exact block_orderly h _

/-! ### Loops -/

/-- A round that is neither ended nor left throws again what interrupted it. -/
theorem round_orderly (h : ev.Orderly D) (body : List Stmt) : Eval.Orderly D (ev.round body) := by
  refine attempt_orderly (block_orderly h body) fun r => ?_
  split
  · exact .pure (q := fun _ => .free) _
  · exact .pure (q := fun _ => .free) _
  · exact .pure (q := fun _ => .free) _
  · exact .throw _

/-- The parts of a loop stand behind an operation that is only counted where the
body is empty. -/
theorem counted_orderly {α : Type} {b : Bool} {pos : Position} {rest : PUnit → Eval α}
    (hrest : ∀ x, Eval.Orderly D (rest x)) :
    Eval.Orderly D (if b then tick pos >>= rest else rest ()) :=
  .ite (.bind (.tick _) hrest) (hrest _)

theorem loopRule_orderly (h : ev.Orderly D) (s : Stmt) : Eval.Orderly D (ev.loopRule s) := by
  unfold loopRule
  split
  next c body inner pos =>
    extract_lets rest turn
    have hrest : ∀ u, Eval.Orderly D (rest u) := by
      intro u
      refine .bind (round_orderly h body) fun v => ?_
      split
      · exact .pure _
      · exact h.loop _
    have hturn : ∀ more, Eval.Orderly D (turn more) := fun more =>
      .ite (.pure _) (counted_orderly hrest)
    split
    · exact .bind (condition_orderly h _) hturn
    · exact .bind (.pure _) hturn
  next body c expected inner pos =>
    refine counted_orderly fun _ => .bind (round_orderly h body) fun v => ?_
    split
    · exact .pure _
    · exact .bind (condition_orderly h c) fun _ => .ite (h.loop _) (.pure _)
  · exact .pure _

theorem rounds_orderly (h : ev.Orderly D) (counted : Bool) (body : List Stmt) (i : Nat)
    (xs : List Value) : Eval.Orderly D (ev.rounds counted body i xs) := by
  induction xs generalizing i with
  | nil => exact .pure _
  | cons x xs ih =>
      unfold rounds
      extract_lets turn
      have hturn : ∀ u, Eval.Orderly D (turn u) := by
        intro u
        refine .bind (Neutral.setVariable _ _).orderly fun _ => ?_
        refine .bind (round_orderly h body) fun v => ?_
        split
        · exact .pure _
        · exact ih _
      exact .ite (.bind (Neutral.setVariable _ _).orderly hturn) (hturn ())

theorem roundsOf_orderly (h : ev.Orderly D) (counted : Bool) (body : List Stmt) (left i : Nat)
    (x : Int) : Eval.Orderly D (ev.roundsOf counted body left i x) := by
  induction left generalizing i x with
  | zero => exact .pure _
  | succ left ih =>
      unfold roundsOf
      extract_lets turn
      have hturn : ∀ u, Eval.Orderly D (turn u) := by
        intro u
        refine .bind (Neutral.setVariable _ _).orderly fun _ => ?_
        refine .bind (round_orderly h body) fun v => ?_
        split
        · exact .pure _
        · exact ih _ _
      exact .ite (.bind (Neutral.setVariable _ _).orderly hturn) (hturn ())

theorem iterate_orderly (h : ev.Orderly D) (name : String) (counter : Option String) (source : Expr)
    (body : List Stmt) : Eval.Orderly D (ev.iterate name counter source body) := by
  refine .bind (h.expr source) fun v => .ite (.fail (by simp)) (.ite (.pure _) (.enclosed ?_))
  extract_lets counted turns
  have hturns : ∀ u, Eval.Orderly D (turns u) := by
    intro u
    refine .bind (Neutral.declare _ _ _).orderly fun _ => ?_
    split
    · exact rounds_orderly h _ _ _ _
    · exact rounds_orderly h _ _ _ _
    · exact roundsOf_orderly h _ _ _ _ _
    · exact .pure _
  split
  · exact .bind (Neutral.declare _ _ _).orderly hturns
  · exact hturns ()

/-! ### Choices -/

theorem firstCase_orderly (h : ev.Orderly D) (test : Value → Bool) (cases : List Case) :
    Eval.Orderly D (ev.firstCase test cases) := by
  induction cases with
  | nil => exact .pure _
  | cons c rest ih =>
      obtain ⟨values, condition, body⟩ := c
      refine .ite ?_ ih
      extract_lets chosen
      have hchosen : ∀ b, Eval.Orderly D (chosen b) := fun b => .ite (.pure _) ih
      split
      · exact .bind (condition_orderly h _) hchosen
      · exact .bind (.pure _) hchosen

theorem choose_orderly (h : ev.Orderly D) (subject : Expr) (cases : List Case)
    (otherwise : Option Expr) : Eval.Orderly D (ev.choose subject cases otherwise) := by
  refine .bind (h.expr subject) fun v => ?_
  extract_lets selected
  have hselected : ∀ e, Eval.Orderly D (selected e) := by
    intro e
    simp only [selected]
    split
    · exact h.expr _
    · exact h.expr _
    · exact .pure _
  split
  · exact .bind (firstCase_orderly h _ _) hselected
  · exact .bind (firstCase_orderly h _ _) hselected

/-! ### Errors -/

theorem ne_terminated_of_not_isSystem {f : Fault} (hf : ¬ f.isSystem = true) :
    f ≠ .terminated := by
  rintro rfl
  exact hf rfl

/-- A handler runs only for errors that leave the run free, and what it throws
instead of them does so too. -/
theorem attemptRule_orderly (h : ev.Orderly D) (body : List Stmt) (name : Option String)
    (handler : List Stmt) : Eval.Orderly D (ev.attemptRule body name handler) := by
  refine attempt_orderly (block_orderly h body) fun r => ?_
  split
  · exact .pure (q := fun _ => .free) _
  next e =>
    split
    · exact Leads.throw (.error e)
    next hsystem =>
      have hfault := ne_terminated_of_not_isSystem hsystem
      have hplace : placeAfter (.error (.error e) : Except Interrupt Value) = .free :=
        Interrupt.place_error hfault
      rw [hplace]
      refine attempt_orderly (.enclosed ?_) fun r => ?_
      · extract_lets handled
        have hhandled : ∀ u, Eval.Orderly D (handled u) := fun u => block_orderly h handler
        split
        · exact .bind (Neutral.declare _ _ _).orderly hhandled
        · exact hhandled ()
      · split
        · exact .pure (q := fun _ => .free) _
        next e' =>
          split
          next hunit =>
            have hmoved : (e.moved e'.position).fault = e.fault := by cases e <;> rfl
            have hplace' : placeAfter (.error (.error e') : Except Interrupt Value) = .free := by
              refine Interrupt.place_error fun hterminated => ?_
              unfold isThrownUnit at hunit
              split at hunit
              · cases hterminated
              · cases hunit
            rw [hplace']
            exact Orderly.throw (Interrupt.place_error (by rw [hmoved]; exact hfault))
          · exact Leads.throw (.error e')
        · exact .throw _
  · exact .throw _

/-! ### Statements -/

theorem optional_orderly (h : ev.Orderly D) (e : Option Expr) : Eval.Orderly D (ev.optional e) := by
  cases e with
  | some e => exact h.expr e
  | none => exact .pure _

theorem stmtRule_orderly (h : ev.Orderly D) (s : Stmt) : Eval.Orderly D (ev.stmtRule s) := by
  refine .bind (.tick _) fun _ => ?_
  cases s with
  | empty _ => exact .pure _
  | expr e => exact .ite (exprRule_orderly h _) (h.expr _)
  | declare constant name value _ =>
      exact .bind (h.expr _) fun _ => .bind (Neutral.declare _ _ _).orderly fun _ => .pure _
  | assign op target value pos =>
      exact .bind (h.expr _) fun _ => .bind (assign_orderly h _ _ _ _) fun _ => .pure _
  | branch c yes no _ =>
      exact .bind (condition_orderly h _) fun _ => .ite (block_orderly h _) (block_orderly h _)
  | choice subject cases otherwise _ => exact choose_orderly h _ _ _
  | loop _ _ _ _ => exact h.loop _
  | loopUntil _ _ _ _ _ => exact h.loop _
  | iterate name counter source body _ _ => exact iterate_orderly h _ _ _ _
  | block body _ => exact block_orderly h _
  | attempt body name handler _ => exact attemptRule_orderly h _ _ _
  | leave value _ => exact .bind (optional_orderly h _) fun _ => .throw rfl
  | «continue» _ => exact .throw rfl
  | answer value _ => exact .bind (optional_orderly h _) fun _ => .throw rfl
  | throw value pos => exact .bind (optional_orderly h _) fun _ => .fail (by simp)

/-! ### The evaluator and the script -/

theorem endless_orderly {α : Type} : Eval.Orderly D (endless : Eval α) :=
  fun _ _ _ _ hu => .spin (D.mayStop _ _ hu)

/-- The evaluators of every depth are orderly. -/
theorem ofDepth_orderly (n : Nat) : (ofDepth n).Orderly D := by
  induction n with
  | zero => exact ⟨fun _ => endless_orderly, fun _ => endless_orderly, fun _ => endless_orderly⟩
  | succ n ih =>
      exact ⟨fun e => .bind (.tick _) fun _ => exprRule_orderly ih e,
        fun s => stmtRule_orderly ih s, fun s => loopRule_orderly ih s⟩

end Evaluator

/-- Where a program leaves the run that ended like this. -/
def Ending.place : Ending → Place
  | .completed => .free
  | .failed e => (Interrupt.error e).place

/-- **Every script keeps to every discipline.** -/
theorem Program.run_follows {σ : Type} (D : Discipline σ) (p : Program) (limits : Limits) {u : σ}
    {c : Context} (hu : D.Stands .free u c) :
    (p.run limits c).Follows D.protocol (fun v x => D.Stands x.1.place v x.2) u := by
  have hbody := Evaluator.stmts_orderly (D := D)
    (Evaluator.ofDepth_orderly Evaluator.runDepth) p.body
  refine Thread.Follows.bind (hbody c u _ rfl hu) ?_
  rintro v ⟨r, m⟩ hv
  cases r with
  | ok _ => exact .done hv
  | error i =>
      cases i with
      | error e => exact .done hv
      | leave _ => exact .done hv
      | «continue» => exact .done hv
      | answer _ => exact .done hv
      | exit => exact .done hv

end FilterScript.Script
