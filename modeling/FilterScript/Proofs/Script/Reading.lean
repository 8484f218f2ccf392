/-
What a call of a widget answers.

A widget call announces the widget if that is needed, and the last thing that it asks for is the value
that the host reported.  What it answers depends on the reply to this one request and on the arguments,
on nothing else: `Command.reading?` says how.  A reported value of another kind is as good as none, and
so is an option that is no longer offered.
-/
import FilterScript.Proofs.Filter.Build
import FilterScript.Proofs.Script.Refusal
import FilterScript.Proofs.Widget.Registry

namespace FilterScript

open Script

/-! ### Computations that are done -/

section Done

variable {xs : List Exchange}

/-- A request that was answered. -/
theorem Action.goes_request_done {q : Request} {c c' : Context} {x : q.Reply}
    (h : ((Action.request q).run.run c).Goes xs (.done (.ok x, c'))) : xs = [⟨q, x⟩] := by
  cases h with
  | ask h =>
      obtain ⟨rfl, he⟩ := h.of_done
      cases he
      rfl

/-- A look at the size of a value asks for nothing and changes nothing. -/
theorem Script.Eval.goes_checkSize {v : Value} {pos : Position} {m m' : Machine} {y : Unit}
    (h : ((checkSize v pos).run.run m).Goes xs (.done (.ok y, m'))) : xs = [] ∧ m' = m := by
  unfold checkSize at h
  rw [run_get] at h
  cases hexcess : excess? m.limits v.size <;> rw [hexcess] at h
  · obtain ⟨rfl, he⟩ := h.of_done
    cases he
    exact ⟨rfl, rfl⟩
  · cases h.of_done.2

end Done

/-! ### Widgets -/

/-- The widget that a command reads, and what it answers to the value that the host reported. -/
def Command.reading? : Command → Option (String × (Option Widget.Value → Value))
  | .checkbox name => some (name, fun
      | some (.checkbox b) => .bool b
      | _ => .bool false)
  | .radio name options => some (name, fun
      | some (.radio o) => if o ∈ options then .string o else .string (options.headD "")
      | _ => .string (options.headD ""))
  | .slider name _ _ _ initial => some (name, fun
      | some (.slider x) => .float x
      | _ => .float initial)
  | _ => none

/-- A registry that was made of one value holds that value. -/
theorem Action.value?_registryOf (name : String) (value : Option Widget.Value) :
    (registryOf name value).value? name = value := by
  cases value with
  | none => rfl
  | some v =>
      unfold registryOf
      rw [Widget.Registry.value?_update, if_pos rfl]

variable {xs : List Exchange} {context context' : Context} {name : String}

/-- A widget that is announced and then read. -/
theorem goes_widget {shape : Widget.Shape} {α : Type} {g : Option Widget.Value → α} {y : α}
    (h : ((do Action.declareWidget name shape
              return g (← Action.request (.widgetValue name)) : Action α).run.run context).Goes xs
      (.done (.ok y, context'))) :
    ∃ ys x, xs = ys ++ [⟨.widgetValue name, x⟩] ∧ y = g x := by
  obtain ⟨ys, zs, -, c₁, rfl, -, hread⟩ := Action.goes_bind_done h
  obtain ⟨x, hask, rfl⟩ := Action.goes_map_done hread
  cases Action.goes_request_done hask
  exact ⟨ys, x, rfl, rfl⟩

/-- The last request of a widget command that succeeds asks for the value, and the reply decides what
it answers. -/
theorem goes_perform {c : Command} {answer : Option Widget.Value → Value} {v : Value}
    (hc : c.reading? = some (name, answer))
    (h : ((Primitive.perform c).run.run context).Goes xs (.done (.ok (.ok v), context'))) :
    ∃ ys x, xs = ys ++ [⟨.widgetValue name, x⟩] ∧ v = answer x := by
  cases c <;> cases hc
  case checkbox =>
    obtain ⟨b, hb, he⟩ := Action.goes_map_done h
    cases he
    obtain ⟨ys, x, rfl, rfl⟩ := goes_widget hb
    refine ⟨ys, x, rfl, ?_⟩
    unfold Widget.Registry.checkbox
    rw [Action.value?_registryOf]
    match x with
    | none => rfl
    | some (.checkbox b) => rfl
    | some (.slider place) => rfl
    | some (.radio o) => rfl
  case radio options =>
    obtain ⟨ws, zs, -, c₁, rfl, -, hread⟩ := Action.goes_bind_done h
    obtain ⟨o, ho, he⟩ := Action.goes_map_done hread
    cases he
    obtain ⟨ys, x, rfl, rfl⟩ := goes_widget ho
    refine ⟨ws ++ ys, x, (List.append_assoc ..).symm, ?_⟩
    unfold Widget.Registry.radio
    rw [Action.value?_registryOf, List.headD_eq_head?_getD]
    match x with
    | none => rfl
    | some (.checkbox b) => rfl
    | some (.slider place) => rfl
    | some (.radio o) => by_cases ho : o ∈ options <;> simp [ho]
  case slider low high step initial =>
    obtain ⟨b, hb, he⟩ := Action.goes_map_done h
    cases he
    obtain ⟨ys, x, rfl, rfl⟩ := goes_widget hb
    refine ⟨ys, x, rfl, ?_⟩
    unfold Widget.Registry.slider
    rw [Action.value?_registryOf]
    match x with
    | none => rfl
    | some (.checkbox b) => rfl
    | some (.slider place) => rfl
    | some (.radio o) => rfl

variable {args : List Value} {pos : Position} {m m' : Machine} {e : Library.Effect}

/-- A call of a script that has an answer did what its command does, on the context of the machine. -/
theorem goes_perform_of_call {function : String} {c : Command}
    (hselect : Primitive.select m.limits.items function args = some (.ok c))
    (h : ((Evaluator.callOutside function args pos).run.run m).Goes xs (.done (.ok e, m'))) :
    ((Primitive.perform c).run.run m.context).Goes xs (.done (.ok (.ok e.result), m'.context)) := by
  unfold Evaluator.callOutside at h
  rw [Eval.run_get, hselect] at h
  obtain ⟨ys, zs, result, m₁, rfl, hact, hrest⟩ := Eval.goes_bind_done h
  cases result with
  | error refusal => cases hrest.of_done.2
  | ok v =>
  obtain ⟨zs₁, zs₂, u, m₂, rfl, hsize, hend⟩ := Eval.goes_bind_done hrest
  obtain ⟨rfl, rfl⟩ := Eval.goes_checkSize hsize
  obtain ⟨rfl, he⟩ := hend.of_done
  cases he
  rw [List.append_nil, List.append_nil]
  exact Eval.goes_act_done hact

/-- So a call that reads a widget answers what its command answers. -/
theorem goes_callOutside {function : String} {c : Command} {answer : Option Widget.Value → Value}
    (hselect : Primitive.select m.limits.items function args = some (.ok c))
    (hc : c.reading? = some (name, answer))
    (h : ((Evaluator.callOutside function args pos).run.run m).Goes xs (.done (.ok e, m'))) :
    ∃ ys x, xs = ys ++ [⟨.widgetValue name, x⟩] ∧ e.result = answer x :=
  goes_perform hc (goes_perform_of_call hselect h)

/-! ### Options -/

/-- A radio that is accepted offers something. -/
theorem options_ne_nil {limit : Nat} {function : String} {options : List String}
    (h : Primitive.select limit function args = some (.ok (.radio name options))) :
    options ≠ [] :=
  (Primitive.select_ok h).isSound

/-- A radio answers one of its options, whatever the host reported. -/
theorem radio_mem {options : List String} {answer : Option Widget.Value → Value}
    (hne : options ≠ []) (hc : (Command.radio name options).reading? = some (name, answer))
    (x : Option Widget.Value) : ∃ o ∈ options, answer x = .string o := by
  cases hc
  have hfirst : options.headD "" ∈ options := by
    cases options with
    | nil => exact absurd rfl hne
    | cons o rest => exact List.mem_cons_self
  match x with
  | none => exact ⟨_, hfirst, rfl⟩
  | some (.checkbox b) => exact ⟨_, hfirst, rfl⟩
  | some (.slider place) => exact ⟨_, hfirst, rfl⟩
  | some (.radio o) =>
      by_cases ho : o ∈ options
      · exact ⟨o, ho, if_pos ho⟩
      · exact ⟨_, hfirst, if_neg ho⟩

end FilterScript
