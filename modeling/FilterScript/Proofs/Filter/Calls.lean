/-
What calls of primitives make of a filter.

A sequence of calls is accepted if each of them comes to a command, and `Performs` says where it may
lead: the commands are carried out one after the other, and their requests are answered with anything.
The calls that build a filter may stand in it in every order, and all other primitives between them,
`render` and `frame` as well; these leave the filter as it is.  So the filter is run by the edits of the
calls, and what holds of edits field by field holds of calls.
-/
import FilterScript.Proofs.Filter.Build
import FilterScript.Proofs.Script.Reading

namespace FilterScript

open Script
open FilterScript.Filter (Field Effect)

/-! ### Sequences of calls -/

/-- A run makes some calls one after the other, and each of them has an answer. -/
inductive Performs (limit : Nat) : Context → List PrimitiveCall → Context → Prop where
  | nil (c : Context) : Performs limit c [] c
  | cons {c c₁ c' : Context} {call : PrimitiveCall} {calls : List PrimitiveCall} {command : Command}
      {xs : List Exchange} {v : Value} (hcommand : call.command? limit = some command)
      (hdone : ((Primitive.perform command).run.run c).Goes xs (.done (.ok (.ok v), c₁)))
      (hrest : Performs limit c₁ calls c') : Performs limit c (call :: calls) c'

/-- A run may ask for anything, and it may die. -/
def Protocol.anything : Protocol Unit where
  Allows _ _ := True
  after _ _ _ := ()
  MayStop _ := True

section Steps

variable {command : Command} {c c' : Context} {xs : List Exchange} {result : Primitive.Result}

theorem filter_of_edit {e : Filter.Edit} {u : Unit}
    (h : ((Action.edit e).run.run c).Goes xs (.done (.ok u, c'))) : c'.filter = c.filter.edit e := by
  cases h.of_done.2
  rfl

/-- **A command makes its change of the filter and no other.** -/
theorem filter_of_perform
    (h : ((Primitive.perform command).run.run c).Goes xs (.done (.ok result, c'))) :
    c'.filter = command.edit?.elim c.filter c.filter.edit := by
  have hall (r : Request) : Protocol.anything.Allows () r := trivial
  cases hedit : command.edit? with
  | none =>
      refine Action.Keeps.of_goes (A := fun c' => c'.filter = c.filter)
        (Action.perform_keeps hall ?_ hedit fun _ => trivial) rfl h
      exact fun _ _ _ _ hA => hA
  | some e =>
      cases command <;> cases hedit
      · obtain ⟨u, hchange, -⟩ := Action.goes_map_done h
        exact filter_of_edit hchange
      · obtain ⟨ys, zs, u, c₁, -, hreset, hpost⟩ := Action.goes_bind_done h
        exact Action.Keeps.of_goes (A := fun c' => c'.filter = c.filter.edit .reset)
          (.bind (Action.post_keeps hall _) fun _ => .pure _) (filter_of_edit hreset) hpost

/-- A command that changes the filter can be carried out. -/
theorem exists_perform (h : command.edit?.isSome) (c : Context) :
    ∃ xs v c', ((Primitive.perform command).run.run c).Goes xs (.done (.ok (.ok v), c')) := by
  cases command <;> cases h
  · exact ⟨[], .unit, _, .stay _⟩
  · exact ⟨[⟨.isCancelled, false⟩, ⟨.post .clear, true⟩], .unit, _, .ask (.ask (.stay _))⟩

/-- So can the two commands that wait for a frame. -/
theorem exists_perform_frame (c : Context) :
    ∃ xs v c', ((Primitive.perform .frame).run.run c).Goes xs (.done (.ok (.ok v), c')) :=
  ⟨[⟨.isCancelled, false⟩, ⟨.suspend, true⟩, ⟨.await, some .frame⟩], .unit, _,
    .ask (.ask (.ask (.stay _)))⟩

theorem exists_perform_render (c : Context) :
    ∃ xs v c', ((Primitive.perform .render).run.run c).Goes xs (.done (.ok (.ok v), c')) :=
  ⟨[⟨.isCancelled, false⟩, ⟨.post (.render c.filter), true⟩, ⟨.isCancelled, false⟩,
    ⟨.suspend, true⟩, ⟨.await, some .frame⟩], .unit, _, .ask (.ask (.ask (.ask (.ask (.stay _)))))⟩

end Steps

section Runs

variable {limit : Nat} {c c' : Context} {calls : List PrimitiveCall}

/-- **The filter is run by the changes that the calls make.** -/
theorem Performs.filter_eq (h : Performs limit c calls c') :
    c'.filter = (calls.filterMap (·.edit? limit)).foldl Filter.edit c.filter := by
  induction h with
  | nil => rfl
  | @cons _ _ _ call _ command _ _ hcommand hdone _ ih =>
      rw [ih, filter_of_perform hdone, List.filterMap_cons, PrimitiveCall.edit?_of_command? hcommand]
      cases command.edit? <;> rfl

/-- Calls that build a filter can be made one after the other, wherever a run stands. -/
theorem exists_performs (h : ∀ call ∈ calls, ∃ e, Builds call.name call.args e) (c : Context) :
    ∃ c', Performs limit c calls c' := by
  induction calls generalizing c with
  | nil => exact ⟨c, .nil c⟩
  | cons call rest ih =>
      obtain ⟨⟨e, he⟩, hrest⟩ := List.forall_mem_cons.mp h
      obtain ⟨command, hselect, hedit⟩ := Primitive.select_of_builds limit he
      obtain ⟨xs, v, c₁, hdone⟩ := exists_perform (by rw [hedit]; rfl) c
      obtain ⟨c', hperforms⟩ := ih hrest c₁
      exact ⟨c', .cons (PrimitiveCall.command?_eq_some_iff.mpr hselect) hdone hperforms⟩

/-- A call that comes to a change of the filter. -/
theorem performs_edit_iff {call : PrimitiveCall} {e : Filter.Edit}
    (h : call.command? limit = some (.edit e)) : Performs limit c (call :: calls) c' ↔
      Performs limit { c with filter := c.filter.edit e } calls c' := by
  constructor
  · intro hperforms
    cases hperforms with
    | cons hcommand hdone hrest =>
        cases h.symm.trans hcommand
        cases hdone.of_done.2
        exact hrest
  · exact .cons h (.stay _)

/-- A call with a checked argument is made only if the argument is accepted. -/
theorem Performs.checked {α : Type} {name : String} {args : List Value} {a : Argument.Checked α}
    {f : α → Primitive.Decision}
    (hselect : Primitive.select limit name args = some (Primitive.checked a f))
    (h : Performs limit c (⟨name, args⟩ :: calls) c') :
    ∃ x, a = .ok x ∧ ∃ command, f x = .ok command := by
  cases h with
  | cons hcommand _ _ =>
      have hchecked := hselect.symm.trans (PrimitiveCall.command?_eq_some_iff.mp hcommand)
      obtain ⟨x, hx, hf⟩ := Primitive.checked_ok (Option.some.inj hchecked)
      exact ⟨x, hx, _, hf⟩

/-- **To transform is to rotate, to scale and to translate**, and it is accepted alike. -/
theorem performs_transform_iff {r s t : Value} :
    Performs limit c [⟨"transform", [r, s, t]⟩] c' ↔
      Performs limit c [⟨"rotate", [r]⟩, ⟨"scale", [s]⟩, ⟨"translate", [t]⟩] c' := by
  have accepted {name : String} {args : List Value} {e : Filter.Edit}
      (h : Primitive.select limit name args = some (.ok (.edit e))) :
      PrimitiveCall.command? limit ⟨name, args⟩ = some (.edit e) :=
    PrimitiveCall.command?_eq_some_iff.mpr h
  -- Where the three arguments are accepted, both sides change the filter in the same way.
  have hboth {x : Single} {p q : Point} (hr : Argument.finite r "transform" = .ok x)
      (hs : Argument.scale s = .ok p) (ht : Argument.point t "transform" = .ok q) :
      Performs limit c [⟨"transform", [r, s, t]⟩] c' ↔
        Performs limit c [⟨"rotate", [r]⟩, ⟨"scale", [s]⟩, ⟨"translate", [t]⟩] c' := by
    have htransform : Primitive.select limit "transform" [r, s, t] =
        some (.ok (.edit (.transform x p q))) :=
      Primitive.select_of_checked (Primitive.select_of_checked
        (Primitive.select_of_checked rfl hr rfl) hs rfl) ht rfl
    have hrotate : Primitive.select limit "rotate" [r] = some (.ok (.edit (.rotate x))) :=
      Primitive.select_of_checked rfl (Argument.finite_alike hr "rotate") rfl
    have hscale : Primitive.select limit "scale" [s] = some (.ok (.edit (.scale p))) :=
      Primitive.select_of_checked rfl hs rfl
    have htranslate : Primitive.select limit "translate" [t] = some (.ok (.edit (.translate q))) :=
      Primitive.select_of_checked rfl (Argument.point_alike ht "translate") rfl
    rw [performs_edit_iff (accepted htransform), performs_edit_iff (accepted hrotate),
      performs_edit_iff (accepted hscale), performs_edit_iff (accepted htranslate)]
    exact Iff.rfl
  constructor
  · intro h
    obtain ⟨x, hr, _, h₁⟩ := h.checked rfl
    obtain ⟨p, hs, h₂⟩ := Primitive.checked_ok h₁
    obtain ⟨q, ht, -⟩ := Primitive.checked_ok h₂
    exact (hboth hr hs ht).mp h
  · intro h
    have hrest := h
    obtain ⟨x, hr, -⟩ := hrest.checked rfl
    rw [performs_edit_iff (accepted (Primitive.select_of_checked rfl hr rfl))] at hrest
    obtain ⟨p, hs, -⟩ := hrest.checked rfl
    rw [performs_edit_iff (accepted (Primitive.select_of_checked rfl hs rfl))] at hrest
    obtain ⟨q, ht, -⟩ := hrest.checked rfl
    exact (hboth (Argument.finite_alike hr _) hs (Argument.point_alike ht _)).mpr h

/-- The changes that address a field are those of the calls that address it. -/
theorem filterMap_edit?_filter (limit : Nat) (calls : List PrimitiveCall) (x : Field) :
    (calls.filter (·.addresses limit x)).filterMap (·.edit? limit) =
      (calls.filterMap (·.edit? limit)).filter (·.addresses x) := by
  rw [List.filterMap_filter, List.filter_filterMap]
  congr 1
  funext call
  unfold PrimitiveCall.addresses
  cases call.edit? limit with
  | none => rfl
  | some e => rw [Option.any_some, Option.filter_some]

/-- A field depends on the calls that address it only. -/
theorem Performs.content_congr {calls₂ : List PrimitiveCall} {d d' : Context} {x : Field}
    (h : Performs limit c calls c') (h₂ : Performs limit d calls₂ d')
    (hstart : c.filter.content x = d.filter.content x)
    (hcalls : calls.filter (·.addresses limit x) = calls₂.filter (·.addresses limit x)) :
    c'.filter.content x = d'.filter.content x := by
  rw [h.filter_eq, h₂.filter_eq]
  refine Filter.content_congr ?_ hstart
  rw [← filterMap_edit?_filter, ← filterMap_edit?_filter, hcalls]

/-- A call of a primitive that a script makes, and that has an answer, is performed. -/
theorem performs_of_callAny {ev : Evaluator} {name : String} {args : List Value} {pos : Position}
    {m m' : Machine} {xs : List Exchange} {e : Library.Effect} {d : Primitive.Decision}
    (hselect : Primitive.select m.limits.items name args = some d)
    (h : ((ev.callAny name args pos).run.run m).Goes xs (.done (.ok e, m'))) :
    Performs m.limits.items m.context [⟨name, args⟩] m'.context := by
  rw [Evaluator.callAny_of_select hselect] at h
  cases d with
  | error refusal =>
      rw [Evaluator.callOutside_of_refused (Primitive.refusal?_of_select hselect)] at h
      cases h.of_done.2
  | ok command =>
      exact .cons (PrimitiveCall.command?_eq_some_iff.mpr hselect)
        (goes_perform_of_call hselect h) (.nil _)

end Runs

/-! ### The laws -/

/-- What some calls do to a field. -/
def PrimitiveCall.effects (limit : Nat) (calls : List PrimitiveCall) (x : Field) :
    List (Effect x.Content) :=
  (calls.filterMap (·.edit? limit)).map (·.effect x)

/-- How calls act on a filter where arrays hold at most `limit` values. -/
structure FieldByField (limit : Nat) : Prop where
  /-- The calls that change a filter are those that build it. -/
  builds : ∀ call e, PrimitiveCall.edit? limit call = some e ↔ Builds call.name call.args e
  /-- They can be made in every order, wherever a run stands. -/
  accepted : ∀ calls c, (∀ call ∈ calls, ∃ e, Builds call.name call.args e) →
    ∃ c', Performs limit c calls c'
  /-- From the default filter the fields are what the calls make of them, each on its own. -/
  made : ∀ calls c c', c.filter = .initial → Performs limit c calls c' →
    c'.filter.IsMadeBy (PrimitiveCall.effects limit calls)
  /-- A field depends on the calls that address it only. -/
  addressed : ∀ x calls₁ calls₂ c₁ c₂ c₁' c₂',
    Performs limit c₁ calls₁ c₁' → Performs limit c₂ calls₂ c₂' →
    c₁.filter.content x = c₂.filter.content x →
    calls₁.filter (·.addresses limit x) = calls₂.filter (·.addresses limit x) →
      c₁'.filter.content x = c₂'.filter.content x
  /-- So the filter is the same however calls on different fields are interleaved. -/
  interleaved : ∀ calls₁ calls₂ c₁ c₂ c₁' c₂',
    Performs limit c₁ calls₁ c₁' → Performs limit c₂ calls₂ c₂' → c₁.filter = c₂.filter →
    (∀ x, calls₁.filter (·.addresses limit x) = calls₂.filter (·.addresses limit x)) →
      c₁'.filter = c₂'.filter
  /-- To transform is to rotate, to scale and to translate. -/
  transform : ∀ r s t c c', Performs limit c [⟨"transform", [r, s, t]⟩] c' ↔
    Performs limit c [⟨"rotate", [r]⟩, ⟨"scale", [s]⟩, ⟨"translate", [t]⟩] c'
  /-- All other calls change no field. -/
  others : ∀ call c c', (∀ e, ¬ Builds call.name call.args e) → Performs limit c [call] c' →
    c'.filter = c.filter
  /-- Those that show the filter and wait are among them, and they can be made. -/
  shown : ∀ name, name = "render" ∨ name = "frame" →
    (∀ e, ¬ Builds name [] e) ∧ ∀ c, ∃ c', Performs limit c [⟨name, []⟩] c'
  /-- Whenever a script calls a primitive and has an answer, the call is made in this sense. -/
  called : ∀ (ev : Evaluator) name args pos m xs e m' d,
    Primitive.select m.limits.items name args = some d → m.limits.items = limit →
    ((ev.callAny name args pos).run.run m).Goes xs (.done (.ok e, m')) →
      Performs limit m.context [⟨name, args⟩] m'.context

/-- **Calls act on a filter field by field.** -/
theorem field_by_field (limit : Nat) : FieldByField limit where
  builds _ _ := PrimitiveCall.edit?_eq_some_iff
  accepted _ c h := exists_performs h c
  made calls c c' hinitial h := by
    rw [h.filter_eq, hinitial]
    exact Filter.isMadeBy_edits _
  addressed _ _ _ _ _ _ _ := Performs.content_congr
  interleaved _ _ _ _ _ _ h₁ h₂ hstart hcalls :=
    Filter.eq_of_content fun x => h₁.content_congr h₂ (by rw [hstart]) (hcalls x)
  transform _ _ _ _ _ := performs_transform_iff
  others call c c' hbuilds h := by
    have hnone : call.edit? limit = none := Option.eq_none_iff_forall_ne_some.mpr fun e he =>
      hbuilds e (PrimitiveCall.edit?_eq_some_iff.mp he)
    rw [h.filter_eq, List.filterMap_cons, hnone]
    rfl
  shown := by
    have hother {name : String} {command : Command}
        (hcommand : PrimitiveCall.command? limit ⟨name, []⟩ = some command)
        (hedit : command.edit? = none) (hperform : ∀ c, ∃ xs v c',
          ((Primitive.perform command).run.run c).Goes xs (.done (.ok (.ok v), c'))) :
        (∀ e, ¬ Builds name [] e) ∧ ∀ c, ∃ c', Performs limit c [⟨name, []⟩] c' := by
      refine ⟨fun e he => ?_, fun c => ?_⟩
      · have hnone := (PrimitiveCall.edit?_of_command? hcommand).trans hedit
        cases hnone.symm.trans (PrimitiveCall.edit?_eq_some_iff.mpr he)
      · obtain ⟨xs, v, c', h⟩ := hperform c
        exact ⟨c', .cons hcommand h (.nil c')⟩
    rintro name (rfl | rfl)
    · exact hother rfl rfl exists_perform_render
    · exact hother rfl rfl exists_perform_frame
  called ev name args pos m xs e m' d hselect hlimit h := by
    subst hlimit
    exact performs_of_callAny hselect h

end FilterScript
