/-
What scripts make of a filter.

A primitive looks at its arguments before it acts, and a number that is not finite is
refused.  So every change that a script makes brings finite numbers, and a filter whose
own numbers are replaced by such numbers stays sound.  The transform is the exception:
its numbers are summed up and multiplied from call to call, and what comes of that is not
looked at.  `Sound` therefore says nothing of the transform.
-/
import FilterScript.Proofs.Filter.Build
import FilterScript.Proofs.Message
import FilterScript.Proofs.Script.Monitor

namespace FilterScript

/-! ### Changes -/

namespace Filter

/-- A change that brings finite numbers, and that asks for one repetition at least. -/
def Edit.IsSound : Edit → Prop
  | operation o => ∀ x ∈ o.singles, x.isFinite = true
  | alpha a => a.isFinite = true
  | defaultColor c => c.red.isFinite = true ∧ c.green.isFinite = true ∧ c.blue.isFinite = true
  | repetitions n => n ≠ 0
  | scale p => p.x.isFinite = true ∧ p.y.isFinite = true
  | rotate r => r.isFinite = true
  | translate p => p.x.isFinite = true ∧ p.y.isFinite = true
  | transform r s t => r.isFinite = true ∧ (s.x.isFinite = true ∧ s.y.isFinite = true) ∧
      t.x.isFinite = true ∧ t.y.isFinite = true
  | _ => True

end Filter

/-- What builds a filter brings finite numbers, for its arguments were checked. -/
theorem Builds.isSound {name : String} {args : List Script.Value} {e : Filter.Edit}
    (h : Builds name args e) : e.IsSound := by
  cases h with
  | @operation _ o h =>
      unfold Primitive.plainOperation? at h
      split at h <;> cases h <;> exact fun x hx => nomatch hx
  | rotateColor _ hv =>
      intro x hx
      rw [List.mem_singleton.mp hx]
      exact Argument.isFinite_of_finite hv
  | alpha h => exact Argument.isFinite_of_finite h
  | defaultColor h => exact Argument.isFinite_of_color h
  | repetitions _ hn => exact hn
  | scale h => exact Argument.isFinite_of_scale h
  | rotate h => exact Argument.isFinite_of_finite h
  | translate h => exact Argument.isFinite_of_point h
  | transform hu hv hw =>
      exact ⟨Argument.isFinite_of_finite hu, Argument.isFinite_of_scale hv,
        Argument.isFinite_of_point hw⟩
  | _ => trivial

namespace Primitive

open FilterScript.Filter (Edit)

/-- A decision that comes to no unsound change. -/
def Decision.IsSound (d : Decision) : Prop := ∀ e, d = .ok (.edit e) → e.IsSound

/-- **No call of a primitive comes to an unsound change.** -/
theorem select_sound {limit : Nat} {name : String} {args : List Script.Value} {d : Decision}
    (h : select limit name args = some d) : d.IsSound := by
  rintro e rfl
  exact (builds_of_select h rfl).isSound

end Primitive

namespace Filter

theorem Edit.IsMade.sound {e : Edit} (h : e.IsMade) : e.IsSound := by
  rcases h with rfl | ⟨limit, name, args, h⟩
  · trivial
  · exact Primitive.select_sound h e rfl

/-- A filter that repeats at least once and whose numbers beside the transform are finite. -/
structure Sound (f : Filter) : Prop where
  repetitions : f.repetitions ≠ 0
  alpha : f.alpha.isFinite = true
  operation : ∀ x ∈ f.operation.singles, x.isFinite = true
  red : f.defaultColor.red.isFinite = true
  green : f.defaultColor.green.isFinite = true
  blue : f.defaultColor.blue.isFinite = true

theorem sound_initial : initial.Sound where
  repetitions := by decide
  alpha := by decide +kernel
  operation x hx := nomatch hx
  red := by decide +kernel
  green := by decide +kernel
  blue := by decide +kernel

/-- **A sound change keeps a filter sound.** -/
theorem Sound.edit {f : Filter} {e : Edit} (h : f.Sound) (he : e.IsSound) : (f.edit e).Sound := by
  cases e with
  | operation o => exact { h with operation := he }
  | alpha a => exact { h with alpha := he }
  | defaultColor c => exact { h with red := he.1, green := he.2.1, blue := he.2.2 }
  | repetitions n => exact { h with repetitions := he }
  | reset => exact sound_initial
  | _ => exact { h with }

end Filter

end FilterScript
