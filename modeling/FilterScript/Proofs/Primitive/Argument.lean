/-
What the conversions of arguments let through.

A conversion is a chain of checks, and `bind_ok` takes it apart.  The numbers that come out of it are
finite, for a number that is not finite is refused by its first check.  The name of the primitive goes
into the texts of the refusals and nowhere else, so two primitives that take the same kind of argument
accept the same.
-/
import FilterScript.Primitive.Argument

namespace FilterScript.Argument

variable {v : Script.Value} {what : String}

theorem bind_ok {α β : Type} {c : Checked α} {f : α → Checked β} {b : β}
    (h : (c >>= f) = .ok b) : ∃ a, c = .ok a ∧ f a = .ok b := by
  cases c with
  | error e => cases h
  | ok a => exact ⟨a, rfl, h⟩

/-- A number that is let through is finite. -/
theorem isFinite_of_finite {x : Single} (h : finite v what = .ok x) : x.isFinite = true := by
  obtain ⟨y, -, hy⟩ := bind_ok h
  split at hy
  next hfinite =>
    cases hy
    exact hfinite
  · cases hy

theorem isFinite_of_point {p : Point} (h : point v what = .ok p) :
    p.x.isFinite = true ∧ p.y.isFinite = true := by
  unfold point at h
  split at h
  · obtain ⟨x, hx, h⟩ := bind_ok h
    obtain ⟨y, hy, h⟩ := bind_ok h
    cases h
    exact ⟨isFinite_of_finite hx, isFinite_of_finite hy⟩
  · cases h
  · cases h

theorem isFinite_of_scale {p : Point} (h : scale v = .ok p) :
    p.x.isFinite = true ∧ p.y.isFinite = true := by
  unfold scale at h
  split at h
  · exact isFinite_of_point h
  · obtain ⟨x, hx, h⟩ := bind_ok h
    cases h
    exact ⟨isFinite_of_finite hx, isFinite_of_finite hx⟩

theorem isFinite_of_color {c : Color} (h : color v what = .ok c) :
    c.red.isFinite = true ∧ c.green.isFinite = true ∧ c.blue.isFinite = true := by
  unfold color at h
  split at h
  · obtain ⟨r, hr, h⟩ := bind_ok h
    obtain ⟨g, hg, h⟩ := bind_ok h
    obtain ⟨b, hb, h⟩ := bind_ok h
    cases h
    exact ⟨isFinite_of_finite hr, isFinite_of_finite hg, isFinite_of_finite hb⟩
  · cases h
  · cases h

/-! ### The name of the primitive -/

theorem single_alike {x : Single} (h : single v what = .ok x) (other : String) :
    single v other = .ok x := by
  cases v <;> first | exact h | cases h

theorem finite_alike {x : Single} (h : finite v what = .ok x) (other : String) :
    finite v other = .ok x := by
  obtain ⟨y, hy, h⟩ := bind_ok h
  unfold finite
  rw [single_alike hy other]
  split at h
  next hfinite => exact (if_pos hfinite).trans h
  · cases h

theorem point_alike {p : Point} (h : point v what = .ok p) (other : String) :
    point v other = .ok p := by
  unfold point at h
  split at h
  · obtain ⟨x, hx, h⟩ := bind_ok h
    obtain ⟨y, hy, h⟩ := bind_ok h
    unfold point
    simp only [finite_alike hx other, finite_alike hy other]
    exact h
  · cases h
  · cases h

end FilterScript.Argument
