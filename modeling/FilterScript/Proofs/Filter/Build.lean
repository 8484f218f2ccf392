/-
Which calls come to which commands.

The calls that build a filter make one `Edit` each, and `Builds` is the list of them: the name, what the
arguments have to be, and the change.  It says no more and no less than `Primitive.select`, which goes
by the arguments first.  One walk through `select` says of every accepted call that it is on the list,
or that its command leaves the filter alone (`comes_of_select`), and all that is to be known of what is
accepted follows from that.  Reading the list back through `select` finds the commands.
-/
import FilterScript.Proofs.Filter.Field
import FilterScript.Proofs.Primitive.Select
import FilterScript.Proofs.Script.Command

namespace FilterScript

open Script

/-- A call of a primitive. -/
structure PrimitiveCall where
  name : String
  args : List Value

namespace PrimitiveCall

variable (limit : Nat) (call : PrimitiveCall)

/-- The command to which a call comes, if it is accepted. -/
def command? : Option Command :=
  match Primitive.select limit call.name call.args with
  | some (.ok command) => some command
  | _ => none

/-- The change of the filter that a call makes. -/
def edit? : Option Filter.Edit := (call.command? limit).bind Command.edit?

/-- Whether a call has to do with a field. -/
def addresses (x : Filter.Field) : Bool := (call.edit? limit).any (·.addresses x)

variable {limit call}

theorem command?_eq_some_iff {command : Command} : call.command? limit = some command ↔
    Primitive.select limit call.name call.args = some (.ok command) := by
  unfold command?
  split <;> simp_all

theorem edit?_of_command? {command : Command} (h : call.command? limit = some command) :
    call.edit? limit = command.edit? := by
  rw [edit?, h]
  rfl

end PrimitiveCall

/-! ### The calls that build a filter -/

/-- The calls that build a filter, with the changes that they make. -/
inductive Builds : String → List Value → Filter.Edit → Prop where
  | mask {name : String} {m : Mask} (h : Primitive.plainMask? name = some m) :
      Builds name [] (.mask m)
  | mod {v w : Value} {m n : UInt32} (hv : Argument.word v "mod" = .ok m)
      (hw : Argument.word w "mod" = .ok n) : Builds "mod" [v, w] (.mask (.mod m n))
  | rows {v w : Value} {m n : UInt32} (hv : Argument.word v "rows" = .ok m)
      (hw : Argument.word w "rows" = .ok n) : Builds "rows" [v, w] (.mask (.rows m n))
  | operation {name : String} {o : Operation} (h : Primitive.plainOperation? name = some o) :
      Builds name [] (.operation o)
  | rotateColor {axis : String} {a : ColorAxis} {v : Value} {t : Single}
      (haxis : ColorAxis.parse? axis = some a) (hv : Argument.finite v "rotateColor" = .ok t) :
      Builds "rotateColor" [.string axis, v] (.operation (.rotateColor a t))
  | alpha {v : Value} {a : Single} (h : Argument.finite v "alpha" = .ok a) :
      Builds "alpha" [v] (.alpha a)
  | defaultColor {v : Value} {c : Color} (h : Argument.color v "defaultColor" = .ok c) :
      Builds "defaultColor" [v] (.defaultColor c)
  | toggleWrap : Builds "wrap" [] .toggleWrap
  | wrap (b : Bool) : Builds "wrap" [.bool b] (.wrap b)
  | coordinates (b : Bool) : Builds "coordinates" [.bool b] (.coordinates b)
  | repetitions {v : Value} {n : UInt32} (h : Argument.word v "repeat" = .ok n) (hn : n ≠ 0) :
      Builds "repeat" [v] (.repetitions n)
  | scale {v : Value} {p : Point} (h : Argument.scale v = .ok p) : Builds "scale" [v] (.scale p)
  | rotate {v : Value} {r : Single} (h : Argument.finite v "rotate" = .ok r) :
      Builds "rotate" [v] (.rotate r)
  | translate {v : Value} {p : Point} (h : Argument.point v "translate" = .ok p) :
      Builds "translate" [v] (.translate p)
  | transform {u v w : Value} {r : Single} {s t : Point} (hu : Argument.finite u "transform" = .ok r)
      (hv : Argument.scale v = .ok s) (hw : Argument.point w "transform" = .ok t) :
      Builds "transform" [u, v, w] (.transform r s t)
  | identityTransform : Builds "identityTransform" [] .identityTransform
  | reset : Builds "reset" [] .reset
  | reboot : Builds "reboot" [] .reset

namespace Primitive

variable {limit : Nat} {name : String} {args : List Value} {v w : Value} {c : Command}
  {e : Filter.Edit}

/-- How a call comes to a command: it builds the filter, or it leaves the filter alone. -/
inductive Comes (limit : Nat) (name : String) (args : List Value) (c : Command) : Prop where
  | builds {e : Filter.Edit} (he : c.edit? = some e) (h : Builds name args e)
  | leaves (he : c.edit? = none) (h : Selects limit name args c)

/-- A decision that comes to one change if its argument is accepted. -/
theorem checked_edit {α : Type} {a : Argument.Checked α} {f : α → Filter.Edit}
    (h : (checked a fun x => edit (f x)) = .ok c) : ∃ x, a = .ok x ∧ c = .edit (f x) := by
  obtain ⟨x, hx, h⟩ := checked_ok h
  cases h
  exact ⟨x, hx, rfl⟩

/-- A command of another kind that is made of one checked argument. -/
theorem comes_of_checked {α : Type} {a : Argument.Checked α} {f : α → Command}
    (hedit : ∀ x, (f x).edit? = none) (hordinary : ∀ x, (f x).isOrdinary = true)
    (h : (checked a fun x => .ok (f x)) = .ok c) : Comes limit name args c := by
  obtain ⟨x, -, h⟩ := checked_ok h
  cases h
  exact .leaves (hedit x) (.ordinary (hordinary x))

theorem edit?_of_sleep {ms : Single} (h : sleep ms = .ok c) : c.edit? = none := by
  rcases sleep_cases ms with ⟨-, hs⟩ | ⟨-, time, hs⟩ <;> rw [hs] at h <;> cases h <;> rfl

theorem edit?_of_count {n : Int} (h : count limit n = .ok c) : c.edit? = none := by
  rcases count_cases limit n with ⟨-, text, hc⟩ | ⟨-, ⟨-, hc⟩ | ⟨-, v, hc⟩⟩ <;> rw [hc] at h <;>
    cases h <;> rfl

theorem comes_of_slider {widget : String} {low high step : Value} {initial : Option Value}
    (h : slider widget low high step initial = .ok c) : Comes limit name args c := by
  obtain ⟨l, hl, h⟩ := checked_ok h
  obtain ⟨g, hg, h⟩ := checked_ok h
  obtain ⟨s, hs, h⟩ := checked_ok h
  have hlow := Argument.isFinite_of_finite hl
  have hhigh := Argument.isFinite_of_finite hg
  have hstep := Argument.isFinite_of_finite hs
  cases initial with
  | none =>
      cases h
      exact .leaves rfl (.slider (by simp [hlow, hhigh, hstep]))
  | some v =>
      obtain ⟨i, hi, h⟩ := checked_ok h
      cases h
      have hinitial := Argument.isFinite_of_finite hi
      exact .leaves rfl (.slider (by simp [hlow, hhigh, hstep, hinitial]))

theorem comes_of_nullary (h : nullary name = some (.ok c)) : Comes limit name [] c := by
  unfold nullary at h
  split at h
  next m _ hm =>
    cases h
    exact .builds rfl (.mask hm)
  next o _ ho =>
    cases h
    exact .builds rfl (.operation ho)
  · split at h <;> cases h
    · exact .builds rfl .toggleWrap
    · exact .builds rfl .identityTransform
    · exact .builds rfl .reset
    · exact .builds rfl .reboot
    all_goals exact .leaves rfl (.ordinary rfl)

theorem comes_of_unary (h : unary limit name v = some (.ok c)) : Comes limit name [v] c := by
  unfold unary at h
  split at h
  case h_20 => cases h
  all_goals rw [Option.some.injEq] at h
  case h_1 =>
    obtain ⟨a, ha, rfl⟩ := checked_edit h
    exact .builds rfl (.alpha ha)
  case h_2 =>
    obtain ⟨a, ha, rfl⟩ := checked_edit h
    exact .builds rfl (.defaultColor ha)
  case h_3 =>
    cases h
    exact .builds rfl (.wrap _)
  case h_4 =>
    cases h
    exact .builds rfl (.coordinates _)
  case h_5 =>
    obtain ⟨n, hword, h⟩ := checked_ok h
    split at h
    · cases h
    next hn =>
      cases h
      exact .builds rfl (.repetitions hword hn)
  case h_6 =>
    obtain ⟨p, hp, rfl⟩ := checked_edit h
    exact .builds rfl (.scale hp)
  case h_7 =>
    obtain ⟨r, hr, rfl⟩ := checked_edit h
    exact .builds rfl (.rotate hr)
  case h_8 =>
    obtain ⟨p, hp, rfl⟩ := checked_edit h
    exact .builds rfl (.translate hp)
  case h_9 => exact .leaves (edit?_of_sleep h) (.sleepInt h)
  case h_10 =>
    split at h
    next hfinite => exact .leaves (edit?_of_sleep h) (.sleepFloat hfinite h)
    · cases h
  case h_12 =>
    cases h
    exact .leaves rfl (.slider (by decide +kernel))
  case h_13 | h_16 | h_17 => exact comes_of_checked (fun _ => rfl) (fun _ => rfl) h
  case h_15 => split at h <;> cases h <;> exact .leaves rfl (.ordinary rfl)
  case h_18 =>
    split at h <;> cases h
    exact .leaves rfl (.ordinary rfl)
  case h_19 => exact .leaves (edit?_of_count h) (.range h)
  all_goals
    cases h
    exact .leaves rfl (.ordinary rfl)

theorem comes_of_binary (h : binary name v w = some (.ok c)) : Comes limit name [v, w] c := by
  unfold binary at h
  split at h
  case h_7 =>
    obtain ⟨l, -, h⟩ := Option.map_eq_some_iff.mp h
    cases h
    exact .leaves rfl (.ordinary rfl)
  case h_8 => cases h
  all_goals rw [Option.some.injEq] at h
  case h_1 =>
    obtain ⟨m, hm, h⟩ := checked_ok h
    obtain ⟨n, hn, rfl⟩ := checked_edit h
    exact .builds rfl (.mod hm hn)
  case h_2 =>
    obtain ⟨m, hm, h⟩ := checked_ok h
    obtain ⟨n, hn, rfl⟩ := checked_edit h
    exact .builds rfl (.rows hm hn)
  case h_3 =>
    unfold rotateColor at h
    split at h
    · cases h
    next a ha =>
      obtain ⟨t, ht, rfl⟩ := checked_edit h
      exact .builds rfl (.rotateColor ha ht)
  case h_4 =>
    obtain ⟨options, hoptions, h⟩ := checked_ok h
    cases h
    exact .leaves rfl (.radio hoptions)
  case h_5 =>
    obtain ⟨l, -, h⟩ := checked_ok h
    exact comes_of_checked (fun _ => rfl) (fun _ => rfl) h
  case h_6 =>
    split at h <;> cases h
    exact .leaves rfl (.ordinary rfl)

/-- **What an accepted call can be.** -/
theorem comes_of_select (h : select limit name args = some (.ok c)) : Comes limit name args c := by
  unfold select at h
  split at h
  · exact comes_of_nullary h
  · exact comes_of_unary h
  · exact comes_of_binary h
  · split at h
    next hname =>
      subst hname
      rw [Option.some.injEq] at h
      obtain ⟨r, hr, h⟩ := checked_ok h
      obtain ⟨s, hs, h⟩ := checked_ok h
      obtain ⟨t, ht, rfl⟩ := checked_edit h
      exact .builds rfl (.transform hr hs ht)
    · cases h
  · split at h
    · exact comes_of_slider (Option.some.inj h)
    · cases h
  · split at h
    · exact comes_of_slider (Option.some.inj h)
    · cases h
  · cases h

/-- A call that changes the filter is one of those that build it. -/
theorem builds_of_select (h : select limit name args = some (.ok c)) (he : c.edit? = some e) :
    Builds name args e := by
  cases comes_of_select h with
  | builds he' hbuilds =>
      cases he.symm.trans he'
      exact hbuilds
  | leaves hnone _ => cases he.symm.trans hnone

/-- A call comes to an ordinary command, or it is one of the few others. -/
theorem select_ok (h : select limit name args = some (.ok c)) : Selects limit name args c := by
  cases comes_of_select h with
  | builds he _ => cases c <;> cases he <;> exact .ordinary rfl
  | leaves _ hselects => exact hselects

/-- A decision on a checked argument that was accepted. -/
theorem select_of_checked {α : Type} {a : Argument.Checked α} {f : α → Decision} {x : α}
    {d : Decision} (h : select limit name args = some (checked a f)) (ha : a = .ok x)
    (hd : f x = d) : select limit name args = some d := by
  rw [h, ha, ← hd]
  rfl

/-- Every call that builds a filter is accepted, whatever the limit. -/
theorem select_of_builds (limit : Nat) (h : Builds name args e) :
    ∃ c, select limit name args = some (.ok c) ∧ c.edit? = some e := by
  cases h with
  | @mask _ m h =>
      have hselect : nullary name = some (edit (.mask m)) := by
        unfold nullary
        rw [h]
      exact ⟨_, hselect, rfl⟩
  | @operation _ o h =>
      have hmask : plainMask? name = none := by
        unfold plainOperation? at h
        split at h <;> first | rfl | cases h
      have hselect : nullary name = some (edit (.operation o)) := by
        unfold nullary
        rw [hmask, h]
      exact ⟨_, hselect, rfl⟩
  | mod hv hw => exact ⟨.edit _, select_of_checked (select_of_checked rfl hv rfl) hw rfl, rfl⟩
  | rows hv hw => exact ⟨.edit _, select_of_checked (select_of_checked rfl hv rfl) hw rfl, rfl⟩
  | @rotateColor axis a v t haxis hv =>
      have hselect : Primitive.rotateColor axis v = edit (.operation (.rotateColor a t)) := by
        unfold Primitive.rotateColor
        rw [haxis, hv]
        rfl
      exact ⟨_, congrArg some hselect, rfl⟩
  | alpha h => exact ⟨.edit _, select_of_checked rfl h rfl, rfl⟩
  | defaultColor h => exact ⟨.edit _, select_of_checked rfl h rfl, rfl⟩
  | toggleWrap => exact ⟨.edit .toggleWrap, rfl, rfl⟩
  | wrap b => exact ⟨.edit (.wrap b), rfl, rfl⟩
  | coordinates b => exact ⟨.edit (.coordinates b), rfl, rfl⟩
  | repetitions h hn =>
      exact ⟨.edit _, select_of_checked rfl h (if_neg hn), rfl⟩
  | scale h => exact ⟨.edit _, select_of_checked rfl h rfl, rfl⟩
  | rotate h => exact ⟨.edit _, select_of_checked rfl h rfl, rfl⟩
  | translate h => exact ⟨.edit _, select_of_checked rfl h rfl, rfl⟩
  | transform hu hv hw =>
      exact ⟨.edit _,
        select_of_checked (select_of_checked (select_of_checked rfl hu rfl) hv rfl) hw rfl, rfl⟩
  | identityTransform => exact ⟨.edit .identityTransform, rfl, rfl⟩
  | reset => exact ⟨.edit .reset, rfl, rfl⟩
  | reboot => exact ⟨.reboot, rfl, rfl⟩

end Primitive

/-- **The calls that change the filter are those that build it.** -/
theorem PrimitiveCall.edit?_eq_some_iff {limit : Nat} {call : PrimitiveCall} {e : Filter.Edit} :
    call.edit? limit = some e ↔ Builds call.name call.args e := by
  constructor
  · intro h
    obtain ⟨c, hcommand, he⟩ := Option.bind_eq_some_iff.mp h
    exact Primitive.builds_of_select (command?_eq_some_iff.mp hcommand) he
  · intro h
    obtain ⟨c, hselect, he⟩ := Primitive.select_of_builds limit h
    exact (edit?_of_command? (command?_eq_some_iff.mpr hselect)).trans he

end FilterScript
