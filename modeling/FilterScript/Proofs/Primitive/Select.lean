/-
The commands that are looked at more closely.

Most commands are as good as any other: what they do cannot fail but by a cancelled run.  The few that
need a closer look are a radio, whose options come from the script, a slider, whose numbers do, and the
two primitives that count, `sleep` and `range`, which take numbers of any size.  `Selects` says which
calls these come from, or what is known of them; `Command.IsSound` is what is known of every command.
-/
import FilterScript.Primitive.Basic
import FilterScript.Proofs.Primitive.Argument

namespace FilterScript

open Script

/-- Whether a command is none of those that are looked at more closely. -/
def Command.isOrdinary : Command → Bool
  | radio .. => false
  | slider .. => false
  | sleep _ => false
  | sleepBeyond => false
  | countBeyond => false
  | _ => true

namespace Primitive

variable {limit : Nat} {name : String} {args : List Value} {v w : Value} {c : Command}

theorem checked_ok {α : Type} {a : Argument.Checked α} {f : α → Decision}
    (h : checked a f = .ok c) : ∃ x, a = .ok x ∧ f x = .ok c := by
  cases a with
  | error text => cases h
  | ok x => exact ⟨x, rfl, h⟩

/-- The seconds that a sleep of some milliseconds is long. -/
def seconds (ms : Single) : Single := (if Single.lt 0 ms then ms else 0) / thousand

/-- A sleep goes on for some time, or for longer than a clock can hold. -/
theorem sleep_cases (ms : Single) :
    longestSleep.le (seconds ms) = true ∧ sleep ms = .ok .sleepBeyond ∨
      longestSleep.le (seconds ms) = false ∧ ∃ time, sleep ms = .ok (.sleep time) := by
  unfold sleep
  show longestSleep.le (seconds ms) = true ∧
      (if longestSleep.le (seconds ms) = true then _ else _) = _ ∨ _ ∧ ∃ time,
      (if longestSleep.le (seconds ms) = true then _ else _) = _
  cases hbeyond : longestSleep.le (seconds ms) with
  | true => exact .inl ⟨rfl, rfl⟩
  | false =>
      refine .inr ⟨rfl, ?_⟩
      rw [if_neg (by simp)]
      split <;> exact ⟨_, rfl⟩

/-- A count is refused, or there are more numbers than fit into memory, or it is answered. -/
theorem count_cases (limit : Nat) (n : Int) :
    (0 < limit ∧ limit < n.toNat) ∧ (∃ text, count limit n = .error (.argument text)) ∨
      ¬ (0 < limit ∧ limit < n.toNat) ∧ (mostValues < n.toNat ∧ count limit n = .ok .countBeyond ∨
        n.toNat ≤ mostValues ∧ ∃ v, count limit n = .ok (.answer v)) := by
  unfold count
  dsimp only
  by_cases hlimit : 0 < limit ∧ limit < n.toNat
  · rw [if_pos hlimit]
    exact .inl ⟨hlimit, _, rfl⟩
  · rw [if_neg hlimit]
    by_cases hmost : mostValues < n.toNat
    · rw [if_pos hmost]
      exact .inr ⟨hlimit, .inl ⟨hmost, rfl⟩⟩
    · rw [if_neg hmost]
      exact .inr ⟨hlimit, .inr ⟨Nat.le_of_not_lt hmost, _, rfl⟩⟩

/-- A list of options that is accepted is not empty. -/
theorem options_ne_nil {what : String} {options : List String}
    (h : Argument.options w what = .ok options) : options ≠ [] := by
  unfold Argument.options at h
  split at h
  · cases h
  next items hitems =>
    cases items with
    | nil => exact absurd rfl hitems
    | cons x rest =>
        rw [List.mapM_cons] at h
        obtain ⟨o, -, h⟩ := Argument.bind_ok h
        obtain ⟨os, -, h⟩ := Argument.bind_ok h
        cases h
        exact List.cons_ne_nil o os
  · cases h

/-- How a call comes to a command. -/
inductive Selects (limit : Nat) : String → List Value → Command → Prop where
  | ordinary {name : String} {args : List Value} {c : Command} (h : c.isOrdinary = true) :
      Selects limit name args c
  | radio {name : String} {w : Value} {options : List String}
      (h : Argument.options w "radio" = .ok options) :
      Selects limit "radio" [.string name, w] (.radio name options)
  | slider {name : String} {args : List Value} {widget : String} {low high step initial : Single}
      (h : ∀ x ∈ [low, high, step, initial], x.isFinite = true) :
      Selects limit name args (.slider widget low high step initial)
  | sleepInt {ms : Int} {c : Command} (h : sleep (.ofInt ms) = .ok c) :
      Selects limit "sleep" [.int ms] c
  | sleepFloat {ms : Single} {c : Command} (hfinite : ms.isFinite = true) (h : sleep ms = .ok c) :
      Selects limit "sleep" [.float ms] c
  | range {n : Int} {c : Command} (h : count limit n = .ok c) : Selects limit "range" [.int n] c

end Primitive

/-- A radio offers something, and the numbers of a slider are finite. -/
def Command.IsSound : Command → Prop
  | radio _ options => options ≠ []
  | slider _ low high step initial => ∀ x ∈ [low, high, step, initial], x.isFinite = true
  | _ => True

namespace Primitive

theorem isSound_of_sleep {ms : Single} (h : sleep ms = .ok c) : c.IsSound := by
  rcases sleep_cases ms with ⟨-, hs⟩ | ⟨-, time, hs⟩ <;> cases hs.symm.trans h <;> trivial

theorem isSound_of_count {n : Int} (h : count limit n = .ok c) : c.IsSound := by
  rcases count_cases limit n with ⟨-, text, hc⟩ | ⟨-, ⟨-, hc⟩ | ⟨-, v, hc⟩⟩ <;>
    cases hc.symm.trans h <;> trivial

/-- **A command that a call comes to is sound.** -/
theorem Selects.isSound (h : Selects limit name args c) : c.IsSound := by
  cases h with
  | ordinary h => cases c <;> trivial
  | radio h => exact options_ne_nil h
  | slider h => exact h
  | sleepInt h => exact isSound_of_sleep h
  | sleepFloat _ h => exact isSound_of_sleep h
  | range h => exact isSound_of_count h

end Primitive

end FilterScript
