/-
Commands on a machine.

A machine answers errands and may change with each.  Of its files three things are assumed, which
hold where every name of a directory has a file of its own: what was written is read, the clock
changes no file, and a file stays as it is while another one of its directory is written, whether
that succeeds or not.
-/
import FilterScript.CommandLine.Basic
import FilterScript.Proofs.Job.Path

namespace FilterScript

namespace Shell

variable {σ α : Type}

/-- What answers errands. -/
structure Machine (σ : Type) where
  answer : (r : Errand) → σ → r.Reply × σ

namespace Machine

/-- What is read at a path. -/
def text (M : Machine σ) (s : σ) (path : String) : Except FileFault String :=
  (M.answer (.read path) s).1

/-- Every name in a directory of a machine has a file of its own. -/
structure Lawful (M : Machine σ) : Prop where
  /-- What was written to a path is read there. -/
  written : ∀ s path text, (M.answer (.write path text) s).1 = .ok () →
    M.text (M.answer (.write path text) s).2 path = .ok text
  /-- A look at the clock changes no file. -/
  timeless : ∀ s path, M.text (M.answer .time s).2 path = M.text s path
  /-- What is written under another name in the directory of a file leaves the file as it is. -/
  apart : ∀ s path other text kept, Path.Siblings path other → M.text s path = .ok kept →
    M.text (M.answer (.write other text) s).2 path = .ok kept

end Machine

/-- An errand with its answer. -/
structure Answered where
  errand : Errand
  reply : errand.Reply

namespace Answered

variable {path : String}

/-- A text was written to a path, and that went well. -/
def wrote (path : String) : Answered → Bool
  | ⟨.write other _, .ok ()⟩ => path = other
  | _ => false

theorem exists_of_any_wrote {es : List Answered} (h : es.any (wrote path) = true) :
    ∃ text, ⟨.write path text, .ok ()⟩ ∈ es := by
  obtain ⟨e, he, hwrote⟩ := List.any_eq_true.mp h
  unfold wrote at hwrote
  split at hwrote
  next other text =>
    obtain rfl := of_decide_eq_true hwrote
    exact ⟨text, he⟩
  next => cases hwrote

theorem write_inj {other text newText : String} {r q : Except FileFault Unit} :
    (⟨.write path text, r⟩ : Answered) = ⟨.write other newText, q⟩ ↔
      path = other ∧ text = newText ∧ r = q := by
  constructor
  · intro h
    cases h
    exact ⟨rfl, rfl, rfl⟩
  · rintro ⟨rfl, rfl, rfl⟩
    rfl

end Answered

variable (M : Machine σ)

/-- What a computation comes to on a machine, and what becomes of the machine. -/
def runWith : Shell α → σ → α × σ
  | done a, s => (a, s)
  | ask r k, s => (k (M.answer r s).1).runWith (M.answer r s).2

/-- What a computation asks of a machine, one errand after the other. -/
def answered : Shell α → σ → List Answered
  | done _, _ => []
  | ask r k, s => ⟨r, (M.answer r s).1⟩ :: (k (M.answer r s).1).answered (M.answer r s).2

end Shell

/-! ### Tasks

One lemma for each thing that a task is put together from, on what passes and on what is left. -/

namespace CommandLine

variable {σ α β ε : Type} {M : Shell.Machine σ} {s : σ} {e : Shell.Answered} {r : Errand}
  {message : ε → String} {x : Except ε α} {f : α → Task β}

theorem answered_send_bind {f : r.Reply → Task β} :
    (send r >>= f).run.answered M s =
      ⟨r, (M.answer r s).1⟩ :: (f (M.answer r s).1).run.answered M (M.answer r s).2 := rfl

theorem runWith_send_bind {f : r.Reply → Task β} :
    (send r >>= f).run.runWith M s = (f (M.answer r s).1).run.runWith M (M.answer r s).2 := rfl

theorem mem_answered_send_bind {f : r.Reply → Task β}
    (h : e ∈ (send r >>= f).run.answered M s) :
    e = ⟨r, (M.answer r s).1⟩ ∨ e ∈ (f (M.answer r s).1).run.answered M (M.answer r s).2 :=
  List.mem_cons.mp h

theorem orFail_ok_bind {a : α} : (orFail message (.ok a) >>= f) = f a := rfl

theorem mem_answered_orFail_bind (h : e ∈ (orFail message x >>= f).run.answered M s) :
    ∃ a, x = .ok a ∧ e ∈ (f a).run.answered M s := by
  cases x with
  | ok a => exact ⟨a, rfl, h⟩
  | error fault => cases h

/-- Nothing passes, and nothing changes. -/
def Quiet (M : Shell.Machine σ) (t : Task β) : Prop :=
  ∀ s, t.run.answered M s = [] ∧ (t.run.runWith M s).2 = s

theorem quiet_pure (b : β) : Quiet M (pure b : Task β) := fun _ => ⟨rfl, rfl⟩

theorem quiet_throw (text : String) : Quiet M (throw text : Task β) := fun _ => ⟨rfl, rfl⟩

theorem quiet_orFail_bind (h : ∀ a, Quiet M (f a)) : Quiet M (orFail message x >>= f) := by
  cases x with
  | ok a => exact h a
  | error fault => exact quiet_throw _

end CommandLine

end FilterScript
