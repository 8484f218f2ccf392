/-
How a run behaves towards its host.

A `Protocol` says which requests a run may make where it stands, and where each reply
takes it.  `Follows` says that a computation keeps to a protocol, whatever its
requests are answered with.  A computation is a tree that branches at the replies, so
`Follows` is defined along the tree, and the one rule that matters is that of `bind`:
the first part leaves off where the second part starts.

The protocol that the host relies on is that of `Stage`.  A run that has marked a
widget looks next whether it was replaced; one that has handed in a continuation
waits for it next; and one that has learned that it was replaced only leaves: it
asks for nothing that another run or the host could notice.
-/
import FilterScript.Thread.Step

namespace FilterScript

/-- Whether a message is one with which the host ends a run. -/
def WorkerMessage.isFinal : WorkerMessage → Bool
  | done => true
  | error _ => true
  | _ => false

/-- Where a run stands in its dealings with the host. -/
inductive Stage where
  /-- It may ask for anything but a signal. -/
  | free
  /-- It has marked a widget and has not looked since whether it was replaced. -/
  | marked
  /-- It has handed in a continuation and was told that somebody received it. -/
  | parked
  /-- It has learned that it was replaced, or that nobody is left. -/
  | told
  /-- It has reported how it ended. -/
  | ended
deriving DecidableEq

namespace Stage

/-- The requests that a run may make. -/
def Allows : Stage → Request → Prop
  | free, .await => False
  | free, .post m => m.isFinal = false
  | free, .finish o => o ≠ .cancelled
  | free, _ => True
  | marked, .isCancelled => True
  | parked, .await => True
  | told, .isCancelled => True
  | told, .finish o => o = .cancelled
  | _, _ => False

/-- The stage behind a request that was answered. -/
def after : Stage → (r : Request) → r.Reply → Stage
  | told, .isCancelled, _ => told
  | _, .isCancelled, true => told
  | _, .post _, false => told
  | _, .suspend, true => parked
  | _, .suspend, false => told
  | _, .await, some .cancelled => told
  | _, .await, none => told
  | _, .declare _, _ => marked
  | _, .finish _, _ => ended
  | _, _, _ => free

end Stage

/-- What a run may ask for where it stands, where a reply takes it, and where it may go
silent for ever. -/
structure Protocol (σ : Type) where
  Allows : σ → Request → Prop
  after : σ → (r : Request) → r.Reply → σ
  MayStop : σ → Prop

/-- The protocol that the host relies on. -/
def Stage.protocol : Protocol Stage where
  Allows := Allows
  after := after
  MayStop s := s = free

namespace Thread

variable {α β σ : Type}

/-- A computation keeps to a protocol from a place on.  Where it ends with a value, `Q`
holds of the last place and the value. -/
inductive Follows (P : Protocol σ) (Q : σ → α → Prop) : σ → Thread α → Prop where
  | done {s : σ} {a : α} (ha : Q s a) : Follows P Q s (done a)
  | crash {s : σ} (hs : P.MayStop s) : Follows P Q s crash
  | spin {s : σ} (hs : P.MayStop s) : Follows P Q s spin
  | ask {s : σ} {r : Request} {k : r.Reply → Thread α} (hr : P.Allows s r)
      (hk : ∀ x, Follows P Q (P.after s r x) (k x)) : Follows P Q s (ask r k)

namespace Follows

variable {P : Protocol σ} {Q : σ → α → Prop} {R : σ → β → Prop} {s : σ}

/-- The rule of composition: the second part starts where the first part leaves off. -/
theorem bind {t : Thread α} {f : α → Thread β} (ht : Follows P Q s t)
    (hf : ∀ s a, Q s a → Follows P R s (f a)) : Follows P R s (t.bind f) := by
  induction ht with
  | done ha => exact hf _ _ ha
  | crash hs => exact .crash hs
  | spin hs => exact .spin hs
  | ask hr _ ih => exact .ask hr ih

/-- The first request of a computation that keeps to the protocol is allowed, and
the rest keeps to it whatever the reply. -/
theorem of_ask {r : Request} {k : r.Reply → Thread α} (h : Follows P Q s (.ask r k)) :
    P.Allows s r ∧ ∀ x, Follows P Q (P.after s r x) (k x) := by
  cases h with
  | ask hr hk => exact ⟨hr, hk⟩

end Follows

/-- A computation keeps to the protocol that the host relies on. -/
abbrev Conforms (Q : Stage → α → Prop) : Stage → Thread α → Prop := Follows Stage.protocol Q

/-! ### Answers

An answer changes the link in few ways.  It never changes whose link it is, nor what
the host has said about the run, and where nobody receives nothing is sent.
-/

/-- What an answer leaves alone. -/
structure Spares (l l' : Link) : Prop where
  run : l'.run = l.run
  isCancelled : l'.isCancelled = l.isCancelled
  isOpen : l'.isOpen = l.isOpen
  isClockHeld : l'.isClockHeld = l.isClockHeld
  events : l.isOpen = false → l'.events = l.events

theorem Spares.refl (l : Link) : Spares l l := ⟨rfl, rfl, rfl, rfl, fun _ => rfl⟩

theorem spares_send (l : Link) (e : RunEvent) : Spares l (l.send e) := by
  simp only [Link.send]
  split
  next hopen => exact ⟨rfl, rfl, rfl, rfl, fun h => by simp [hopen] at h⟩
  · exact .refl l

theorem spares_of_answer {queued : Continuation → Bool} {r : Request} {l l' : Link}
    {shared shared' : Surroundings} {x : r.Reply}
    (h : r.answer queued l shared = some (x, l', shared')) : Spares l l' := by
  cases r <;> simp only [Request.answer] at h
  case post m =>
    cases h
    exact spares_send _ _
  case suspend =>
    cases h
    have hs := spares_send { l with waits := l.waits + 1, signal := none }
      (.suspend ⟨l.run, l.waits + 1⟩)
    exact ⟨hs.run, hs.isCancelled, hs.isOpen, hs.isClockHeld, hs.events⟩
  case await =>
    split at h
    · cases h
      exact ⟨rfl, rfl, rfl, rfl, fun _ => rfl⟩
    · split at h
      · cases h
      · cases h
        exact .refl l
  case elapsed =>
    split at h
    · cases h
    · cases h
      exact .refl l
  case delta =>
    split at h
    · cases h
    · cases h
      exact .refl l
  case finish o =>
    cases h
    exact spares_send _ _
  all_goals
    cases h
    exact .refl l

/-- A request that is neither a message nor a report adds neither to the channel. -/
theorem events_of_answer {queued : Continuation → Bool} {r : Request} {l l' : Link}
    {shared shared' : Surroundings} {x : r.Reply} (hpost : ∀ m, r ≠ .post m)
    (hfinish : ∀ o, r ≠ .finish o) (h : r.answer queued l shared = some (x, l', shared')) :
    l'.events = l.events ∨ l' = l.suspend := by
  cases r <;> simp only [Request.answer] at h
  case post m => exact absurd rfl (hpost m)
  case finish o => exact absurd rfl (hfinish o)
  case suspend =>
    cases h
    exact Or.inr rfl
  case await =>
    left
    split at h
    · cases h
      rfl
    · split at h
      · cases h
      · cases h
        rfl
  case elapsed =>
    left
    split at h
    · cases h
    · cases h
      rfl
  case delta =>
    left
    split at h
    · cases h
    · cases h
      rfl
  all_goals
    left
    cases h
    rfl

/-! ### Steps

A step answers the first request, or is one of a thread that works on for ever.
-/

/-- What a step of a thread can be. -/
theorem step_cases {queued : Continuation → Bool} {t t' : Thread α} {l l' : Link}
    {shared shared' : Surroundings} (h : t.step queued l shared = some (t', l', shared')) :
    (t = .spin ∧ t' = .spin ∧ l' = l ∧ shared' = { shared with now := shared.now + stepTime }) ∨
    ∃ (r : Request) (k : r.Reply → Thread α) (x : r.Reply), t = .ask r k ∧ t' = k x ∧
      r.answer queued l { shared with now := shared.now + stepTime } = some (x, l', shared') := by
  cases t with
  | done _ => cases h
  | crash => cases h
  | spin =>
      cases h
      exact Or.inl ⟨rfl, rfl, rfl, rfl⟩
  | ask r k =>
      simp only [step, Option.map_eq_some_iff] at h
      obtain ⟨⟨x, l₁, shared₁⟩, ha, he⟩ := h
      cases he
      exact Or.inr ⟨r, k, x, rfl, rfl, ha⟩

theorem spares_of_step {queued : Continuation → Bool} {t t' : Thread α} {l l' : Link}
    {shared shared' : Surroundings} (h : t.step queued l shared = some (t', l', shared')) :
    Spares l l' := by
  rcases step_cases h with ⟨-, -, rfl, -⟩ | ⟨r, k, x, -, -, ha⟩
  · exact .refl _
  · exact spares_of_answer ha

/-- A step keeps to the protocol. -/
theorem Follows.step {P : Protocol σ} {Q : σ → α → Prop} {s : σ} {queued : Continuation → Bool}
    {t t' : Thread α} {l l' : Link} {shared shared' : Surroundings} (hc : Follows P Q s t)
    (h : t.step queued l shared = some (t', l', shared')) : ∃ s', Follows P Q s' t' := by
  rcases step_cases h with ⟨rfl, rfl, -, -⟩ | ⟨r, k, x, rfl, rfl, -⟩
  · exact ⟨s, hc⟩
  · exact ⟨P.after s r x, hc.of_ask.2 x⟩

end Thread

end FilterScript
