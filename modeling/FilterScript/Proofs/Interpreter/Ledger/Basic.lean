/-
What was said and where it is now.

Whatever a run posts goes from its channel to the outbox of the host, and from there
to whoever polls.  The notes of a history tell what was posted and what was handed
out, so the books can be balanced at every moment: what a run posted is what was
handed out of it, then what is in the outbox, then what is in the channel, in this
order.  A run whose end was taken in has its farewell behind all that.  A run that was
abandoned has nothing in the outbox, and what was handed out of it is the beginning
of what it posted.

`Ledger` says this of each run, by what became of it.
-/
import FilterScript.Proofs.Interpreter.Sound

namespace FilterScript

/-- With which messages the host ends a run. -/
def Outcome.farewell : Outcome → List WorkerMessage
  | .failed failure _ => [.error failure.message, .done]
  | _ => [.done]

/-- What is said of one run. -/
def ofRun (r : RunId) (messages : List (RunId × WorkerMessage)) : List WorkerMessage :=
  (messages.filter fun x => x.1 = r).map (·.2)

/-- The messages among some events. -/
def RunEvent.messages (events : List RunEvent) : List WorkerMessage :=
  events.filterMap fun
    | .message m => some m
    | _ => none

namespace Note

/-- The message that a run posted, if that is noted. -/
def said? (r : RunId) : Note → Option WorkerMessage
  | said r' m => if r' = r then some m else none
  | _ => none

/-- The messages that a poll returned, if that is noted. -/
def batch : Note → List (RunId × WorkerMessage)
  | handed messages => messages
  | _ => []

end Note

/-- What a run posted, in the order in which it did. -/
def posted (r : RunId) (H : List Note) : List WorkerMessage := H.filterMap (Note.said? r)

/-- What all polls returned. -/
def handedOut (H : List Note) : List (RunId × WorkerMessage) := H.flatMap Note.batch

/-- What all polls returned of one run. -/
def heard (r : RunId) (H : List Note) : List WorkerMessage := ofRun r (handedOut H)

section Lists

variable {r : RunId} {H H' : List Note}

@[simp] theorem ofRun_nil : ofRun r [] = [] := rfl

@[simp] theorem ofRun_append (xs ys : List (RunId × WorkerMessage)) :
    ofRun r (xs ++ ys) = ofRun r xs ++ ofRun r ys := by
  simp [ofRun]

@[simp] theorem posted_append : posted r (H ++ H') = posted r H ++ posted r H' := by
  simp [posted]

@[simp] theorem handedOut_append : handedOut (H ++ H') = handedOut H ++ handedOut H' := by
  simp [handedOut]

@[simp] theorem heard_append : heard r (H ++ H') = heard r H ++ heard r H' := by
  simp [heard]

@[simp] theorem messages_append (es es' : List RunEvent) :
    RunEvent.messages (es ++ es') = RunEvent.messages es ++ RunEvent.messages es' := by
  simp [RunEvent.messages]

end Lists

namespace Session

/-- What is in the outbox of one run. -/
def box (s : Session) (r : RunId) : List WorkerMessage := ofRun r s.interpreter.outbox

end Session

namespace HostPhase

/-- Whether the host goes away and polls no more. -/
def isGone : HostPhase → Bool
  | left => true
  | closed => true
  | _ => false

end HostPhase

namespace System

/-- What an outcome that the host takes for the end of a run goes back to. -/
inductive Cause (H : List Note) (s : Session) (r : RunId) (o : Outcome) : Prop where
  /-- The thread reported it. -/
  | reported (h : .reported r o ∈ H)
  /-- The thread went away without a report. -/
  | lost (ho : o = Session.lostOutcome) (h : ∃ w, s.worker? r = some w ∧ w.thread = .crash)
  /-- There was no thread. -/
  | refused (reason : String) (ho : o = Session.unstartedOutcome reason)
      (h : .refused r reason ∈ H)

/-- A cause is still one when more has happened, as long as the run keeps its thread. -/
theorem Cause.mono {H ns : List Note} {s t : Session} {r : RunId} {o : Outcome}
    (h : Cause H s r o)
    (hworker : ∀ w, s.worker? r = some w → ∃ w', t.worker? r = some w' ∧ w'.thread = w.thread) :
    Cause (H ++ ns) t r o := by
  cases h with
  | reported h => exact .reported (List.mem_append_left _ h)
  | lost ho h =>
      obtain ⟨w, hw, hcrash⟩ := h
      obtain ⟨w', hw', hthread⟩ := hworker w hw
      exact .lost ho ⟨w', hw', hthread.trans hcrash⟩
  | refused reason ho h => exact .refused reason ho (List.mem_append_left _ h)

/-- The books of a run whose end was taken in: what it posted and its farewell were
handed out, or the farewell is still in the outbox. -/
structure Collected (H : List Note) (S : System) (r : RunId) (o : Outcome) : Prop where
  /-- Nobody makes up an end. -/
  truly : Cause H S.session r o
  started : S.session.worker? r ≠ none
  bygone : S.session.current? ≠ some r
  kept : .abandoned r ∉ H
  notCancelled : o ≠ .cancelled
  balance : (∃ ms, S.session.box r = ms ++ o.farewell ∧ heard r H ++ ms = posted r H) ∨
    S.session.box r = [] ∧ heard r H = posted r H ++ o.farewell

/-- The books of a run that was abandoned, from the moment on at which the host lets
go of it. -/
structure Abandoned (H : List Note) (S : System) (r : RunId) : Prop where
  started : S.session.worker? r ≠ none
  silent : S.session.current? = some r ∧ S.phase.isFlagged = true ∨
    S.session.current? ≠ some r ∧ heard r H <+: posted r H ∧
      (S.session.box r = [] ∨ S.phase.isGone = true)

/-- The books of the current run. -/
structure Running (H : List Note) (s : Session) (r : RunId) (w : Worker) : Prop where
  balance : posted r H = heard r H ++ s.box r ++ RunEvent.messages w.link.events
  /-- An outcome in the channel was reported. -/
  truly : ∀ o, .finished o ∈ w.link.events → .reported r o ∈ H

/-- The books of one run, whatever became of it. -/
structure Books (H : List Note) (S : System) (r : RunId) : Prop where
  /-- A run that was not started said nothing. -/
  unstarted : S.session.worker? r = none →
    posted r H = [] ∧ heard r H = [] ∧ S.session.box r = []
  /-- No run says that it has ended. -/
  plain : ∀ m ∈ posted r H, m.isFinal = false
  running : ∀ w, S.session.current? = some r → S.session.worker? r = some w →
    Running H S.session r w
  collected : ∀ o, .collected r o ∈ H → Collected H S r o
  abandoned : .abandoned r ∈ H → Abandoned H S r
  /-- Every run that was started runs, or one of the two became of it. -/
  settled : S.session.worker? r ≠ none → S.session.current? ≠ some r →
    (∃ o, .collected r o ∈ H) ∨ .abandoned r ∈ H
  /-- A run that was told that it is replaced is abandoned. -/
  told : S.phase.isFlagged = true → S.session.current? = some r → .abandoned r ∈ H

/-- The books of all runs. -/
structure Ledger (H : List Note) (S : System) : Prop where
  /-- Messages are kept and handed out in the order of the runs. -/
  ordered : (handedOut H ++ S.session.interpreter.outbox).Pairwise fun x y => x.1 ≤ y.1
  bounded : ∀ x ∈ handedOut H ++ S.session.interpreter.outbox, x.1 ≤ S.session.newest
  books : ∀ r, Books H S r

theorem ledger_ofConfig (config : Config) (platform : Platform) :
    Ledger [] (ofConfig config platform) where
  ordered := .nil
  bounded x hx := by cases hx
  books r :=
    { unstarted := fun _ => ⟨rfl, rfl, rfl⟩
      plain := fun m hm => by cases hm
      running := fun w h _ => by cases h
      collected := fun o h => by cases h
      abandoned := fun h => by cases h
      settled := fun h _ => absurd rfl h
      told := fun h => by cases h }

/-! ### Most moves are about one run

The books of all others are the same before and after.
-/

/-- The books of a run say the same after a move. -/
structure Alike (H : List Note) (S : System) (H' : List Note) (S' : System) (r : RunId) : Prop where
  posted : posted r H' = posted r H
  heard : heard r H' = heard r H
  box : S'.session.box r = S.session.box r
  current : S'.session.current? = some r ↔ S.session.current? = some r
  worker : ∃ f : Link → Link, S'.session.worker? r = (S.session.worker? r).map (·.onLink f) ∧
    (S'.session.current? = some r → ∀ l, (f l).events = l.events)
  notes : ∃ ns, H' = H ++ ns ∧ (∀ o, .collected r o ∉ ns) ∧ .abandoned r ∉ ns
  flagged : S.session.current? = some r → S'.phase.isFlagged = S.phase.isFlagged
  gone : S.phase.isGone = true → S'.phase.isGone = true

theorem Books.congr {H H' : List Note} {S S' : System} {r : RunId} (h : Books H S r)
    (hs : Alike H S H' S' r) : Books H' S' r := by
  obtain ⟨ns, rfl, hcollected, habandoned⟩ := hs.notes
  obtain ⟨f, hworker, hevents⟩ := hs.worker
  have hnone : S'.session.worker? r = none ↔ S.session.worker? r = none := by
    rw [hworker, Option.map_eq_none_iff]
  have hcollected' : ∀ o, .collected r o ∈ H ++ ns → .collected r o ∈ H := by
    intro o ho
    exact (List.mem_append.mp ho).resolve_right (hcollected o)
  have habandoned' : .abandoned r ∈ H ++ ns → .abandoned r ∈ H := fun ha =>
    (List.mem_append.mp ha).resolve_right habandoned
  constructor
  · rw [hnone, hs.posted, hs.heard, hs.box]
    exact h.unstarted
  · rw [hs.posted]
    exact h.plain
  · intro w hc hw
    rw [hworker, Option.map_eq_some_iff] at hw
    obtain ⟨v, hv, rfl⟩ := hw
    have hrunning := h.running v (hs.current.mp hc) hv
    have hsame : (v.onLink f).link.events = v.link.events := hevents hc v.link
    refine ⟨?_, fun o ho => List.mem_append_left _ (hrunning.truly o (hsame ▸ ho))⟩
    rw [hs.posted, hs.heard, hs.box, hsame]
    exact hrunning.balance
  · intro o ho
    have hbooks := h.collected o (hcollected' o ho)
    refine ⟨?_, ?_, ?_, fun ha => hbooks.kept (habandoned' ha), hbooks.notCancelled, ?_⟩
    · exact hbooks.truly.mono fun w hw => ⟨w.onLink f, by rw [hworker, hw]; rfl, rfl⟩
    · rw [ne_eq, hnone]
      exact hbooks.started
    · rw [ne_eq, hs.current]
      exact hbooks.bygone
    · rw [hs.posted, hs.heard, hs.box]
      exact hbooks.balance
  · intro ha
    have hbooks := h.abandoned (habandoned' ha)
    refine ⟨by rw [ne_eq, hnone]; exact hbooks.started, ?_⟩
    rw [ne_eq, hs.current, hs.posted, hs.heard, hs.box]
    rcases hbooks.silent with ⟨hc, hf⟩ | ⟨hne, hbeginning, hsilent⟩
    · exact Or.inl ⟨hc, (hs.flagged hc).trans hf⟩
    · exact Or.inr ⟨hne, hbeginning, hsilent.imp_right hs.gone⟩
  · rw [ne_eq, hnone, ne_eq, hs.current]
    intro hstarted hne
    exact (h.settled hstarted hne).imp (fun ⟨o, ho⟩ => ⟨o, List.mem_append_left _ ho⟩)
      (List.mem_append_left _)
  · intro hf hc
    rw [hs.current] at hc
    exact List.mem_append_left _ (h.told ((hs.flagged hc).symm.trans hf) hc)

end System

end FilterScript
