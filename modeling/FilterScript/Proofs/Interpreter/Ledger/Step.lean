/-
The books and the steps of threads.

A step of a thread adds a message to its channel and to what it posted, or it leaves
the books alone.  `Entry` is what a step can enter, and `step_books` finds it by the first
request of the thread.  Moves that leave all books alone are at the end.
-/
import FilterScript.Proofs.Interpreter.Ledger.Basic

namespace FilterScript

namespace System

/-- Notes that the books do not mention. -/
structure Bookless (ns : List Note) : Prop where
  posted : ∀ r, posted r ns = []
  handedOut : handedOut ns = []
  collected : ∀ r o, .collected r o ∉ ns
  abandoned : ∀ r, .abandoned r ∉ ns

theorem bookless_nil : Bookless [] := ⟨fun _ => rfl, rfl, by simp, by simp⟩

namespace Bookless

variable {H ns : List Note}

theorem posted_append (h : Bookless ns) (r : RunId) :
    FilterScript.posted r (H ++ ns) = FilterScript.posted r H := by
  rw [FilterScript.posted_append, h.posted, List.append_nil]

theorem handedOut_append (h : Bookless ns) :
    FilterScript.handedOut (H ++ ns) = FilterScript.handedOut H := by
  rw [FilterScript.handedOut_append, h.handedOut, List.append_nil]

theorem heard_append (h : Bookless ns) (r : RunId) : heard r (H ++ ns) = heard r H := by
  rw [heard, heard, h.handedOut_append]

end Bookless

theorem messages_send_of_not_message {l : Link} {e : RunEvent} (he : ∀ m, e ≠ .message m) :
    RunEvent.messages (l.send e).events = RunEvent.messages l.events := by
  simp only [Link.send]
  split
  · cases e with
    | message m => exact absurd rfl (he m)
    | suspend c => simp [RunEvent.messages]
    | finished o => simp [RunEvent.messages]
  · rfl

theorem mem_send {l : Link} {e e' : RunEvent} (h : e' ∈ (l.send e).events) :
    e' ∈ l.events ∨ e' = e := by
  simp only [Link.send] at h
  split at h
  · simpa using h
  · exact Or.inl h

/-- What a step of the run `r` enters in the books: it adds the messages `new`, none
or one, to what the run posted and to its channel. -/
structure Entry (r : RunId) (w : Worker) (l : Link) (ns : List Note) (new : List WorkerMessage) :
    Prop where
  posted : posted r ns = new
  others : ∀ r' ≠ r, FilterScript.posted r' ns = []
  handedOut : handedOut ns = []
  collected : ∀ r' o, .collected r' o ∉ ns
  abandoned : ∀ r', .abandoned r' ∉ ns
  channel : RunEvent.messages l.events = RunEvent.messages w.link.events ++ new
  isOpen : new ≠ [] → w.link.isOpen = true
  asked : ∀ m ∈ new, ∃ k, w.thread = .ask (.post m) k
  truly : ∀ o, .finished o ∈ l.events → .finished o ∈ w.link.events ∨ .reported r o ∈ ns

/-- A step that does not say anything. -/
theorem Entry.of_bookless {r : RunId} {w : Worker} {l : Link} {ns : List Note} (hns : Bookless ns)
    (hchannel : RunEvent.messages l.events = RunEvent.messages w.link.events)
    (htruly : ∀ o, .finished o ∈ l.events → .finished o ∈ w.link.events ∨ .reported r o ∈ ns) :
    Entry r w l ns [] where
  posted := hns.posted r
  others r' _ := hns.posted r'
  handedOut := hns.handedOut
  collected := hns.collected
  abandoned := hns.abandoned
  channel := by rw [hchannel, List.append_nil]
  isOpen h := absurd rfl h
  asked m hm := by cases hm
  truly := htruly

namespace Entry

variable {r : RunId} {w : Worker} {l : Link} {queued : Continuation → Bool}
  {shared shared' : Surroundings}

/-- A run says something.  It is heard as long as the host receives from the run. -/
theorem of_post {m : WorkerMessage} {k : Bool → Thread Unit} {x : Bool}
    (hask : w.thread = .ask (.post m) k)
    (ha : (Request.post m).answer queued w.link shared = some (x, l, shared')) :
    ∃ new, Entry r w l (Note.ofReply r (.post m) x) new := by
  simp only [Request.answer] at ha
  cases ha
  cases hopen : w.link.isOpen with
  | true =>
      refine ⟨[m], by simp [Note.ofReply, FilterScript.posted, Note.said?], fun r' hr => ?_, rfl,
        ?_, ?_, ?_,
        fun _ => hopen, fun m' hm => ?_, fun o ho => ?_⟩
      · simp [Note.ofReply, FilterScript.posted, Note.said?, hr.symm]
      · simp [Note.ofReply]
      · simp [Note.ofReply]
      · simp [Link.send, hopen, RunEvent.messages]
      · cases List.mem_singleton.mp hm
        exact ⟨k, hask⟩
      · rcases mem_send ho with ho | ho
        · exact Or.inl ho
        · cases ho
  | false =>
      have hlink : w.link.send (.message m) = w.link := by simp [Link.send, hopen]
      rw [hlink]
      exact ⟨[], .of_bookless bookless_nil rfl fun o ho => Or.inl ho⟩

/-- A run reports how it has ended. -/
theorem of_finish {o : Outcome} {x : Unit}
    (ha : (Request.finish o).answer queued w.link shared = some (x, l, shared')) :
    Entry r w l (Note.ofReply r (.finish o) x) [] := by
  simp only [Request.answer] at ha
  cases ha
  refine .of_bookless ⟨fun _ => rfl, rfl, ?_, ?_⟩ (messages_send_of_not_message (by simp))
    fun o' ho => ?_
  · simp [Note.ofReply]
  · simp [Note.ofReply]
  · rcases mem_send ho with ho | ho
    · exact Or.inl ho
    · cases ho
      exact Or.inr (by simp [Note.ofReply])

/-- Whatever else a run asks for, the books do not mention it. -/
theorem of_other {q : Request} {x : q.Reply} (hpost : ∀ m, q ≠ .post m) (hfinish : ∀ o, q ≠ .finish o)
    (ha : q.answer queued w.link shared = some (x, l, shared')) :
    Entry r w l (Note.ofReply r q x) [] := by
  have hbookless : Bookless (Note.ofReply r q x) := by
    cases q with
    | post m => exact absurd rfl (hpost m)
    | finish o => exact absurd rfl (hfinish o)
    | isCancelled => exact ⟨fun _ => rfl, rfl, by simp [Note.ofReply], by simp [Note.ofReply]⟩
    | declare name => exact ⟨fun _ => rfl, rfl, by simp [Note.ofReply], by simp [Note.ofReply]⟩
    | _ => exact bookless_nil
  rcases Thread.events_of_answer hpost hfinish ha with hsame | rfl
  · exact .of_bookless hbookless (by rw [hsame]) fun o ho => Or.inl (hsame ▸ ho)
  · refine .of_bookless hbookless (messages_send_of_not_message (by simp)) fun o ho => ?_
    rcases mem_send ho with ho | ho
    · exact Or.inl ho
    · cases ho

variable {H ns : List Note} {new : List WorkerMessage}

theorem posted_append (h : Entry r w l ns new) :
    FilterScript.posted r (H ++ ns) = FilterScript.posted r H ++ new := by
  rw [FilterScript.posted_append, h.posted]

theorem heard_append (h : Entry r w l ns new) (r' : RunId) : heard r' (H ++ ns) = heard r' H := by
  rw [FilterScript.heard_append, heard, heard, h.handedOut, ofRun_nil, List.append_nil]

theorem of_collected {r' : RunId} {o : Outcome} (h : Entry r w l ns new)
    (ho : .collected r' o ∈ H ++ ns) : .collected r' o ∈ H :=
  (List.mem_append.mp ho).resolve_right (h.collected r' o)

theorem of_abandoned {r' : RunId} (h : Entry r w l ns new) (ha : .abandoned r' ∈ H ++ ns) :
    .abandoned r' ∈ H :=
  (List.mem_append.mp ha).resolve_right (h.abandoned r')

end Entry

/-- What a step of a thread enters in the books. -/
theorem step_books {s : Session} {r : RunId} {w : Worker} {u : Thread Unit} {l : Link}
    {shared : Surroundings} (hw : s.worker? r = some w)
    (hs : w.thread.step s.isQueued w.link s.surroundings = some (u, l, shared)) :
    ∃ new, Entry r w l (s.stepNotes r) new := by
  rcases Thread.step_cases hs with ⟨hspin, -, rfl, -⟩ | ⟨q, k, x, hask, -, ha⟩
  · have hnotes : s.stepNotes r = [] := by simp only [Session.stepNotes, hw, hspin]
    exact ⟨[], hnotes ▸ .of_bookless bookless_nil rfl fun o ho => Or.inl ho⟩
  · rw [Session.stepNotes_of_answer hw hask ha]
    cases q with
    | post m => exact Entry.of_post hask ha
    | finish o => exact ⟨[], .of_finish ha⟩
    | _ => exact ⟨[], .of_other (by simp) (by simp) ha⟩

/-! ### The books of the run that takes a step

Each of its books is carried over on its own.  A run that is by-gone has no open channel, so
nothing is added to what it posted.
-/

section Steps

variable {H ns : List Note} {s t : Session} {phase : HostPhase} {r : RunId} {w : Worker} {l : Link}
  {new : List WorkerMessage} {o : Outcome}

theorem Running.step (h : Running H s r w) (hentry : Entry r w l ns new) (hbox : t.box r = s.box r)
    (u : Thread Unit) : Running (H ++ ns) t r ⟨l, u⟩ := by
  refine ⟨?_, fun o ho => ?_⟩
  · rw [hentry.posted_append, hentry.heard_append, hbox, hentry.channel, h.balance,
      List.append_assoc]
  · rw [List.mem_append]
    exact (hentry.truly o ho).imp_left (h.truly o)

theorem Collected.step (h : Collected H ⟨s, phase⟩ r o) (hentry : Entry r w l ns [])
    (hbox : t.box r = s.box r) (hcurrent : t.current? = s.current?) (hstarted : t.worker? r ≠ none)
    (hcause : Cause (H ++ ns) t r o) : Collected (H ++ ns) ⟨t, phase⟩ r o := by
  refine ⟨hcause, hstarted, hcurrent ▸ h.bygone, fun ha => h.kept (hentry.of_abandoned ha),
    h.notCancelled, ?_⟩
  rw [hentry.posted_append, List.append_nil, hentry.heard_append, hbox]
  exact h.balance

theorem Abandoned.step (h : Abandoned H ⟨s, phase⟩ r) (hentry : Entry r w l ns new)
    (hbox : t.box r = s.box r) (hcurrent : t.current? = s.current?) (hstarted : t.worker? r ≠ none) :
    Abandoned (H ++ ns) ⟨t, phase⟩ r := by
  refine ⟨hstarted, ?_⟩
  rw [hcurrent, hentry.heard_append, hbox, hentry.posted_append]
  refine h.silent.imp_right fun hleft => ?_
  obtain ⟨hne, hbeginning, hsilent⟩ := hleft
  exact ⟨hne, hbeginning.trans (List.prefix_append _ _), hsilent⟩

/-- A run of which somebody has taken in the end, and that still takes steps, did not go away. -/
theorem Cause.step {u : Thread Unit} {l : Link} {queued : Continuation → Bool}
    {shared shared' : Surroundings} (h : Cause H s r o) (hw : s.worker? r = some w)
    (hs : w.thread.step queued w.link shared = some (u, l, shared')) : Cause (H ++ ns) t r o := by
  cases h with
  | reported h => exact .reported (List.mem_append_left _ h)
  | lost ho h =>
      obtain ⟨v, hv, hcrash⟩ := h
      cases hw.symm.trans hv
      rw [hcrash] at hs
      cases hs
  | refused reason ho h => exact .refused reason ho (List.mem_append_left _ h)

/-- What a run says is nothing with which the host ends a run. -/
theorem Entry.isFinal (hentry : Entry r w l ns new)
    (hconf : ∃ stage, w.thread.Conforms Stage.isOver stage) : ∀ m ∈ new, m.isFinal = false := by
  intro m hm
  obtain ⟨k, hask⟩ := hentry.asked m hm
  obtain ⟨stage, hconf⟩ := hconf
  rw [hask] at hconf
  have hallowed := hconf.of_ask.1
  cases stage <;> first | exact hallowed | exact hallowed.elim

end Steps

namespace Ledger

variable {H : List Note} {s t : Session} {phase phase' : HostPhase}

/-- The books of a run that takes a step. -/
theorem books_step {r : RunId} {w : Worker} {u : Thread Unit} {l : Link}
    {new : List WorkerMessage} (hbooks : Books H ⟨s, phase⟩ r) (hS : Sound ⟨s, phase⟩)
    (hw : s.worker? r = some w)
    (hstep : w.thread.step s.isQueued w.link s.surroundings = some (u, l, t.surroundings))
    (hentry : Entry r w l (s.stepNotes r) new) (hi : t.interpreter = s.interpreter)
    (hself : t.worker? r = some ⟨l, u⟩) : Books (H ++ s.stepNotes r) ⟨t, phase⟩ r := by
  have hbox : t.box r = s.box r := by simp only [Session.box, hi]
  have hcurrent : t.current? = s.current? := by simp only [Session.current?, hi]
  have hstarted : t.worker? r ≠ none := by simp [hself]
  constructor
  · exact fun hnone => absurd hnone hstarted
  · intro m hm
    rw [hentry.posted_append, List.mem_append] at hm
    exact hm.elim (hbooks.plain m) (hentry.isFinal (hS.conforms hw) m)
  · intro w' hc hw'
    cases hself.symm.trans hw'
    exact (hbooks.running w (hcurrent ▸ hc) hw).step hentry hbox u
  · intro o ho
    have hclosed := hbooks.collected o (hentry.of_collected ho)
    have hnew : new = [] := Decidable.byContradiction fun hne =>
      hclosed.bygone (hS.current_of_isOpen hw (hentry.isOpen hne))
    subst hnew
    exact hclosed.step hentry hbox hcurrent hstarted (hclosed.truly.step hw hstep)
  · exact fun ha => (hbooks.abandoned (hentry.of_abandoned ha)).step hentry hbox hcurrent hstarted
  · intro _ hne
    exact (hbooks.settled (by simp [hw]) (hcurrent ▸ hne)).imp
      (Exists.imp fun _ => List.mem_append_left _) (List.mem_append_left _)
  · exact fun hf hc => List.mem_append_left _ (hbooks.told hf (hcurrent ▸ hc))

/-- A step of a thread. -/
theorem thread (h : Ledger H ⟨s, phase⟩) (hS : Sound ⟨s, phase⟩) {r : RunId}
    (hs : s.advanceRun r = some t) : Ledger (H ++ s.stepNotes r) ⟨t, phase⟩ := by
  obtain ⟨w, u, l, hw, hstep, hi, hview⟩ := Session.advanceRun_some hs
  obtain ⟨new, hentry⟩ := step_books hw hstep
  refine ⟨?_, ?_, fun r' => ?_⟩
  · rw [handedOut_append, hentry.handedOut, List.append_nil, hi]
    exact h.ordered
  · rw [handedOut_append, hentry.handedOut, List.append_nil]
    simp only [Session.newest, hi]
    exact h.bounded
  by_cases hr : r' = r
  · subst hr
    exact books_step (h.books r') hS hw hstep hentry hi ((hview r').trans (if_pos rfl))
  · refine (h.books r').congr ⟨?_, hentry.heard_append r', by simp only [Session.box, hi],
      by simp only [Session.current?, hi], ⟨id, ?_, fun _ _ => rfl⟩,
      ⟨s.stepNotes r, rfl, hentry.collected r', hentry.abandoned r'⟩, fun _ => rfl, id⟩
    · rw [posted_append, hentry.others r' hr, List.append_nil]
    · rw [hview, if_neg hr]
      cases s.worker? r' <;> rfl

/-! ### Moves that leave all books alone -/

/-- A move that notes nothing and changes neither the outbox, nor who is current, nor
the channel of that run. -/
theorem idle (h : Ledger H ⟨s, phase⟩) (houtbox : t.interpreter.outbox = s.interpreter.outbox)
    (hnewest : t.newest = s.newest) (hcurrent : t.current? = s.current?)
    (hworker : ∀ r, ∃ f : Link → Link, t.worker? r = (s.worker? r).map (·.onLink f) ∧
      (t.current? = some r → ∀ l, (f l).events = l.events))
    (hflagged : s.current? ≠ none → phase'.isFlagged = phase.isFlagged)
    (hgone : phase.isGone = true → phase'.isGone = true) : Ledger H ⟨t, phase'⟩ := by
  refine ⟨houtbox ▸ h.ordered, ?_, fun r => ?_⟩
  · simp only [houtbox, hnewest]
    exact h.bounded
  · refine (h.books r).congr ⟨rfl, rfl, ?_, by rw [hcurrent], hworker r,
      ⟨[], by simp, by simp, by simp⟩, fun hc => hflagged (by simp [hc]), hgone⟩
    simp only [Session.box, houtbox]

/-- The links stay as they are. -/
theorem worker_id (hview : ∀ r, t.worker? r = s.worker? r) (r : RunId) :
    ∃ f : Link → Link, t.worker? r = (s.worker? r).map (·.onLink f) ∧
      (t.current? = some r → ∀ l, (f l).events = l.events) := by
  refine ⟨id, ?_, fun _ _ => rfl⟩
  rw [hview]
  cases s.worker? r <;> rfl

/-- The link of the current run changes, and not its channel. -/
theorem worker_onCurrent {f : Link → Link} (hf : Link.KeepsRun f)
    (hevents : ∀ l, (f l).events = l.events) (r : RunId) :
    ∃ g : Link → Link, (s.onCurrent f).worker? r = (s.worker? r).map (·.onLink g) ∧
      ((s.onCurrent f).current? = some r → ∀ l, (g l).events = l.events) := by
  rw [Session.worker?_onCurrent hf]
  split
  · exact ⟨f, rfl, fun _ => hevents⟩
  · exact ⟨id, by cases s.worker? r <;> rfl, fun _ _ => rfl⟩

theorem isGone_of_isPlain (hp : Sound.isPlain phase = true) : phase.isGone = false := by
  cases phase <;> simp [Sound.isPlain] at hp <;> rfl

/-- A move between plain phases that leaves the runs alone. -/
theorem plain (h : Ledger H ⟨s, phase⟩) (hp : Sound.isPlain phase = true)
    (hp' : Sound.isPlain phase' = true) (houtbox : t.interpreter.outbox = s.interpreter.outbox)
    (hnewest : t.newest = s.newest) (hcurrent : t.current? = s.current?)
    (hview : ∀ r, t.worker? r = s.worker? r) : Ledger H ⟨t, phase'⟩ := by
  obtain ⟨hf, -, -, -, -⟩ := Sound.flags_of_isPlain hp
  obtain ⟨hf', -, -, -, -⟩ := Sound.flags_of_isPlain hp'
  refine h.idle houtbox hnewest hcurrent (worker_id hview) (fun _ => hf'.trans hf.symm) ?_
  simp [isGone_of_isPlain hp]

end Ledger

end System

end FilterScript
