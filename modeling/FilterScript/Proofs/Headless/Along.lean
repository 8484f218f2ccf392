/-
Where a run is in the behaviour of its script.

The host of a headless run knows how many frames it has delivered, and the thread of the
run knows how often it was woken.  The two agree, except between the moment at which a
frame is delivered and the one at which the thread goes on.  `Along` says where the
thread is in its behaviour, given the number of frames, and what it has posted so far.

A step of the run leads from one place in its behaviour to the next, and nothing else
moves it.
-/
import FilterScript.Proofs.Headless.Behaviour
import FilterScript.Proofs.Interpreter.Reached

namespace FilterScript

/-- A script whose behaviour is known: the values of the widgets while it runs, and its
thread at the start of each segment. -/
structure Course where
  behaviour : Behaviour
  value? : String → Option Widget.Value
  start : Nat → Thread Unit
  follows : behaviour.Follows value? start

/-- Where the thread of a run is in its behaviour, when so many frames were delivered
to it. -/
inductive Along (c : Course) (r : RunId) (H : List Note) (w : Worker) : Nat → Prop where
  /-- It has yet to post `rest` before it halts. -/
  | working {n : Nat} (halt : Halt) (rest : List WorkerMessage)
      (hrest : Stretch c.value? w.thread rest halt) (hhalts : c.behaviour.Halts c.start n halt)
      (hposted : posted r H ++ rest = c.behaviour.posts n) (hsilent : ∀ o, .reported r o ∉ H) :
      Along c r H w n
  | parked {n : Nat} (k : Option Resume → Thread Unit) (hthread : w.thread = .ask .await k)
      (hhalts : c.behaviour.Halts c.start n (.parked k))
      (hposted : posted r H = c.behaviour.posts n) (hsilent : ∀ o, .reported r o ∉ H)
      (hsignal : w.link.signal = none) : Along c r H w n
  /-- A frame was delivered, and the thread has not gone on yet. -/
  | woken {n : Nat} (k : Option Resume → Thread Unit) (hthread : w.thread = .ask .await k)
      (hhalts : c.behaviour.Halts c.start n (.parked k))
      (hposted : posted r H = c.behaviour.posts n) (hsilent : ∀ o, .reported r o ∉ H)
      (hsignal : w.link.signal = some .frame) : Along c r H w (n + 1)
  | ended {n : Nat} (o : Outcome) (hover : w.thread.Conforms Stage.isOver .ended)
      (hhalts : c.behaviour.Halts c.start n (.ended o))
      (hposted : posted r H = c.behaviour.posts n) (honly : ∀ o', .reported r o' ∈ H → o' = o) :
      Along c r H w n

section Notes

variable {r : RunId} {H B : List Note}

theorem posted_append_of_isBy (h : ∀ n ∈ B, n.isBy r = false) :
    posted r (H ++ B) = posted r H := by
  rw [posted_append, System.posted_of_isBy h, List.append_nil]

theorem reported_of_isBy {o : Outcome} (h : ∀ n ∈ B, n.isBy r = false)
    (ho : .reported r o ∈ H ++ B) : .reported r o ∈ H := by
  refine (List.mem_append.mp ho).resolve_right fun hmem => ?_
  have hother := h _ hmem
  simp [Note.isBy] at hother

end Notes

/-! ### One request

What follows is all that is needed of the requests one by one: whatever a thread that is
in a stretch asks for, the reply either says nothing, or says the next message of the
stretch, or ends it.
-/

/-- What a reply makes of a stretch: the thread is at `t` then, the link is `l`, and `ns`
is noted. -/
inductive Stretch.Next (value? : String → Option Widget.Value) (r : RunId) (q : Request)
    (x : q.Reply) (t : Thread Unit) (l : Link) (ns : List Note) :
    List WorkerMessage → Halt → Prop where
  | quiet {rest : List WorkerMessage} {halt : Halt} (h : Stretch value? t rest halt)
      (hnothing : posted r ns = []) (hnone : ∀ o, .reported r o ∉ ns) :
      Next value? r q x t l ns rest halt
  | said {halt : Halt} (m : WorkerMessage) (rest : List WorkerMessage)
      (h : Stretch value? t rest halt) (hns : ns = [.said r m]) :
      Next value? r q x t l ns (m :: rest) halt
  | parked (j : Option Resume → Thread Unit) (hthread : t = .ask .await j) (hns : ns = [])
      (hsignal : l.signal = none) : Next value? r q x t l ns [] (.parked j)
  | ended (o : Outcome) (hns : ns = [.reported r o])
      (hstage : ∀ stage : Stage, stage.after q x = .ended) : Next value? r q x t l ns [] (.ended o)

/-- **Every reply leads on in the stretch, or to its end.** -/
theorem Stretch.next {value? : String → Option Widget.Value} {r : RunId} {q : Request}
    {k : q.Reply → Thread Unit} {rest : List WorkerMessage} {halt : Halt}
    {queued : Continuation → Bool} {link l : Link} {around shared : Surroundings} {x : q.Reply}
    (h : Stretch value? (.ask q k) rest halt)
    (ha : q.answer queued link around = some (x, l, shared)) (hopen : link.isOpen = true)
    (hcancelled : link.isCancelled = false)
    (hvalues : ∀ name, around.widgets.value? name = value? name) :
    Stretch.Next value? r q x (k x) l (Note.ofReply r q x) rest halt := by
  cases h with
  | look h =>
      cases ha
      exact .quiet (hcancelled ▸ h) rfl (by simp [Note.ofReply])
  | post m h =>
      cases ha
      rw [hopen]
      exact .said m _ h rfl
  | declare name h =>
      cases ha
      exact .quiet h rfl (by simp [Note.ofReply])
  | widgetValue name h =>
      cases ha
      exact .quiet (hvalues name ▸ h) rfl (by simp [Note.ofReply])
  | elapsed h => exact .quiet (h x) rfl (by simp [Note.ofReply])
  | delta h => exact .quiet (h x) rfl (by simp [Note.ofReply])
  | pause time h =>
      cases ha
      exact .quiet h rfl (by simp [Note.ofReply])
  | log record h =>
      cases ha
      exact .quiet h rfl (by simp [Note.ofReply])
  | suspend h =>
      cases ha
      refine .parked _ (hopen ▸ h) rfl ?_
      simp only [Link.suspend, Link.send]
      split <;> rfl
  | finish o =>
      cases ha
      exact .ended o rfl fun stage => by cases stage <;> rfl

namespace Along

variable {c : Course} {r : RunId} {H B : List Note} {w w' : Worker} {n : Nat}

/-- What the run itself has no part in leaves it where it is: its thread is the same,
and so is its signal, unless the thread has ended. -/
theorem congr (h : Along c r H w n) (hthread : w'.thread = w.thread)
    (hsignal : w'.link.signal = w.link.signal ∨
      w.thread = .crash ∨ w.thread.Conforms Stage.isOver .ended)
    (hB : ∀ n ∈ B, n.isBy r = false) : Along c r (H ++ B) w' n := by
  have hposted := posted_append_of_isBy (H := H) hB
  have hreported : ∀ o, .reported r o ∈ H ++ B → .reported r o ∈ H := fun o =>
    reported_of_isBy hB
  -- A thread that waits has not ended, so its signal is the same.
  have hsame : ∀ k, w.thread = .ask .await k → w'.link.signal = w.link.signal := by
    intro k hk
    rcases hsignal with hsame | hcrash | hover
    · exact hsame
    · rw [hk] at hcrash
      cases hcrash
    · rw [hk] at hover
      exact hover.of_ask.1.elim
  cases h with
  | working halt rest hrest hhalts hpart hsilent =>
      refine .working halt rest (hthread ▸ hrest) hhalts (hposted ▸ hpart) fun o ho => ?_
      exact hsilent o (hreported o ho)
  | parked k hk hhalts hpart hsilent hnone =>
      refine .parked k (hthread.trans hk) hhalts (hposted.trans hpart) (fun o ho => ?_)
        ((hsame k hk).trans hnone)
      exact hsilent o (hreported o ho)
  | woken k hk hhalts hpart hsilent hframe =>
      refine .woken k (hthread.trans hk) hhalts (hposted.trans hpart) (fun o ho => ?_)
        ((hsame k hk).trans hframe)
      exact hsilent o (hreported o ho)
  | ended o hover hhalts hpart honly =>
      exact .ended o (hthread ▸ hover) hhalts (hposted.trans hpart) fun o' ho =>
        honly o' (hreported o' ho)

/-- A run that has reported how it ended has no step. -/
theorem step_eq_none_of_reported {queued : Continuation → Bool} {shared : Surroundings}
    {o : Outcome} (h : Along c r H w n) (ho : .reported r o ∈ H) :
    w.thread.step queued w.link shared = none := by
  cases h with
  | working halt rest hrest hhalts hpart hsilent => exact absurd ho (hsilent o)
  | parked k hk hhalts hpart hsilent hnone => exact absurd ho (hsilent o)
  | woken k hk hhalts hpart hsilent hframe => exact absurd ho (hsilent o)
  | ended o hover hhalts hpart honly => exact Standing.step_over hover

variable {s t : Session} {u : Thread Unit} {l : Link} {shared : Surroundings}
  {queue : List Continuation} {stage : Stage}

/-- **A step of a run that works leads on in its segment, or to its end.** -/
theorem step_working {link : Link} {thread : Thread Unit} {halt : Halt}
    {rest : List WorkerMessage} (hrest : Stretch c.value? thread rest halt)
    (hhalts : c.behaviour.Halts c.start n halt)
    (hposted : posted r H ++ rest = c.behaviour.posts n) (hsilent : ∀ o, .reported r o ∉ H)
    (hw : s.worker? r = some ⟨link, thread⟩) (hconf : thread.Conforms Stage.isOver stage)
    (hopen : link.isOpen = true) (hcancelled : link.isCancelled = false)
    (hvalues : ∀ name, s.surroundings.widgets.value? name = c.value? name)
    (hs : thread.step s.isQueued link s.surroundings = some (u, l, shared)) :
    Along c r (H ++ s.stepNotes r) ⟨l, u⟩ n := by
  rcases Thread.step_cases hs with ⟨rfl, -⟩ | ⟨q, k, x, rfl, rfl, ha⟩
  · cases hrest
  rw [Session.stepNotes_of_answer hw rfl ha]
  cases hrest.next (r := r) ha hopen hcancelled hvalues with
  | quiet h hnothing hnone =>
      refine .working halt rest h hhalts ?_ fun o ho => ?_
      · rw [posted_append, hnothing, List.append_nil]
        exact hposted
      · exact (List.mem_append.mp ho).elim (hsilent o) (hnone o)
  | said m rest h hns =>
      rw [hns]
      refine .working halt rest h hhalts ?_ fun o ho => hsilent o (by simpa using ho)
      have hsaid : posted r [.said r m] = [m] := by simp [posted, Note.said?]
      rw [posted_append, List.append_assoc, hsaid]
      exact hposted
  | parked j hthread hns hsignal =>
      rw [hns, List.append_nil]
      exact .parked j hthread hhalts (by simpa using hposted) hsilent hsignal
  | ended o hns hstage =>
      have hended := hconf.of_ask.2 x
      rw [show Stage.protocol.after stage q x = .ended from hstage stage] at hended
      rw [hns]
      refine .ended o hended hhalts ?_ fun o' ho => ?_
      · rw [posted_append, show posted r [.reported r o] = [] from rfl]
        exact hposted
      · rcases List.mem_append.mp ho with ho | ho
        · exact absurd ho (hsilent o')
        · simpa using ho

/-- A step of a run that waits is that it goes on with its frame. -/
theorem step_waiting {link : Link} {thread : Thread Unit} {k : Option Resume → Thread Unit}
    (hthread : thread = .ask .await k) (hhalts : c.behaviour.Halts c.start n (.parked k))
    (hposted : posted r H = c.behaviour.posts n) (hsilent : ∀ o, .reported r o ∉ H)
    (hsignal : link.signal = some .frame) (hw : s.worker? r = some ⟨link, thread⟩)
    (hs : thread.step s.isQueued link s.surroundings = some (u, l, shared)) :
    Along c r (H ++ s.stepNotes r) ⟨l, u⟩ (n + 1) := by
  subst hthread
  have hnotes : s.stepNotes r = [] := by simp only [Session.stepNotes, hw]
  simp only [Thread.step, Request.answer, hsignal, Option.map_some, Option.some.injEq,
    Prod.mk.injEq] at hs
  obtain ⟨rfl, -, -⟩ := hs
  obtain ⟨hnext, hreaches⟩ := hhalts
  obtain ⟨halt, hstretch, hhalts'⟩ := c.follows (n + 1) hreaches
  rw [hnotes, List.append_nil]
  refine .working halt _ (hnext ▸ hstretch) hhalts' ?_ hsilent
  rw [hposted]
  rfl

/-- **A step of the current run leads on in its behaviour.** -/
theorem step (h : Along c r H w n) (hw : s.worker? r = some w)
    (hconf : w.thread.Conforms Stage.isOver stage) (hst : Standing w.link s.queue stage)
    (hopen : w.link.isOpen = true) (hcancelled : w.link.isCancelled = false)
    (hvalues : ∀ name, s.surroundings.widgets.value? name = c.value? name)
    (hs : w.thread.step s.isQueued w.link s.surroundings = some (u, l, shared)) :
    Along c r (H ++ s.stepNotes r) ⟨l, u⟩ n := by
  cases h with
  | working halt rest hrest hhalts hposted hsilent =>
      exact step_working hrest hhalts hposted hsilent hw hconf hopen hcancelled hvalues hs
  | parked k hk hhalts hposted hsilent hsignal =>
      -- It has no signal, and somebody has its continuation, so there is no step.
      rw [hk] at hconf hs
      cases Standing.eq_parked_of_allows hconf.of_ask.1
      rcases Thread.step_cases hs with ⟨hspin, -⟩ | ⟨q, k', x, hask, -, ha⟩
      · cases hspin
      · cases hask
        rw [(Standing.woken_of_answer hst (fun _ => rfl) hopen ha).2.2] at hsignal
        cases hsignal
  | woken k hk hhalts hposted hsilent hsignal =>
      exact step_waiting hk hhalts hposted hsilent hsignal hw hs
  | ended o hover hhalts hposted honly =>
      rw [Standing.step_over hover] at hs
      cases hs

/-- A run that waits without a signal has posted what it posts before that. -/
theorem of_waiting {k : Option Resume → Thread Unit} (h : Along c r H w n)
    (hthread : w.thread = .ask .await k) (hsignal : w.link.signal = none) :
    c.behaviour.Halts c.start n (.parked k) ∧ posted r H = c.behaviour.posts n ∧
      ∀ o, .reported r o ∉ H := by
  cases h with
  | working halt rest hrest =>
      rw [hthread] at hrest
      cases hrest
  | parked k' hk hhalts hposted hsilent =>
      cases hk.symm.trans hthread
      exact ⟨hhalts, hposted, hsilent⟩
  | woken k' hk hhalts hposted hsilent hframe =>
      rw [hframe] at hsignal
      cases hsignal
  | ended o hover =>
      rw [hthread] at hover
      exact hover.of_ask.1.elim

end Along

end FilterScript
