/-
Every wait is answered once, and never by a frame of another run.

The scheduler is looked at on its own, under any operations in any order: runs begin and end, their
numbers may come back, anybody may hand in a continuation, frames tick, and whoever waits may take
his signal or walk away before or after it is sent.  A course keeps beside the scheduler what was
handed in, what was sent, and the channels with room for one signal.

`Settled` is the invariant.  Its heart is one line: those who were sent a signal and those who are
pending are together, each once, those who were handed in.  What was sent twice, or was sent and is
still pending, would be too many.  The channels never fill because of it: nobody is sent a second
signal, so no operation waits for room.
-/
import FilterScript.Scheduler
import Mathlib.Data.List.Induction
import Mathlib.Data.List.Nodup
import Mathlib.Logic.Function.Basic

namespace FilterScript
namespace Scheduler

/-- What is done with the scheduler, and what those who wait do. -/
inductive Operation where
  | start (run : RunId)
  | stop
  /-- A continuation of any run is handed in. -/
  | suspend (run : RunId)
  | tick
  /-- Whoever waits takes what lies in his channel. -/
  | take (waiter : Nat)
  /-- Whoever waits walks away. -/
  | depart (waiter : Nat)
deriving DecidableEq, Repr

/-- Whether an operation empties the queue. -/
def Operation.empties : Operation → Bool
  | start _ => true
  | stop => true
  | tick => true
  | _ => false

/-- The channel of one wait: what lies in it, and whether somebody waits at its end. -/
structure Inbox where
  content : List Resume
  isOpen : Bool
deriving DecidableEq, Repr

namespace Inbox

/-- The channel of somebody who just began to wait. -/
def fresh : Inbox := ⟨[], true⟩

/-- How many signals a channel holds. -/
def room : Nat := 1

/-- Sends a signal.  At a full channel the sender has to wait; without anybody at its end the signal
is lost. -/
def send (i : Inbox) (r : Resume) : Option Inbox :=
  if i.isOpen then
    if i.content.length < room then some { i with content := i.content ++ [r] } else none
  else some i

/-- Takes the oldest signal. -/
def take (i : Inbox) : Inbox := { i with content := i.content.drop 1 }

/-- Walks away; what lies in the channel is lost. -/
def depart (_ : Inbox) : Inbox := ⟨[], false⟩

end Inbox

/-- A scheduler with what happened so far: who was handed in, the channels, and what was sent. -/
structure Course where
  scheduler : Scheduler
  handed : List Continuation
  inboxes : Nat → Inbox
  sent : List Wakeup

namespace Course

/-- Before anything happens. -/
def new : Course := ⟨idle, [], fun _ => .fresh, []⟩

/-- Changes one channel. -/
def onInbox (C : Course) (waiter : Nat) (f : Inbox → Inbox) : Course :=
  { C with inboxes := Function.update C.inboxes waiter (f (C.inboxes waiter)) }

/-- Sends one signal. -/
def send (C : Course) (w : Wakeup) : Option Course :=
  ((C.inboxes w.continuation.waiter).send w.resume).map fun i =>
    { C with
      inboxes := Function.update C.inboxes w.continuation.waiter i
      sent := C.sent ++ [w] }

/-- Sends the signals of an operation, one after the other. -/
def sendAll (C : Course) : List Wakeup → Option Course
  | [] => some C
  | w :: ws => (C.send w).bind fun D => D.sendAll ws

/-- The continuation that is handed in next; its number is its own. -/
def next (C : Course) (run : RunId) : Continuation := ⟨run, C.handed.length⟩

/-- The continuations that an operation hands in. -/
def arrivals (C : Course) : Operation → List Continuation
  | .suspend run => [C.next run]
  | _ => []

/-- What an operation does to the scheduler, and the signals it sends. -/
def act (C : Course) : Operation → Scheduler × List Wakeup
  | .start run => C.scheduler.start run
  | .stop => C.scheduler.stop
  | .suspend run => C.scheduler.suspend (C.next run)
  | .tick => C.scheduler.tick
  | .take _ => (C.scheduler, [])
  | .depart _ => (C.scheduler, [])

/-- What those who wait do to the channels. -/
def receive (C : Course) : Operation → Course
  | .take waiter => C.onInbox waiter .take
  | .depart waiter => C.onInbox waiter .depart
  | _ => C

/-- One operation.  No result means that it waits for room in a channel. -/
def step (C : Course) (op : Operation) : Option Course :=
  let D := C.receive op
  sendAll { D with scheduler := (C.act op).1, handed := C.handed ++ C.arrivals op } (C.act op).2

/-- What an operation answers: a beginning how many were pending, a tick how many it resolved. -/
def answer (C : Course) : Operation → Option Nat
  | .start _ => some C.scheduler.pending.length
  | .tick => some C.scheduler.tick.2.length
  | _ => none

/-- Operations one after the other. -/
def run (C : Course) : List Operation → Option Course
  | [] => some C
  | op :: ops => (C.step op).bind fun D => D.run ops

/-- The signals that a continuation was sent, the oldest first. -/
def signals (C : Course) (c : Continuation) : List Resume :=
  (C.sent.filter (·.continuation = c)).map (·.resume)

/-- Those who were sent a signal of a kind, in the order of sending. -/
def reached (C : Course) (r : Resume) : List Continuation :=
  (C.sent.filter (·.resume = r)).map (·.continuation)

end Course

/-- What happens to a scheduler from its beginning. -/
def course (ops : List Operation) : Option Course := Course.new.run ops

namespace Course

variable {C D : Course} {op : Operation} {c : Continuation} {n : Nat}

/-! ### One operation -/

/-- A signal to somebody whose channel is empty gets through, and changes nothing else. -/
theorem send_of_empty {w : Wakeup} (empty : (C.inboxes w.continuation.waiter).content = []) :
    ∃ i, C.send w = some
      { C with
        inboxes := Function.update C.inboxes w.continuation.waiter i
        sent := C.sent ++ [w] } ∧
      ((C.inboxes w.continuation.waiter).isOpen → i = ⟨[w.resume], true⟩) := by
  by_cases isOpen : (C.inboxes w.continuation.waiter).isOpen
  · refine ⟨⟨[w.resume], true⟩, ?_, fun _ => rfl⟩
    simp [send, Inbox.send, isOpen, empty, Inbox.room]
  · refine ⟨C.inboxes w.continuation.waiter, ?_, fun there => absurd there isOpen⟩
    simp only [send, Inbox.send, if_neg isOpen, Option.map_some]

/-- What came out of sending some signals. -/
structure Sent (C : Course) (ws : List Wakeup) (D : Course) : Prop where
  scheduler : D.scheduler = C.scheduler
  handed : D.handed = C.handed
  sent : D.sent = C.sent ++ ws
  /-- Whoever gets no signal has the channel he had. -/
  others : ∀ n, (∀ w ∈ ws, w.continuation.waiter ≠ n) → D.inboxes n = C.inboxes n
  /-- Whoever gets one, and is still there, finds it. -/
  found : ∀ w ∈ ws, (C.inboxes w.continuation.waiter).isOpen →
    D.inboxes w.continuation.waiter = ⟨[w.resume], true⟩

/-- Signals to different channels, all of them empty, get through. -/
theorem exists_sendAll {ws : List Wakeup} (apart : (ws.map (·.continuation.waiter)).Nodup)
    (empty : ∀ w ∈ ws, (C.inboxes w.continuation.waiter).content = []) :
    ∃ D, C.sendAll ws = some D ∧ Sent C ws D := by
  induction ws generalizing C with
  | nil => exact ⟨C, rfl, rfl, rfl, (List.append_nil _).symm, fun _ _ => rfl, by simp⟩
  | cons w ws ih =>
      rw [List.map_cons, List.nodup_cons] at apart
      obtain ⟨new, apart⟩ := apart
      obtain ⟨i, hs, hi⟩ := send_of_empty (empty w List.mem_cons_self)
      have kept : ∀ v ∈ ws, v.continuation.waiter ≠ w.continuation.waiter :=
        fun v hv same => new (List.mem_map.2 ⟨v, hv, same⟩)
      have elsewhere : ∀ v ∈ ws, Function.update C.inboxes w.continuation.waiter i
          v.continuation.waiter = C.inboxes v.continuation.waiter :=
        fun v hv => Function.update_of_ne (kept v hv) ..
      obtain ⟨D, hD, after⟩ := @ih
        { C with
          inboxes := Function.update C.inboxes w.continuation.waiter i
          sent := C.sent ++ [w] } apart fun v hv =>
        (congrArg Inbox.content (elsewhere v hv)).trans (empty v (List.mem_cons_of_mem _ hv))
      refine ⟨D, by rw [sendAll, hs, Option.bind_some, hD], after.scheduler, after.handed, ?_,
        fun n hn => ?_, fun v hv there => ?_⟩
      · rw [after.sent, List.append_assoc, List.singleton_append]
      · rw [after.others n fun v hv => hn v (List.mem_cons_of_mem _ hv)]
        exact Function.update_of_ne (hn w List.mem_cons_self).symm ..
      · rcases List.mem_cons.1 hv with rfl | hv
        · rw [after.others _ kept]
          exact (Function.update_self ..).trans (hi there)
        · exact after.found v hv ((congrArg Inbox.isOpen (elsewhere v hv)).trans there)

/-- The invariant of a course. -/
structure Settled (C : Course) : Prop where
  /-- Everybody who was handed in has a number of his own. -/
  numbered : C.handed.map (·.waiter) = List.range C.handed.length
  /-- Whoever was handed in was sent one signal or is pending, and not both. -/
  placed : (C.sent.map (·.continuation) ++ C.scheduler.pending).Perm C.handed
  /-- Frames come in the order of arrival, and those who are pending are next. -/
  ordered : (C.reached .frame ++ C.scheduler.pending).Sublist C.handed
  /-- Whoever is pending belongs to the current run. -/
  current : ∀ c ∈ C.scheduler.pending, C.scheduler.running = some c.run
  /-- Nothing lies in a channel that no signal was sent to. -/
  quiet : ∀ n, (∀ w ∈ C.sent, w.continuation.waiter ≠ n) → (C.inboxes n).content = []

namespace Settled

theorem new : Settled Course.new :=
  ⟨rfl, .refl _, .refl _, nofun, fun _ _ => rfl⟩

/-- The numbers of those who were sent a signal and of those who are pending. -/
theorem waiters (settled : C.Settled) :
    (C.sent.map (·.continuation.waiter) ++ C.scheduler.pending.map (·.waiter)).Perm
      (List.range C.handed.length) := by
  have h := settled.placed.map (·.waiter)
  rwa [List.map_append, List.map_map, settled.numbered] at h

theorem nodup (settled : C.Settled) : C.handed.Nodup :=
  List.Nodup.of_map (·.waiter) (settled.numbered ▸ List.nodup_range)

theorem mem_of_sent (settled : C.Settled) {w : Wakeup} (h : w ∈ C.sent) :
    w.continuation ∈ C.handed :=
  settled.placed.subset (List.mem_append_left _ (List.mem_map_of_mem h))

theorem mem_of_pending (settled : C.Settled) (h : c ∈ C.scheduler.pending) : c ∈ C.handed :=
  settled.placed.subset (List.mem_append_right _ h)

/-- No number from the next one on was given away. -/
theorem lt_of_sent (settled : C.Settled) {w : Wakeup} (h : w ∈ C.sent) :
    w.continuation.waiter < C.handed.length := by
  have member := settled.waiters.subset (List.mem_append_left _ (List.mem_map_of_mem h))
  exact List.mem_range.1 member

/-- Nothing lies in the channel of somebody who is pending. -/
theorem empty_of_pending (settled : C.Settled) (h : c ∈ C.scheduler.pending) :
    (C.inboxes c.waiter).content = [] := by
  refine settled.quiet _ fun w hw same => ?_
  have apart := (settled.waiters.nodup_iff.2 List.nodup_range)
  rw [List.nodup_append] at apart
  exact apart.2.2 _ (List.mem_map_of_mem hw) _ (List.mem_map_of_mem h) same

end Settled

/-- Who takes or leaves changes only his channel, and puts nothing into it. -/
theorem receive_keeps (C : Course) (op : Operation) :
    (C.receive op).sent = C.sent ∧
      (∀ n, (C.inboxes n).content = [] → ((C.receive op).inboxes n).content = []) ∧
      ∀ n, op ≠ .take n → op ≠ .depart n → (C.receive op).inboxes n = C.inboxes n := by
  have update {waiter : Nat} {f : Inbox → Inbox} (hf : ∀ i, i.content = [] → (f i).content = []) :
      ∀ n, (C.inboxes n).content = [] → ((C.onInbox waiter f).inboxes n).content = [] := by
    intro n empty
    by_cases same : n = waiter
    · subst same
      exact (congrArg Inbox.content (Function.update_self ..)).trans (hf _ empty)
    · exact (congrArg Inbox.content (Function.update_of_ne same ..)).trans empty
  cases op with
  | take waiter =>
      refine ⟨rfl, update fun i empty => ?_, fun n other _ => ?_⟩
      · rw [Inbox.take, empty, List.drop_nil]
      · exact Function.update_of_ne (fun same => other (congrArg _ same.symm)) ..
  | depart waiter =>
      refine ⟨rfl, update fun _ _ => rfl, fun n _ other => ?_⟩
      exact Function.update_of_ne (fun same => other (congrArg _ same.symm)) ..
  | _ => exact ⟨rfl, fun _ empty => empty, fun _ _ _ => rfl⟩

/-- What an operation sends: a signal each to those who are pending, or one to who just came. -/
theorem act_sends (C : Course) (op : Operation) :
    (op.empties ∧ C.arrivals op = [] ∧ (C.act op).1.pending = [] ∧
        ∃ r, (C.act op).2 = wake r C.scheduler.pending ∧ (r = .frame ↔ op = .tick)) ∨
      (∃ run, op = .suspend run ∧ C.scheduler.running = some run ∧
        C.act op = ({ C.scheduler with pending := C.scheduler.pending ++ [C.next run] }, [])) ∨
      (∃ run, op = .suspend run ∧ C.scheduler.running ≠ some run ∧
        C.act op = (C.scheduler, [⟨C.next run, .cancelled⟩])) ∨
      (¬ op.empties ∧ C.arrivals op = [] ∧ C.act op = (C.scheduler, [])) := by
  cases op with
  | start run => exact .inl ⟨rfl, rfl, rfl, .cancelled, rfl, nofun, nofun⟩
  | stop => exact .inl ⟨rfl, rfl, rfl, .cancelled, rfl, nofun, nofun⟩
  | tick => exact .inl ⟨rfl, rfl, rfl, .frame, rfl, fun _ => rfl, fun _ => rfl⟩
  | suspend run =>
      by_cases current : C.scheduler.running = some run
      · exact .inr (.inl ⟨run, rfl, current, if_pos current⟩)
      · exact .inr (.inr (.inl ⟨run, rfl, current, if_neg current⟩))
  | take waiter => exact .inr (.inr (.inr ⟨nofun, rfl, rfl⟩))
  | depart waiter => exact .inr (.inr (.inr ⟨nofun, rfl, rfl⟩))

/-- What an operation leaves behind. -/
structure After (C : Course) (op : Operation) (D : Course) : Prop where
  scheduler : D.scheduler = (C.act op).1
  handed : D.handed = C.handed ++ C.arrivals op
  sent : D.sent = C.sent ++ (C.act op).2
  /-- Whoever gets no signal has the channel he had, up to what he took himself. -/
  others : ∀ n, (∀ w ∈ (C.act op).2, w.continuation.waiter ≠ n) →
    D.inboxes n = (C.receive op).inboxes n
  /-- Whoever gets one, and is still there, finds it. -/
  found : ∀ w ∈ (C.act op).2, (C.inboxes w.continuation.waiter).isOpen →
    D.inboxes w.continuation.waiter = ⟨[w.resume], true⟩

theorem map_wake (r : Resume) (cs : List Continuation) :
    (wake r cs).map (·.continuation) = cs := by
  rw [wake, List.map_map]
  exact List.map_id _

/-- A signal for all reaches all, and no other signal reaches anybody. -/
theorem reached_wake (r r' : Resume) (cs : List Continuation) :
    ((wake r cs).filter (·.resume = r')).map (·.continuation) = if r = r' then cs else [] := by
  have all : ∀ w ∈ wake r cs, w.resume = r := by
    intro w hw
    obtain ⟨c, -, rfl⟩ := List.mem_map.1 hw
    rfl
  split
  · rename_i same
    rw [List.filter_eq_self.2 fun w hw => decide_eq_true ((all w hw).trans same), map_wake]
  · rename_i other
    rw [List.filter_eq_nil_iff.2 fun w hw same =>
      other ((all w hw).symm.trans (of_decide_eq_true same)), List.map_nil]

/-- Whoever an operation sends a signal to has an empty channel, and gets only this one. -/
theorem Settled.sends (settled : C.Settled) (op : Operation) :
    ((C.act op).2.map (·.continuation.waiter)).Nodup ∧
      ∀ w ∈ (C.act op).2, (C.inboxes w.continuation.waiter).content = [] ∧
        (C.receive op).inboxes w.continuation.waiter = C.inboxes w.continuation.waiter := by
  rcases C.act_sends op with ⟨empties, -, -, r, hw, -⟩ | ⟨run, rfl, -, ha⟩ | ⟨run, rfl, -, ha⟩ |
    ⟨-, -, ha⟩
  · have apart := settled.waiters.nodup_iff.2 List.nodup_range
    rw [List.nodup_append] at apart
    rw [hw]
    refine ⟨?_, fun w hw => ?_⟩
    · rw [wake, List.map_map]
      exact apart.2.1
    · obtain ⟨c, hc, rfl⟩ := List.mem_map.1 hw
      exact ⟨settled.empty_of_pending hc, (C.receive_keeps op).2.2 _
        (fun same => by rw [same] at empties; cases empties)
        (fun same => by rw [same] at empties; cases empties)⟩
  · rw [ha]
    exact ⟨.nil, nofun⟩
  · rw [ha]
    refine ⟨List.nodup_singleton _, fun w hw => ?_⟩
    cases List.mem_singleton.1 hw
    exact ⟨settled.quiet _ fun v hv => Nat.ne_of_lt (settled.lt_of_sent hv), rfl⟩
  · rw [ha]
    exact ⟨.nil, nofun⟩

/-- No operation waits for room in a channel. -/
theorem Settled.exists_step (settled : C.Settled) (op : Operation) :
    ∃ D, C.step op = some D ∧ C.After op D := by
  obtain ⟨apart, empty⟩ := settled.sends op
  obtain ⟨D, hD, after⟩ := exists_sendAll (C := { C.receive op with
    scheduler := (C.act op).1, handed := C.handed ++ C.arrivals op }) apart
    fun w hw => (congrArg Inbox.content (empty w hw).2).trans (empty w hw).1
  refine ⟨D, hD, after.scheduler, after.handed, ?_, after.others, fun w hw there => ?_⟩
  · exact after.sent.trans (congrArg (· ++ _) (C.receive_keeps op).1)
  · exact after.found w hw ((congrArg Inbox.isOpen (empty w hw).2).trans there)

namespace After

variable (after : C.After op D)
include after

/-- Whoever an operation reaches comes behind those who were reached before. -/
theorem reached_eq (r : Resume) :
    D.reached r = C.reached r ++ (((C.act op).2.filter (·.resume = r)).map (·.continuation)) := by
  rw [reached, after.sent, List.filter_append, List.map_append]
  rfl

/-- The next number is the next one. -/
theorem numbered (settled : C.Settled) :
    D.handed.map (·.waiter) = List.range D.handed.length := by
  rw [after.handed, List.map_append, settled.numbered]
  cases op with
  | suspend run =>
      rw [arrivals, List.length_append, List.length_singleton, List.range_succ]
      rfl
  | _ => simp only [arrivals, List.append_nil, List.map_nil]

/-- Whoever is sent a signal was pending or has just come. -/
theorem placed (settled : C.Settled) :
    (D.sent.map (·.continuation) ++ D.scheduler.pending).Perm D.handed := by
  rw [after.sent, after.scheduler, after.handed, List.map_append]
  rcases C.act_sends op with ⟨-, none, cleared, r, hw, -⟩ | ⟨run, rfl, -, ha⟩ | ⟨run, rfl, -, ha⟩ |
    ⟨-, none, ha⟩
  · rw [hw, cleared, none, map_wake, List.append_nil, List.append_nil]
    exact settled.placed
  · rw [ha, List.map_nil, List.append_nil, ← List.append_assoc]
    exact settled.placed.append_right _
  · rw [ha, List.append_assoc]
    refine (List.perm_append_comm.append_left _).trans ?_
    rw [← List.append_assoc]
    exact settled.placed.append_right _
  · rw [ha, none, List.map_nil, List.append_nil, List.append_nil]
    exact settled.placed

/-- A tick reaches those who are pending, in their order; whoever comes is the last. -/
theorem ordered (settled : C.Settled) :
    (D.reached .frame ++ D.scheduler.pending).Sublist D.handed := by
  rw [after.reached_eq, after.scheduler, after.handed]
  rcases C.act_sends op with ⟨-, none, cleared, r, hw, -⟩ | ⟨run, rfl, -, ha⟩ | ⟨run, rfl, -, ha⟩ |
    ⟨-, none, ha⟩
  · rw [hw, cleared, none, reached_wake, List.append_nil, List.append_nil]
    split
    · exact settled.ordered
    · rw [List.append_nil]
      exact (List.sublist_append_left ..).trans settled.ordered
  · rw [ha, List.filter_nil, List.map_nil, List.append_nil, ← List.append_assoc]
    exact settled.ordered.append (.refl _)
  · rw [ha]
    show ((C.reached .frame ++ []) ++ C.scheduler.pending).Sublist _
    rw [List.append_nil]
    exact settled.ordered.trans (List.sublist_append_left ..)
  · rw [ha, none, List.filter_nil, List.map_nil, List.append_nil, List.append_nil]
    exact settled.ordered

/-- Only a continuation of the current run is queued. -/
theorem current (settled : C.Settled) :
    ∀ c ∈ D.scheduler.pending, D.scheduler.running = some c.run := by
  rw [after.scheduler]
  rcases C.act_sends op with ⟨-, -, cleared, -⟩ | ⟨run, -, current, ha⟩ | ⟨run, -, -, ha⟩ |
    ⟨-, -, ha⟩
  · rw [cleared]
    nofun
  · rw [ha]
    intro c hc
    rcases List.mem_append.1 hc with hc | hc
    · exact settled.current c hc
    · cases List.mem_singleton.1 hc
      exact current
  · rw [ha]
    exact settled.current
  · rw [ha]
    exact settled.current

/-- Nothing lies in a channel that no signal was sent to. -/
theorem quiet (settled : C.Settled) (n : Nat) (none : ∀ w ∈ D.sent, w.continuation.waiter ≠ n) :
    (D.inboxes n).content = [] := by
  rw [after.sent] at none
  rw [after.others n fun w hw => none w (List.mem_append_right _ hw)]
  exact (C.receive_keeps op).2.1 n
    (settled.quiet n fun w hw => none w (List.mem_append_left _ hw))

/-- Every operation keeps the invariant. -/
theorem settled (settled : C.Settled) : D.Settled where
  numbered := after.numbered settled
  placed := after.placed settled
  ordered := after.ordered settled
  current := after.current settled
  quiet := after.quiet settled

end After

/-- An operation from a settled course has the effect it should have. -/
theorem Settled.after (settled : C.Settled) (h : C.step op = some D) : C.After op D := by
  obtain ⟨E, hE, after⟩ := settled.exists_step op
  cases hE.symm.trans h
  exact after

/-! ### Along a course -/

theorem run_append (C : Course) (A B : List Operation) :
    C.run (A ++ B) = (C.run A).bind fun D => D.run B := by
  induction A generalizing C with
  | nil => rfl
  | cons op A ih =>
      rw [List.cons_append, run, run]
      cases C.step op with
      | none => rfl
      | some D => exact ih D

end Course

open Course

variable {ops A B : List Operation} {op : Operation} {C D : Course} {c : Continuation}

theorem course_snoc (ops : List Operation) (op : Operation) :
    course (ops ++ [op]) = (course ops).bind fun C => C.step op := by
  rw [course, run_append]
  congr 1
  funext C
  rw [Course.run]
  cases C.step op <;> rfl

/-- No operation of a course waits for room in a channel, and the invariant holds behind it. -/
theorem exists_course (ops : List Operation) : ∃ C, course ops = some C ∧ C.Settled := by
  induction ops using List.reverseRecOn with
  | nil => exact ⟨.new, rfl, .new⟩
  | append_singleton ops op ih =>
      obtain ⟨C, hC, settled⟩ := ih
      obtain ⟨D, hD, after⟩ := settled.exists_step op
      exact ⟨D, by rw [course_snoc, hC, Option.bind_some, hD], after.settled settled⟩

theorem settled_course (h : course ops = some C) : C.Settled := by
  obtain ⟨D, hD, settled⟩ := exists_course ops
  cases hD.symm.trans h
  exact settled

/-- What holds in the beginning, and behind every operation, holds behind every course. -/
theorem course_induction {P : List Operation → Course → Prop} (new : P [] .new)
    (step : ∀ ops C op D, course ops = some C → C.Settled → C.After op D → P ops C →
      P (ops ++ [op]) D) (h : course ops = some C) : P ops C := by
  induction ops using List.reverseRecOn generalizing C with
  | nil =>
      cases h
      exact new
  | append_singleton ops op ih =>
      rw [course_snoc, Option.bind_eq_some_iff] at h
      obtain ⟨D, hD, hs⟩ := h
      have settled := settled_course hD
      exact step ops D op C hD settled (settled.after hs) (ih hD)

/-- A continuation was handed in, and the queue was not emptied since. -/
def WaitsSince (ops : List Operation) (c : Continuation) : Prop :=
  ∃ A B D, ops = A ++ .suspend c.run :: B ∧ course A = some D ∧ D.next c.run = c ∧
    ∀ op ∈ B, ¬ op.empties

/-- Whoever is pending waits since he was handed in. -/
theorem waits_since (h : course ops = some C) : ∀ c ∈ C.scheduler.pending, WaitsSince ops c := by
  refine course_induction (P := fun ops C => ∀ c ∈ C.scheduler.pending, WaitsSince ops c) nofun
    (fun ops C op D hC settled after ih => ?_) h
  have later (quiet : ¬ op.empties) {c : Continuation} (hc : c ∈ C.scheduler.pending) :
      WaitsSince (ops ++ [op]) c := by
    obtain ⟨A, B, E, rfl, hE, hc, hB⟩ := ih c hc
    refine ⟨A, B ++ [op], E, by rw [List.append_assoc, List.cons_append], hE, hc, ?_⟩
    intro o ho
    rcases List.mem_append.1 ho with ho | ho
    · exact hB o ho
    · cases List.mem_singleton.1 ho
      exact quiet
  rw [after.scheduler]
  rcases C.act_sends op with ⟨-, -, cleared, -⟩ | ⟨run, rfl, -, ha⟩ | ⟨run, rfl, -, ha⟩ |
    ⟨quiet, -, ha⟩
  · rw [cleared]
    nofun
  · rw [ha]
    intro c hc
    rcases List.mem_append.1 hc with hc | hc
    · exact later nofun hc
    · cases List.mem_singleton.1 hc
      exact ⟨ops, [], C, rfl, hC, rfl, nofun⟩
  · rw [ha]
    exact fun c hc => later nofun hc
  · rw [ha]
    exact fun c hc => later quiet hc

/-- Whoever has not moved finds the signal he was sent. -/
theorem found_of_sent (h : course ops = some C) (n : Nat) (still : .take n ∉ ops)
    (there : .depart n ∉ ops) : (C.inboxes n).isOpen ∧
      ∀ w ∈ C.sent, w.continuation.waiter = n → C.inboxes n = ⟨[w.resume], true⟩ := by
  refine course_induction (P := fun ops C => .take n ∉ ops → .depart n ∉ ops →
    (C.inboxes n).isOpen ∧ ∀ w ∈ C.sent, w.continuation.waiter = n →
      C.inboxes n = ⟨[w.resume], true⟩) (fun _ _ => ⟨rfl, nofun⟩)
    (fun ops C op D hC settled after ih still there => ?_) h still there
  rw [List.mem_append, not_or] at still there
  obtain ⟨isOpen, found⟩ := ih still.1 there.1
  have kept : (C.receive op).inboxes n = C.inboxes n :=
    (C.receive_keeps op).2.2 n (fun same => still.2 (same ▸ List.mem_singleton_self _))
      fun same => there.2 (same ▸ List.mem_singleton_self _)
  by_cases signalled : ∃ w ∈ (C.act op).2, w.continuation.waiter = n
  · obtain ⟨w, hw, rfl⟩ := signalled
    have now := after.found w hw isOpen
    refine ⟨by rw [now], fun v hv same => ?_⟩
    rw [after.sent] at hv
    rcases List.mem_append.1 hv with hv | hv
    · have empty := ((settled.sends op).2 w hw).1
      rw [found v hv same] at empty
      cases empty
    · rw [← same, after.found v hv (same ▸ isOpen)]
  · have none : ∀ w ∈ (C.act op).2, w.continuation.waiter ≠ n :=
      fun w hw same => signalled ⟨w, hw, same⟩
    rw [after.others n none, kept]
    refine ⟨isOpen, fun w hw same => ?_⟩
    rw [after.sent] at hw
    rcases List.mem_append.1 hw with hw | hw
    · exact found w hw same
    · exact absurd same (none w hw)

/-- What a course promises to those who wait. -/
structure ExactlyOnce (ops : List Operation) (C : Course) : Prop where
  /-- Those who are handed in are told apart. -/
  distinct : C.handed.Nodup
  /-- Whoever was handed in is pending and was sent nothing, or was sent one signal. -/
  fate : ∀ c ∈ C.handed, (c ∈ C.scheduler.pending ∧ C.signals c = []) ∨
    (c ∉ C.scheduler.pending ∧ ∃ r, C.signals c = [r])
  /-- Nobody else is pending or is sent anything. -/
  known : (∀ c ∈ C.scheduler.pending, c ∈ C.handed) ∧ ∀ w ∈ C.sent, w.continuation ∈ C.handed
  /-- A frame is sent by a tick, while the run of the continuation is the current one, and neither a
  beginning nor an end nor a tick came in between. -/
  woken : ∀ A op B D E, ops = A ++ op :: B → course A = some D → D.step op = some E →
    ∀ c, ⟨c, .frame⟩ ∈ E.sent → ⟨c, .frame⟩ ∉ D.sent →
      op = .tick ∧ D.scheduler.running = some c.run ∧ WaitsSince A c
  /-- Frames are sent in the order in which the continuations were handed in. -/
  ordered : (C.reached .frame).Sublist C.handed
  /-- Behind a beginning, an end or a tick nothing is pending. -/
  cleared : ∀ A op, ops = A ++ [op] → op.empties → C.scheduler.pending = []
  /-- Whoever is pending belongs to the current run. -/
  current : ∀ c ∈ C.scheduler.pending, C.scheduler.running = some c.run
  /-- A tick answers how many frames it sent. -/
  resolved : ∀ A B D E k, ops = A ++ .tick :: B → course A = some D → D.step .tick = some E →
    D.answer .tick = some k → (E.reached .frame).length = (D.reached .frame).length + k ∧
      E.reached .cancelled = D.reached .cancelled
  /-- A beginning answers how many it rejected. -/
  rejected : ∀ A run B D E k, ops = A ++ .start run :: B → course A = some D →
    D.step (.start run) = some E → D.answer (.start run) = some k →
      (E.reached .cancelled).length = (D.reached .cancelled).length + k ∧
        E.reached .frame = D.reached .frame
  /-- Everybody is accounted for. -/
  balance : C.handed.length =
    (C.reached .frame).length + (C.reached .cancelled).length + C.scheduler.pending.length
  /-- Whoever has not moved finds the signal he was sent, and only this one. -/
  delivered : ∀ w ∈ C.sent, .take w.continuation.waiter ∉ ops → .depart w.continuation.waiter ∉ ops →
    C.inboxes w.continuation.waiter = ⟨[w.resume], true⟩

/-- How many signals somebody was sent. -/
theorem Course.length_signals (C : Course) (c : Continuation) :
    (C.signals c).length = (C.sent.map (·.continuation)).count c := by
  rw [signals, List.length_map, List.count, List.countP_map, List.countP_eq_length_filter]
  congr 1

/-- Frames and rejections are all there is. -/
theorem Course.length_reached (C : Course) :
    (C.reached .frame).length + (C.reached .cancelled).length = C.sent.length := by
  rw [reached, reached, List.length_map, List.length_map, ← List.countP_eq_length_filter,
    ← List.countP_eq_length_filter, List.length_eq_countP_add_countP (·.resume = .frame)]
  congr 1
  refine List.countP_congr fun w _ => ?_
  cases w.resume <;> decide

/-- Whoever was handed in is in one place. -/
theorem Course.Settled.fate {C : Course} (settled : C.Settled) {c : Continuation}
    (h : c ∈ C.handed) : (c ∈ C.scheduler.pending ∧ C.signals c = []) ∨
      (c ∉ C.scheduler.pending ∧ ∃ r, C.signals c = [r]) := by
  have once := settled.placed.count_eq c
  rw [List.count_append, ← C.length_signals, List.count_eq_one_of_mem settled.nodup h] at once
  by_cases pending : c ∈ C.scheduler.pending
  · have := List.count_pos_iff.2 pending
    exact .inl ⟨pending, List.length_eq_zero_iff.1 (by omega)⟩
  · rw [List.count_eq_zero.2 pending] at once
    exact .inr ⟨pending, List.length_eq_one_iff.1 once⟩

/-- Everybody is in one place. -/
theorem Course.Settled.balance {C : Course} (settled : C.Settled) : C.handed.length =
    (C.reached .frame).length + (C.reached .cancelled).length + C.scheduler.pending.length := by
  rw [C.length_reached, ← settled.placed.length_eq, List.length_append, List.length_map]

/-- A frame is sent by a tick, to somebody who is pending. -/
theorem Course.tick_of_frame {C : Course} {op : Operation} {c : Continuation}
    (h : ⟨c, .frame⟩ ∈ (C.act op).2) : op = .tick ∧ c ∈ C.scheduler.pending := by
  rcases C.act_sends op with ⟨-, -, -, r, hw, hr⟩ | ⟨run, -, -, ha⟩ | ⟨run, -, -, ha⟩ | ⟨-, -, ha⟩
  · rw [hw] at h
    obtain ⟨d, hd, he⟩ := List.mem_map.1 h
    cases he
    exact ⟨hr.1 rfl, hd⟩
  · rw [ha] at h
    cases h
  · rw [ha] at h
    cases List.mem_singleton.1 h
  · rw [ha] at h
    cases h

/-- **Whatever is done with the scheduler, everybody who waits is answered at most once, by a frame
of his own run while he waited for it, or by a rejection; and nobody is forgotten.** -/
theorem exactly_once (ops : List Operation) :
    ∃ C, course ops = some C ∧ ExactlyOnce ops C := by
  obtain ⟨C, hC, settled⟩ := exists_course ops
  refine ⟨C, hC, {
    distinct := settled.nodup
    fate := fun _ => settled.fate
    known := ⟨fun _ => settled.mem_of_pending, fun _ => settled.mem_of_sent⟩
    woken := ?woken
    ordered := (List.sublist_append_left ..).trans settled.ordered
    cleared := ?cleared
    current := settled.current
    resolved := ?resolved
    rejected := ?rejected
    balance := settled.balance
    delivered := ?delivered }⟩
  case woken =>
    intro A op B D E _ hD hs c now before
    have settled := settled_course hD
    rw [(settled.after hs).sent] at now
    obtain ⟨rfl, pending⟩ := tick_of_frame ((List.mem_append.1 now).resolve_left before)
    exact ⟨rfl, settled.current c pending, waits_since hD c pending⟩
  case cleared =>
    intro A op hops empties
    subst hops
    rw [course_snoc, Option.bind_eq_some_iff] at hC
    obtain ⟨D, hD, hs⟩ := hC
    rw [((settled_course hD).after hs).scheduler]
    rcases D.act_sends op with ⟨-, -, cleared, -⟩ | ⟨run, rfl, -⟩ | ⟨run, rfl, -⟩ | ⟨quiet, -⟩
    · exact cleared
    · cases empties
    · cases empties
    · exact absurd empties quiet
  case resolved =>
    intro A B D E k _ hD hs hk
    have after := (settled_course hD).after hs
    cases hk
    rw [after.reached_eq, after.reached_eq, act, tick, reached_wake, reached_wake]
    exact ⟨by simp [wake], List.append_nil _⟩
  case rejected =>
    intro A run B D E k _ hD hs hk
    have after := (settled_course hD).after hs
    cases hk
    rw [after.reached_eq, after.reached_eq, act, start, reached_wake, reached_wake]
    exact ⟨by simp, List.append_nil _⟩
  case delivered =>
    intro w hw still there
    exact (found_of_sent hC _ still there).2 w hw rfl

/-- A run under the number of an earlier one gets no frame that the earlier one waited for. -/
example : (course [.start 1, .suspend 1, .start 1, .suspend 1, .suspend 2, .tick]).map
    (·.sent.map fun w => (w.continuation.waiter, w.resume)) =
      some [(0, .cancelled), (2, .cancelled), (1, .frame)] := rfl

end Scheduler
end FilterScript
