/-
What each run asked for along a history, and what it was answered.

The thread of a run is changed by its own steps and by nobody else, so after any history it is the
thread of its script, gone along the branch of the replies that it got.  `exchanges` is that branch.
Which script it is shows in the moves: the host makes a run current with one move, and the number of
the run is the next one at that moment.
-/
import FilterScript.Proofs.Interpreter.Watch
import FilterScript.Proofs.Thread.Exchange
import Mathlib.Data.List.Induction

namespace FilterScript

namespace Session

variable {s t : Session} {r id : RunId} {f : Link → Link} {u : Thread Unit}

/-- The thread of a run. -/
def thread? (s : Session) (r : RunId) : Option (Thread Unit) := (s.worker? r).map (·.thread)

theorem thread?_of_worker? {w : Worker} (h : s.worker? r = some w) : s.thread? r = some w.thread := by
  rw [thread?, h, Option.map_some]

theorem exists_worker_of_thread? (h : s.thread? r = some u) :
    ∃ w, s.worker? r = some w ∧ w.thread = u :=
  Option.map_eq_some_iff.1 h

/-! ### The host leaves the threads alone -/

/-- A change of the link of a run is none of its thread. -/
theorem thread?_map (h : t.worker? r = (s.worker? r).map (·.onLink f)) :
    t.thread? r = s.thread? r := by
  rw [thread?, thread?, h, Option.map_map]
  rfl

theorem thread?_onLink (hf : Link.KeepsRun f) : (s.onLink id f).thread? r = s.thread? r := by
  by_cases hr : r = id
  · exact thread?_map ((worker?_onLink hf r).trans (if_pos hr))
  · exact congrArg _ ((worker?_onLink hf r).trans (if_neg hr))

theorem thread?_onCurrent (hf : Link.KeepsRun f) : (s.onCurrent f).thread? r = s.thread? r := by
  unfold onCurrent
  split
  · rfl
  · exact thread?_onLink hf

theorem thread?_decide (f : Interpreter → Interpreter × List Wakeup) :
    (s.decide f).thread? r = s.thread? r :=
  thread?_map (worker?_decide f r)

theorem thread?_closing (f : Interpreter → Interpreter × List Wakeup) :
    (s.closing id f).thread? r = s.thread? r := by
  unfold closing
  dsimp only
  split
  · exact (thread?_onLink keepsRun_shut).trans (thread?_decide f)
  · exact thread?_decide f

theorem thread?_receive (h : s.receive = some t) : t.thread? r = s.thread? r := by
  obtain ⟨run, w, -, -, ⟨e, rest, -, rfl⟩ | ⟨-, -, rfl⟩⟩ := receive_some h
  · exact (thread?_closing _).trans (thread?_onLink (keepsRun_remaining rest))
  · exact thread?_closing _

theorem thread?_release (moment : Moment) (awaited : Bool) :
    (s.release moment awaited).thread? r = s.thread? r := by
  have h : (s.onCurrent fun l => (l.advance moment).releaseClock).thread? r = s.thread? r :=
    thread?_onCurrent fun _ => rfl
  cases awaited with
  | true => exact h
  | false => exact h

theorem thread?_fail (reason : String) : (s.fail reason).thread? r = s.thread? r := by
  unfold fail
  split
  · rfl
  · exact thread?_closing _

/-- Only a beginning brings a new thread. -/
theorem thread?_begin (script : String) (moment : Moment) :
    (s.begin script moment).thread? r = if r = s.newest + 1 then
      some (s.beginner script moment).thread else s.thread? r := by
  by_cases hr : r = s.newest + 1
  · rw [if_pos hr]
    exact thread?_of_worker? ((worker?_begin script moment r).trans (if_pos hr))
  · rw [if_neg hr]
    exact thread?_map ((worker?_begin script moment r).trans (if_neg hr))

/-! ### A step of a thread -/

/-- The surroundings when the next step is taken. -/
def next (s : Session) : Surroundings :=
  { s.surroundings with now := s.surroundings.now + Thread.stepTime }

/-- The exchange that the next step of a run makes, if it makes one. -/
def exchange (s : Session) (r : RunId) : List Exchange :=
  match s.worker? r with
  | none => []
  | some w =>
    match w.thread with
    | .ask q _ => ((q.answer s.isQueued w.link s.next).map fun a => ⟨q, a.1⟩).toList
    | _ => []

theorem exchange_of_answer {w : Worker} {q : Request} {k : q.Reply → Thread Unit} {x : q.Reply}
    {l : Link} {shared : Surroundings} (hw : s.worker? r = some w) (hask : w.thread = .ask q k)
    (h : q.answer s.isQueued w.link s.next = some (x, l, shared)) : s.exchange r = [⟨q, x⟩] := by
  simp only [exchange, hw, hask, h]
  rfl

/-- A step of a run is an exchange of its thread, and of no other. -/
theorem advanceRun_goes (h : s.advanceRun id = some t) :
    (∀ r, r ≠ id → t.thread? r = s.thread? r) ∧
      ∃ u u', s.thread? id = some u ∧ t.thread? id = some u' ∧ u.Goes (s.exchange id) u' := by
  obtain ⟨w, u, l, hw, hs, -, hview⟩ := advanceRun_some h
  refine ⟨fun r hr => congrArg _ ((hview r).trans (if_neg hr)), w.thread, u,
    thread?_of_worker? hw, thread?_of_worker? ((hview id).trans (if_pos rfl)), ?_⟩
  rcases Thread.step_cases hs with ⟨hspin, rfl, -, -⟩ | ⟨q, k, x, hask, rfl, ha⟩
  · have hx : s.exchange id = [] := by simp only [exchange, hw, hspin]
    rw [hx, hspin]
    exact .stay _
  · rw [exchange_of_answer hw hask ha, hask]
    exact .ask (.stay _)

/-- A run that has no step makes no exchange. -/
theorem exchange_of_none (h : s.advanceRun id = none) : s.exchange id = [] := by
  unfold exchange
  split
  · rfl
  next w hw =>
    split
    next q k hask =>
      cases ha : q.answer s.isQueued w.link s.next with
      | none => rfl
      | some a =>
          obtain ⟨x, l, shared⟩ := a
          have hs : w.thread.step s.isQueued w.link s.surroundings = some (k x, l, shared) := by
            rw [hask]
            exact congrArg (Option.map _) ha
          obtain ⟨t, ht⟩ := exists_advanceRun hw hs
          rw [ht] at h
          cases h
    · rfl

end Session

namespace System

variable {S : System} {m : Move} {ms : List Move} {r : RunId} {u : Thread Unit} {config : Config}
  {platform : Platform}

/-- The exchange that a move makes for a run. -/
def exchange (S : System) (r : RunId) : Move → List Exchange
  | .thread id => if id = r then S.session.exchange r else []
  | _ => []

/-- The exchanges of a run in a history. -/
def exchanges (S : System) (r : RunId) : List Move → List Exchange
  | [] => []
  | m :: ms => S.exchange r m ++ (S.step m).1.exchanges r ms

theorem exchanges_append (S : System) (r : RunId) (ms ms' : List Move) :
    S.exchanges r (ms ++ ms') = S.exchanges r ms ++ (S.play ms).1.exchanges r ms' := by
  induction ms generalizing S with
  | nil => rfl
  | cons m ms ih => rw [List.cons_append, exchanges, exchanges, ih, List.append_assoc, play]

/-! ### What a move does to the thread of a run -/

theorem thread?_call (s : Session) (c : Call) : (call s c).1.session.thread? r = s.thread? r := by
  have hflag : s.flag.thread? r = s.thread? r := Session.thread?_onCurrent Session.keepsRun_cancel
  cases c with
  | start script moment => exact hflag
  | close => exact hflag
  | _ => rfl

/-- The host goes on: it begins a run, or leaves all threads alone. -/
theorem thread?_goOn (s : Session) (phase : HostPhase) :
    (goOn s phase).1.session.thread? r = s.thread? r ∨
      ∃ script moment, phase = .cleared script moment ∧ r = s.newest + 1 ∧
        (goOn s phase).1.session.thread? r = some (s.beginner script moment).thread := by
  cases phase with
  | ready => exact .inl rfl
  | flagged script moment => exact .inl (Session.thread?_onCurrent Session.keepsRun_shut)
  | cleared script moment =>
      rw [session_goOn_cleared]
      by_cases hr : r = s.newest + 1
      · exact .inr ⟨script, moment, rfl, hr, (Session.thread?_begin script moment).trans (if_pos hr)⟩
      · exact .inl ((Session.thread?_begin script moment).trans (if_neg hr))
  | refused reason => exact .inl (Session.thread?_fail reason)
  | collecting purpose =>
      left
      cases hr : s.receive with
      | some t =>
          rw [goOn, hr]
          exact Session.thread?_receive hr
      | none =>
          rw [goOn, hr]
          cases purpose with
          | poll => rfl
          | frame moment =>
              dsimp only [run]
              split
              · rfl
              · exact Session.thread?_onCurrent (f := Link.holdClock) fun _ => rfl
  | held moment => exact .inl (Session.thread?_decide _)
  | woken moment awaited => exact .inl (Session.thread?_release moment awaited)
  | settling =>
      left
      unfold goOn
      dsimp only
      split
      · rfl
      · split
        next t hr => exact Session.thread?_receive hr
        · rfl
  | leaving => exact .inl (Session.thread?_onCurrent Session.keepsRun_shut)
  | left => exact .inl (Session.thread?_decide _)
  | closed => exact .inl rfl

/-- **A move leaves the thread of a run alone, or it is a step of that thread, or it begins the
run.** -/
theorem thread?_step (S : System) (m : Move) (r : RunId) :
    (S.step m).1.session.thread? r = S.session.thread? r ∧ S.exchange r m = [] ∨
      (∃ u u', S.session.thread? r = some u ∧ (S.step m).1.session.thread? r = some u' ∧
        u.Goes (S.exchange r m) u') ∨
      S.exchange r m = [] ∧ m = .host ∧ ∃ script moment, S.phase = .cleared script moment ∧
        r = S.session.newest + 1 ∧
        (S.step m).1.session.thread? r = some (S.session.beginner script moment).thread := by
  cases m with
  | call c =>
      refine .inl ⟨?_, rfl⟩
      rw [step]
      split
      · exact thread?_call S.session c
      · rfl
  | host =>
      rcases thread?_goOn (r := r) S.session S.phase with h | h
      · exact .inl ⟨h, rfl⟩
      · exact .inr (.inr ⟨rfl, rfl, h⟩)
  | giveUp =>
      refine .inl ⟨?_, rfl⟩
      rw [step]
      split <;> rfl
  | thread id =>
      cases ha : S.session.advanceRun id with
      | none =>
          have hx : S.exchange r (.thread id) = [] := by
            rw [exchange]
            split
            next hid => exact Session.exchange_of_none (hid ▸ ha)
            · rfl
          exact .inl ⟨by rw [step, ha], hx⟩
      | some t =>
          obtain ⟨hothers, u, u', hu, hu', hgoes⟩ := Session.advanceRun_goes ha
          have hstep : (S.step (.thread id)).1.session = t := by rw [step, ha]
          rw [hstep]
          by_cases hid : id = r
          · subst hid
            exact .inr (.inl ⟨u, u', hu, hu', by rwa [exchange, if_pos rfl]⟩)
          · exact .inl ⟨hothers r (Ne.symm hid), by rw [exchange, if_neg hid]⟩
  | wait time => exact .inl ⟨rfl, rfl⟩

/-! ### Along a history -/

theorem Sound.step (h : Sound S) (m : Move) : Sound (S.step m).1 := by
  rcases step_moves S m with he | hm
  · rw [he]
    exact h
  · exact h.moves hm

/-- The run that begins next has no thread yet. -/
theorem Sound.thread?_next (hS : Sound S) : S.session.thread? (S.session.newest + 1) = none :=
  Option.map_eq_none_iff.2 hS.unstarted_next

/-- A run that was begun goes along its exchanges. -/
theorem Sound.goes (hS : Sound S) (h : S.session.thread? r = some u) (ms : List Move) :
    ∃ u', (S.play ms).1.session.thread? r = some u' ∧ u.Goes (S.exchanges r ms) u' := by
  induction ms generalizing S u with
  | nil => exact ⟨u, h, .stay u⟩
  | cons m ms ih =>
      have hnext : ∃ v, (S.step m).1.session.thread? r = some v ∧ u.Goes (S.exchange r m) v := by
        rcases thread?_step S m r with ⟨hsame, hx⟩ | ⟨v, v', hv, hv', hgoes⟩ |
          ⟨-, -, script, moment, -, rfl, -⟩
        · exact ⟨u, hsame.trans h, hx ▸ .stay u⟩
        · cases h.symm.trans hv
          exact ⟨v', hv', hgoes⟩
        · cases h.symm.trans hS.thread?_next
      obtain ⟨v, hv, hgoes⟩ := hnext
      obtain ⟨u', hu', hgoes'⟩ := ih (hS.step m) hv
      exact ⟨u', hu', hgoes.append hgoes'⟩

/-- Before it is begun a run asks for nothing. -/
theorem exchanges_of_unknown (hS : Sound S) (h : (S.play ms).1.session.thread? r = none) :
    S.exchanges r ms = [] := by
  induction ms generalizing S with
  | nil => rfl
  | cons m ms ih =>
      have hnone : (S.step m).1.session.thread? r = none := by
        cases hv : (S.step m).1.session.thread? r with
        | none => rfl
        | some v =>
            obtain ⟨u', hu', -⟩ := (hS.step m).goes hv ms
            rw [show (S.play (m :: ms)).1 = ((S.step m).1.play ms).1 from rfl, hu'] at h
            cases h
      rw [exchanges, ih (hS.step m) h, List.append_nil]
      rcases thread?_step S m r with ⟨-, hx⟩ | ⟨v, v', -, hv', -⟩ | ⟨hx, -⟩
      · exact hx
      · rw [hnone] at hv'
        cases hv'
      · exact hx

/-- The host has begun a run of a script, and there was a thread for it. -/
def Begun (config : Config) (platform : Platform) (ms : List Move) (r : RunId) (script : String) :
    Prop :=
  ∃ ms₁ ms₂ moment, ms = ms₁ ++ .host :: ms₂ ∧
    ((ofConfig config platform).play ms₁).1.phase = .cleared script moment ∧
    ((ofConfig config platform).play ms₁).1.session.refusal? = none ∧
    r = ((ofConfig config platform).play ms₁).1.session.newest + 1

/-- **The thread of a run is that of its script, gone along its exchanges.** -/
theorem Begun.goes {script : String} (h : Begun config platform ms r script) :
    ∃ u, ((ofConfig config platform).play ms).1.session.thread? r = some u ∧
      (Session.scriptThread config r script).Goes ((ofConfig config platform).exchanges r ms) u := by
  obtain ⟨ms₁, ms₂, moment, rfl, hphase, hserved, rfl⟩ := h
  generalize hT : (ofConfig config platform).play ms₁ = T at *
  obtain ⟨S, H⟩ := T
  have hS : Reached config H S := ⟨platform, ms₁, hT⟩
  have hbegun : (S.step .host).1.session.thread? (S.session.newest + 1) =
      some (Session.scriptThread config (S.session.newest + 1) script) := by
    rw [step, hphase, session_goOn_cleared, Session.thread?_begin, if_pos rfl,
      Session.thread_beginner hserved, hS.config_eq]
    rfl
  obtain ⟨u, hu, hgoes⟩ := (hS.sound.step .host).goes hbegun ms₂
  refine ⟨u, ?_, ?_⟩
  · rw [play_append, hT]
    exact hu
  · have hunknown :
        ((ofConfig config platform).play ms₁).1.session.thread? (S.session.newest + 1) = none := by
      rw [hT]
      exact hS.sound.thread?_next
    rw [exchanges_append, hT, exchanges_of_unknown (sound_ofConfig config platform) hunknown]
    exact hgoes

/-- A thread that has gone away asks for nothing more. -/
theorem Sound.exchanges_of_crash (hS : Sound S) (h : S.session.thread? r = some .crash)
    (ms : List Move) : (S.play ms).1.session.thread? r = some .crash ∧ S.exchanges r ms = [] := by
  obtain ⟨u, hu, hgoes⟩ := hS.goes h ms
  obtain ⟨hnone, rfl⟩ := hgoes.of_crash
  exact ⟨hu, hnone⟩

/-- A run that is known was begun, or there was no thread for it and it asked for nothing. -/
theorem begun_of_thread? (h : ((ofConfig config platform).play ms).1.session.thread? r = some u) :
    (∃ script, Begun config platform ms r script) ∨
      u = .crash ∧ (ofConfig config platform).exchanges r ms = [] := by
  induction ms using List.reverseRecOn generalizing u with
  | nil => cases h
  | append_singleton ms m ih =>
      have hlater {script : String} :
          Begun config platform ms r script → Begun config platform (ms ++ [m]) r script := by
        rintro ⟨ms₁, ms₂, moment, rfl, hphase, hserved, hr⟩
        exact ⟨ms₁, ms₂ ++ [m], moment, by rw [List.append_assoc, List.cons_append], hphase, hserved, hr⟩
      have hS := sound_play config platform ms
      rw [play_append] at h
      rw [exchanges_append]
      have hbefore {v : Thread Unit}
          (hv : ((ofConfig config platform).play ms).1.session.thread? r = some v) :
          (∃ script, Begun config platform (ms ++ [m]) r script) ∨ u = .crash ∧
            (ofConfig config platform).exchanges r ms ++
              ((ofConfig config platform).play ms).1.exchanges r [m] = [] := by
        rcases ih hv with ⟨script, hbegun⟩ | ⟨rfl, hnone⟩
        · exact .inl ⟨script, hlater hbegun⟩
        · obtain ⟨hcrash, hx⟩ := hS.exchanges_of_crash hv [m]
          cases h.symm.trans hcrash
          exact .inr ⟨rfl, by rw [hnone, hx]; rfl⟩
      rcases thread?_step ((ofConfig config platform).play ms).1 m r with ⟨hsame, -⟩ |
        ⟨v, v', hv, -, -⟩ | ⟨hx, rfl, script, moment, hphase, rfl, hbegins⟩
      · exact hbefore (hsame.symm.trans h)
      · exact hbefore hv
      · cases hrefused : ((ofConfig config platform).play ms).1.session.refusal? with
        | none => exact .inl ⟨script, ms, [], moment, rfl, hphase, hrefused, rfl⟩
        | some reason =>
            have hcrash := Session.thread_beginner_of_refused hrefused script moment
            rw [hcrash] at hbegins
            refine .inr ⟨Option.some.inj (h.symm.trans hbegins), ?_⟩
            rw [exchanges_of_unknown (sound_ofConfig config platform) hS.thread?_next, exchanges, hx]
            rfl

/-! ### Reports

The host notes what it does with the runs, and never that one of them has reported.
-/

/-- What the host notes when it goes on with a call.  A poll hands out only when there is nothing
left to take in. -/
theorem of_mem_goOn {s : Session} {phase : HostPhase} {n : Note} (h : n ∈ (goOn s phase).2) :
    (∃ r reason, n = .refused r reason) ∨ (∃ r o, n = .collected r o) ∨
      s.receive = none ∧ ∃ batch, n = .handed batch := by
  have hreceived (h : n ∈ s.receiveNotes) : ∃ r o, n = .collected r o := by
    obtain ⟨run, o, -, he⟩ := Session.of_mem_receiveNotes h
    exact ⟨run.id, o, he⟩
  cases phase with
  | cleared script moment =>
      rw [goOn] at h
      split at h
      · cases h
      · exact .inl ⟨_, _, List.mem_singleton.1 h⟩
  | refused reason =>
      obtain ⟨run, -, he⟩ := Session.of_mem_failNotes h
      exact .inr (.inl ⟨run.id, _, he⟩)
  | collecting purpose =>
      rw [goOn] at h
      split at h
      · exact .inr (.inl (hreceived h))
      next hr =>
        cases purpose with
        | poll => exact .inr (.inr ⟨hr, _, List.mem_singleton.1 h⟩)
        | frame moment =>
            rw [run] at h
            split at h <;> cases h
  | settling =>
      rw [goOn] at h
      split at h
      · cases h
      · split at h
        · exact .inr (.inl (hreceived h))
        · cases h
  | _ => cases h

/-- What is noted of a move is noted by the host, or by the thread that takes a step. -/
theorem of_mem_step {n : Note} (h : n ∈ (S.step m).2) :
    (∃ r, n = .abandoned r) ∨ (∃ r reason, n = .refused r reason) ∨ (∃ r o, n = .collected r o) ∨
      (S.session.receive = none ∧ ∃ batch, n = .handed batch) ∨
      ∃ id t, m = .thread id ∧ S.session.advanceRun id = some t ∧ n ∈ S.session.stepNotes id := by
  cases m with
  | call c =>
      rw [step] at h
      split at h
      · exact .inl (of_mem_call h)
      · cases h
  | host =>
      rcases of_mem_goOn h with hrefused | hcollected | hhanded
      · exact .inr (.inl hrefused)
      · exact .inr (.inr (.inl hcollected))
      · exact .inr (.inr (.inr (.inl hhanded)))
  | giveUp =>
      rw [step] at h
      split at h <;> cases h
  | thread id =>
      rw [step] at h
      split at h
      next t ht => exact .inr (.inr (.inr (.inr ⟨id, t, rfl, ht, h⟩)))
      · cases h
  | wait time => cases h

/-- A run reports by asking for it. -/
theorem reported_stepNotes {s t : Session} {id : RunId} (h : s.advanceRun id = some t)
    (r : RunId) (o : Outcome) :
    .reported r o ∈ s.stepNotes id ↔ id = r ∧ Exchange.report o ∈ s.exchange id := by
  obtain ⟨w, u, l, hw, hs, -⟩ := Session.advanceRun_some h
  rcases Thread.step_cases hs with ⟨hspin, -⟩ | ⟨q, k, x, hask, -, ha⟩
  · simp [Session.stepNotes, Session.exchange, hw, hspin]
  · rw [Session.stepNotes_of_answer hw hask ha, Session.exchange_of_answer hw hask ha,
      List.mem_singleton]
    cases q with
    | finish o' =>
        constructor
        · intro hn
          cases List.mem_singleton.1 hn
          exact ⟨rfl, rfl⟩
        · rintro ⟨rfl, he⟩
          cases he
          exact List.mem_singleton_self _
    | post m =>
        refine iff_of_false ?_ ?_
        · cases x <;> simp [Note.ofReply]
        · rintro ⟨-, hx⟩
          cases hx
    | _ =>
        refine iff_of_false ?_ ?_
        · simp [Note.ofReply]
        · rintro ⟨-, hx⟩
          cases hx

theorem reported_step (S : System) (m : Move) (r : RunId) (o : Outcome) :
    .reported r o ∈ (S.step m).2 ↔ Exchange.report o ∈ S.exchange r m := by
  constructor
  · intro h
    rcases of_mem_step h with ⟨_, he⟩ | ⟨_, _, he⟩ | ⟨_, _, he⟩ | ⟨-, _, he⟩ | ⟨id, t, rfl, ht, h⟩
    · cases he
    · cases he
    · cases he
    · cases he
    · obtain ⟨rfl, hx⟩ := (reported_stepNotes ht r o).1 h
      rwa [exchange, if_pos rfl]
  · intro h
    cases m with
    | thread id =>
        rw [exchange] at h
        split at h
        next hid =>
          subst hid
          cases ha : S.session.advanceRun id with
          | none =>
              rw [Session.exchange_of_none ha] at h
              cases h
          | some t =>
              rw [step, ha]
              exact (reported_stepNotes ha id o).2 ⟨rfl, h⟩
        · cases h
    | _ => cases h

/-- The reports of a run are among its exchanges. -/
theorem reported_play (S : System) (ms : List Move) (r : RunId) (o : Outcome) :
    .reported r o ∈ (S.play ms).2 ↔ Exchange.report o ∈ S.exchanges r ms := by
  induction ms generalizing S with
  | nil => exact iff_of_false List.not_mem_nil List.not_mem_nil
  | cons m ms ih => rw [play, exchanges, List.mem_append, List.mem_append, reported_step, ih]

end System

end FilterScript
