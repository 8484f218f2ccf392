/-
What a session looks like from each of its runs.

A session keeps its runs in a list, but everything that happens is about the run of
one number.  So each operation is described by what it does to `worker?`: the host
changes the link of a run and leaves its thread alone, and a step of a thread
changes the link and the thread of that run and of no other.
-/
import FilterScript.Interpreter.Settle
import FilterScript.Proofs.Thread.Conduct

namespace FilterScript

/-- Changes what a run and the host share. -/
def Worker.onLink (w : Worker) (f : Link → Link) : Worker := { w with link := f w.link }

/-- A change of a link that leaves it with the run it belongs to. -/
def Link.KeepsRun (f : Link → Link) : Prop := ∀ l, (f l).run = l.run

namespace Link

theorem keepsRun_wake (w : Wakeup) : KeepsRun fun l => l.wake w := by
  intro l
  simp only [wake]
  split <;> rfl

/-- A signal for another run finds nobody. -/
theorem wake_of_run_ne {l : Link} {w : Wakeup} (h : w.continuation.run ≠ l.run) : l.wake w = l := by
  refine if_neg fun hw => h ?_
  rw [hw]
  rfl

/-- Delivers some signals, one after another. -/
def wakeAll (ws : List Wakeup) (l : Link) : Link := ws.foldl wake l

@[simp] theorem wakeAll_cons (w : Wakeup) (ws : List Wakeup) (l : Link) :
    wakeAll (w :: ws) l = wakeAll ws (l.wake w) := rfl

/-- Signals change nothing but the signal. -/
theorem wakeAll_eq (ws : List Wakeup) (l : Link) :
    wakeAll ws l = { l with signal := (wakeAll ws l).signal } := by
  induction ws generalizing l with
  | nil => rfl
  | cons w ws ih =>
      have hwake : l.wake w = { l with signal := (l.wake w).signal } := by
        simp only [wake]
        split <;> rfl
      rw [wakeAll_cons, ih (l.wake w)]
      generalize (wakeAll ws (l.wake w)).signal = signal
      rw [hwake]

/-- The signal is the one that was there, or one of those that were delivered for the
last wait. -/
theorem signal_wakeAll (ws : List Wakeup) (l : Link) :
    (wakeAll ws l).signal = l.signal ∨
      ∃ w ∈ ws, w.continuation = l.continuation ∧ (wakeAll ws l).signal = some w.resume := by
  induction ws generalizing l with
  | nil => exact Or.inl rfl
  | cons w ws ih =>
      by_cases hw : w.continuation = l.continuation
      · have hwake : l.wake w = { l with signal := some w.resume } := if_pos hw
        rw [wakeAll_cons, hwake]
        rcases ih { l with signal := some w.resume } with hsame | ⟨v, hv, hcontinuation, hsignal⟩
        · exact Or.inr ⟨w, List.mem_cons_self, hw, hsame⟩
        · exact Or.inr ⟨v, List.mem_cons_of_mem _ hv, hcontinuation, hsignal⟩
      · have hwake : l.wake w = l := if_neg hw
        rw [wakeAll_cons, hwake]
        refine (ih l).imp_right fun ⟨v, hv, hrest⟩ => ⟨v, List.mem_cons_of_mem _ hv, hrest⟩

end Link

namespace Session

variable {s t : Session} {r id : RunId} {w : Worker} {f : Link → Link}

theorem run_of_worker? (h : s.worker? r = some w) : w.link.run = r := by
  have hrun := List.find?_some h
  simpa using hrun

/-! ### The host changes a link -/

theorem find?_modifyFirst (hf : Link.KeepsRun f) (ws : List Worker) :
    (modifyFirst id f ws).find? (fun w => w.link.run = r) =
      if r = id then (ws.find? fun w => w.link.run = r).map (·.onLink f)
      else ws.find? fun w => w.link.run = r := by
  induction ws with
  | nil => simp [modifyFirst]
  | cons w ws ih =>
      by_cases hid : w.link.run = id
      · by_cases hr : r = id
        · simp [modifyFirst, hid, hr, hf w.link, Worker.onLink]
        · have hne : ¬ id = r := fun h => hr h.symm
          simp [modifyFirst, hid, hr, hf w.link, hne]
      · by_cases hwr : w.link.run = r
        · have hr : ¬ r = id := fun h => hid (hwr.trans h)
          simp [modifyFirst, hwr, hr]
        · simp [modifyFirst, hid, hwr, ih]

theorem worker?_onLink (hf : Link.KeepsRun f) (r : RunId) :
    (s.onLink id f).worker? r =
      if r = id then (s.worker? r).map (·.onLink f) else s.worker? r :=
  find?_modifyFirst hf s.workers

@[simp] theorem interpreter_onLink : (s.onLink id f).interpreter = s.interpreter := rfl

@[simp] theorem surroundings_onLink : (s.onLink id f).surroundings = s.surroundings := rfl

@[simp] theorem platform_onLink : (s.onLink id f).platform = s.platform := rfl

@[simp] theorem interpreter_onCurrent : (s.onCurrent f).interpreter = s.interpreter := by
  unfold onCurrent
  split <;> rfl

@[simp] theorem surroundings_onCurrent : (s.onCurrent f).surroundings = s.surroundings := by
  unfold onCurrent
  split <;> rfl

@[simp] theorem platform_onCurrent : (s.onCurrent f).platform = s.platform := by
  unfold onCurrent
  split <;> rfl

theorem worker?_onCurrent (hf : Link.KeepsRun f) (r : RunId) :
    (s.onCurrent f).worker? r =
      if s.interpreter.current.map (·.id) = some r then (s.worker? r).map (·.onLink f)
      else s.worker? r := by
  unfold onCurrent
  cases hc : s.interpreter.current with
  | none => simp
  | some run =>
      simp only [Option.map_some, Option.some.injEq]
      rw [worker?_onLink hf]
      by_cases hr : r = run.id
      · simp [hr]
      · have hne : ¬ run.id = r := fun h => hr h.symm
        simp [hr, hne]

/-! ### Signals -/

@[simp] theorem interpreter_deliver (ws : List Wakeup) :
    (s.deliver ws).interpreter = s.interpreter := by
  unfold deliver
  induction ws generalizing s with
  | nil => rfl
  | cons w ws ih => rw [List.foldl_cons, ih, interpreter_onLink]

@[simp] theorem surroundings_deliver (ws : List Wakeup) :
    (s.deliver ws).surroundings = s.surroundings := by
  unfold deliver
  induction ws generalizing s with
  | nil => rfl
  | cons w ws ih => rw [List.foldl_cons, ih, surroundings_onLink]

@[simp] theorem platform_deliver (ws : List Wakeup) : (s.deliver ws).platform = s.platform := by
  unfold deliver
  induction ws generalizing s with
  | nil => rfl
  | cons w ws ih => rw [List.foldl_cons, ih, platform_onLink]

theorem worker?_deliver (ws : List Wakeup) (r : RunId) :
    (s.deliver ws).worker? r = (s.worker? r).map (·.onLink (Link.wakeAll ws)) := by
  induction ws generalizing s with
  | nil =>
      show s.worker? r = _
      cases s.worker? r <;> rfl
  | cons w ws ih =>
      show ((s.onLink w.continuation.run fun l => l.wake w).deliver ws).worker? r = _
      rw [ih, worker?_onLink (Link.keepsRun_wake w)]
      split
      · rw [Option.map_map]
        rfl
      next hr =>
        cases hw : s.worker? r with
        | none => rfl
        | some v =>
            have hrun : w.continuation.run ≠ v.link.run := by
              rw [run_of_worker? hw]
              exact fun h => hr h.symm
            simp [Worker.onLink, Link.wake_of_run_ne hrun]

@[simp] theorem interpreter_decide (f : Interpreter → Interpreter × List Wakeup) :
    (s.decide f).interpreter = (f s.interpreter).1 := by
  simp [Session.decide]

@[simp] theorem surroundings_decide (f : Interpreter → Interpreter × List Wakeup) :
    (s.decide f).surroundings = s.surroundings := by
  simp [Session.decide]

@[simp] theorem platform_decide (f : Interpreter → Interpreter × List Wakeup) :
    (s.decide f).platform = s.platform := by
  simp [Session.decide]

theorem worker?_decide (f : Interpreter → Interpreter × List Wakeup) (r : RunId) :
    (s.decide f).worker? r =
      (s.worker? r).map (·.onLink (Link.wakeAll (f s.interpreter).2)) := by
  simp only [Session.decide]
  rw [worker?_deliver]
  rfl

/-! ### The steps of threads -/

/-- A step of the first run of a number is a step of its thread. -/
theorem stepFirst_some {queued : Continuation → Bool} {shared shared' : Surroundings}
    {ws ws' : List Worker} (h : stepFirst queued id shared ws = some (ws', shared')) :
    ∃ w u l, ws.find? (fun w => w.link.run = id) = some w ∧
      w.thread.step queued w.link shared = some (u, l, shared') ∧
      ∀ r, ws'.find? (fun w => w.link.run = r) =
        if r = id then some ⟨l, u⟩ else ws.find? fun w => w.link.run = r := by
  induction ws generalizing ws' with
  | nil => cases h
  | cons w ws ih =>
      unfold stepFirst at h
      split at h
      next hid =>
        split at h
        next u l shared₁ hs =>
          cases h
          have hrun : l.run = id := (Thread.spares_of_step hs).run.trans hid
          refine ⟨w, u, l, by simp [hid], hs, fun r => ?_⟩
          by_cases hr : r = id
          · simp [hr, hrun]
          · have hne : ¬ id = r := fun h => hr h.symm
            simp [hr, hrun, hid, hne]
        next => cases h
      next hid =>
        split at h
        next ws₁ shared₁ hs =>
          cases h
          obtain ⟨v, u, l, hv, hstep, hfind⟩ := ih hs
          refine ⟨v, u, l, by simp [hid, hv], hstep, fun r => ?_⟩
          by_cases hwr : w.link.run = r
          · have hr : ¬ r = id := fun h => hid (hwr.trans h)
            simp [hwr, hr]
          · simp [hwr, hfind r]
        next => cases h

theorem stepFirst_of_find? {queued : Continuation → Bool} {shared shared' : Surroundings}
    {ws : List Worker} {u : Thread Unit} {l : Link}
    (hw : ws.find? (fun w => w.link.run = id) = some w)
    (hs : w.thread.step queued w.link shared = some (u, l, shared')) :
    ∃ ws', stepFirst queued id shared ws = some (ws', shared') := by
  induction ws with
  | nil => cases hw
  | cons v ws ih =>
      by_cases hid : v.link.run = id
      · have hvw : v = w := by simpa [hid] using hw
        subst hvw
        exact ⟨⟨l, u⟩ :: ws, by simp [stepFirst, hid, hs]⟩
      · obtain ⟨ws', hws'⟩ := ih (by simpa [hid] using hw)
        exact ⟨v :: ws', by simp [stepFirst, hid, hws']⟩

/-- What a step of a run does: the run has a thread, which takes a step, and nothing
else changes but what all runs share. -/
theorem advanceRun_some (h : s.advanceRun id = some t) :
    ∃ w u l, s.worker? id = some w ∧
      w.thread.step s.isQueued w.link s.surroundings = some (u, l, t.surroundings) ∧
      t.interpreter = s.interpreter ∧
      ∀ r, t.worker? r = if r = id then some ⟨l, u⟩ else s.worker? r := by
  unfold advanceRun at h
  split at h
  next ws' shared' hs =>
    cases h
    obtain ⟨w, u, l, hw, hstep, hfind⟩ := stepFirst_some hs
    exact ⟨w, u, l, hw, hstep, rfl, hfind⟩
  next => cases h

theorem platform_advanceRun (h : s.advanceRun id = some t) : t.platform = s.platform := by
  unfold advanceRun at h
  split at h
  · cases h
    rfl
  · cases h

/-- A run whose thread has a step takes it. -/
theorem exists_advanceRun {u : Thread Unit} {l : Link} {shared : Surroundings}
    (hw : s.worker? id = some w)
    (hs : w.thread.step s.isQueued w.link s.surroundings = some (u, l, shared)) :
    ∃ t, s.advanceRun id = some t := by
  obtain ⟨ws', hws'⟩ := stepFirst_of_find? hw hs
  exact ⟨{ s with workers := ws', surroundings := shared }, by simp only [advanceRun, hws']⟩

/-! ### What the host takes in -/

theorem keepsRun_shut : Link.KeepsRun Link.shut := fun _ => rfl

theorem keepsRun_cancel : Link.KeepsRun Link.cancel := fun _ => rfl

theorem keepsRun_remaining (rest : List RunEvent) : Link.KeepsRun (Link.remaining rest) :=
  fun _ => rfl

@[simp] theorem interpreter_closing (f : Interpreter → Interpreter × List Wakeup) :
    (s.closing id f).interpreter = (f s.interpreter).1 := by
  simp only [closing]
  split <;> simp

@[simp] theorem surroundings_closing (f : Interpreter → Interpreter × List Wakeup) :
    (s.closing id f).surroundings = s.surroundings := by
  simp only [closing]
  split <;> simp

@[simp] theorem platform_closing (f : Interpreter → Interpreter × List Wakeup) :
    (s.closing id f).platform = s.platform := by
  simp only [closing]
  split <;> simp

theorem worker?_closing (f : Interpreter → Interpreter × List Wakeup) (r : RunId) :
    (s.closing id f).worker? r =
      if (f s.interpreter).1.current = none ∧ r = id then
        (s.worker? r).map (·.onLink fun l => (Link.wakeAll (f s.interpreter).2 l).shut)
      else (s.worker? r).map (·.onLink (Link.wakeAll (f s.interpreter).2)) := by
  simp only [closing, interpreter_decide, Option.isNone_iff_eq_none]
  split
  next hc =>
    rw [worker?_onLink keepsRun_shut, worker?_decide]
    by_cases hr : r = id
    · rw [if_pos hr, if_pos ⟨hc, hr⟩, Option.map_map]
      rfl
    · rw [if_neg hr, if_neg fun h => hr h.2]
  next hc =>
    rw [if_neg fun h => hc h.1, worker?_decide]

/-- How the runs look when the host has received from one of them. -/
theorem worker?_received {rest : List RunEvent} {g : Interpreter → Interpreter × List Wakeup}
    (hw : s.worker? id = some w) (r : RunId) :
    ((s.onLink id (Link.remaining rest)).closing id g).worker? r =
      if r = id then
        some (w.onLink fun l =>
          let l := Link.wakeAll (g s.interpreter).2 (l.remaining rest)
          if (g s.interpreter).1.current = none then l.shut else l)
      else (s.worker? r).map (·.onLink (Link.wakeAll (g s.interpreter).2)) := by
  rw [worker?_closing, worker?_onLink (keepsRun_remaining rest), interpreter_onLink]
  by_cases hr : r = id
  · subst hr
    by_cases hc : (g s.interpreter).1.current = none
    · simp only [hc, hw, if_true, and_self]
      rfl
    · simp only [hc, hw, if_true, if_false, false_and]
      rfl
  · simp only [hr, if_false, and_false]

/-- What the host can take in: the first event of the current run, or that its thread
went away. -/
theorem receive_some (h : s.receive = some t) :
    ∃ run w, s.interpreter.current = some run ∧ s.worker? run.id = some w ∧
      ((∃ e rest, w.link.events = e :: rest ∧
          t = (s.onLink run.id (Link.remaining rest)).closing run.id fun i => i.dispatch e) ∨
        w.link.events = [] ∧ w.thread.isOver = true ∧
          t = s.closing run.id Interpreter.lose) := by
  unfold receive at h
  split at h
  · cases h
  next run hc =>
    split at h
    · cases h
    next w hw =>
      refine ⟨run, w, hc, hw, ?_⟩
      split at h
      next e rest he =>
        cases h
        exact Or.inl ⟨e, rest, he, rfl⟩
      next he =>
        split at h
        next hover =>
          cases h
          exact Or.inr ⟨he, hover, rfl⟩
        · cases h

/-! ### The parts of the calls -/

@[simp] theorem interpreter_forget : s.forget.interpreter = s.interpreter.supersede := by
  simp [forget]

theorem worker?_forget (r : RunId) :
    s.forget.worker? r =
      if s.interpreter.current.map (·.id) = some r then (s.worker? r).map (·.onLink Link.shut)
      else s.worker? r :=
  worker?_onCurrent keepsRun_shut r

@[simp] theorem interpreter_begin (script : String) (moment : Moment) :
    (s.begin script moment).interpreter = s.interpreter.start.1 := by
  simp [begin]

@[simp] theorem surroundings_begin (script : String) (moment : Moment) :
    (s.begin script moment).surroundings = s.surroundings := by
  simp [begin]

/-- The worker with which a run begins.  Without a thread for it there is nothing that it could do. -/
def beginner (s : Session) (script : String) (moment : Moment) : Worker :=
  ⟨.ofRun (s.interpreter.generation + 1) moment,
    if s.refusal?.isSome then .crash
    else scriptThread s.interpreter.config (s.interpreter.generation + 1) script⟩

theorem worker?_begin (script : String) (moment : Moment) (r : RunId) :
    (s.begin script moment).worker? r =
      if r = s.interpreter.generation + 1 then some (s.beginner script moment)
      else (s.worker? r).map (·.onLink (Link.wakeAll s.interpreter.start.2)) := by
  rw [← worker?_decide]
  by_cases hr : r = s.interpreter.generation + 1
  · subst hr
    simp [begin, worker?, beginner, Interpreter.start, Link.ofRun]
  · have hne : ¬ s.interpreter.generation + 1 = r := fun h => hr h.symm
    simp [begin, worker?, hr, hne, Interpreter.start, Link.ofRun]

theorem thread_beginner (hserved : s.refusal? = none) (script : String) (moment : Moment) :
    (s.beginner script moment).thread =
      scriptThread s.interpreter.config (s.interpreter.generation + 1) script := by
  simp [beginner, hserved]

theorem thread_beginner_of_refused {reason : String} (hrefused : s.refusal? = some reason)
    (script : String) (moment : Moment) : (s.beginner script moment).thread = .crash := by
  simp [beginner, hrefused]

/-- A run that got no thread is ended like any other. -/
theorem fail_eq {run : CurrentRun} (hc : s.interpreter.current = some run) (reason : String) :
    s.fail reason = s.closing run.id (Interpreter.fail reason) := by
  simp only [fail, hc]

@[simp] theorem surroundings_fail (reason : String) :
    (s.fail reason).surroundings = s.surroundings := by
  unfold fail
  split <;> simp

@[simp] theorem interpreter_leave : s.leave.interpreter = s.interpreter.leave := by
  simp [leave]

@[simp] theorem surroundings_leave : s.leave.surroundings = s.surroundings := by
  simp [leave]

theorem worker?_leave (r : RunId) :
    s.leave.worker? r =
      if s.interpreter.current.map (·.id) = some r then (s.worker? r).map (·.onLink Link.shut)
      else s.worker? r :=
  worker?_onCurrent keepsRun_shut r

end Session

end FilterScript
