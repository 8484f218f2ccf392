/-
The calls of the headless host, with everything that can happen between.

The host makes one call after another, and waits for the end of each.  While it waits
and before it makes the next, the threads take steps and time passes: a schedule is
what happens then.  `Called` leaves that open, so a headless run is a relation here:
it holds of every transcript that some schedule leads to.
-/
import FilterScript.Headless
import FilterScript.Proofs.Interpreter.Reached

namespace FilterScript

/-- Whether a move is none that the host begins or breaks off. -/
def Move.isBackground : Move → Bool
  | .host => true
  | .thread _ => true
  | .wait _ => true
  | .call _ => false
  | .giveUp => false

/-- Whether a call tells the host of the headless runs about widgets. -/
def Call.isWidgets : Call → Bool
  | .update .. => true
  | .clearWidgets => true
  | _ => false

namespace System

/-- A call of the host up to its end, with what happens besides until the next one; `B`
is what is noted on the way. -/
def Called (c : Call) (S : System) (B : List Note) (T : System) : Prop :=
  ∃ ms : List Move, (∀ m ∈ ms, m.isBackground = true) ∧ S.phase = .ready ∧
    S.play (.call c :: ms) = (T, B) ∧ T.phase = .ready

/-- A call for which the host waits in vain: the run has not settled when the time that
it was given is over. -/
def GivenUp (S : System) (B : List Note) (T : System) : Prop :=
  ∃ ms ms' : List Move, (∀ m ∈ ms, m.isBackground = true) ∧ (∀ m ∈ ms', m.isBackground = true) ∧
    S.phase = .ready ∧ (S.play (.call .settle :: ms)).1.phase = .settling ∧
    (S.play (.call .settle :: ms)).1.session.isSettled = false ∧
    S.play (.call .settle :: ms ++ .giveUp :: ms') = (T, B)

/-- Whether nobody is current. -/
def isIdle (S : System) : Bool := S.session.interpreter.state = .idle

/-- The turns of a headless run, from `delivered` frames on and with what the host has
heard; `B` is what is noted on the way. -/
inductive Turns (a : Allowance) : Nat → List WorkerMessage → System → Except Stall Transcript →
    List Note → System → Prop where
  | stall {delivered : Nat} {said : List WorkerMessage} {S T : System} {B : List Note}
      (hsettle : GivenUp S B T) :
      Turns a delivered said S (.error ⟨delivered, a.settleTimeout⟩) B T
  | last {delivered : Nat} {said : List WorkerMessage} {S S₁ S₂ T : System} {B₁ B₂ B₃ : List Note}
      (hsettle : Called .settle S B₁ S₁) (hpoll : Called .poll S₁ B₂ S₂)
      (hend : S₂.isIdle = true ∨ a.frames ≤ delivered)
      (hdiagnostics : Called .takeDiagnostics S₂ B₃ T) :
      Turns a delivered said S
        (.ok ⟨said ++ (handedOut B₂).map (·.2), delivered, S₂.isIdle,
          S₂.session.interpreter.diagnostics⟩) (B₁ ++ B₂ ++ B₃) T
  | frame {delivered : Nat} {said : List WorkerMessage} {S S₁ S₂ S₃ T : System}
      {B₁ B₂ B₃ B : List Note} {result : Except Stall Transcript} (moment : Moment)
      (hsettle : Called .settle S B₁ S₁) (hpoll : Called .poll S₁ B₂ S₂)
      (hgoes : S₂.isIdle = false) (hleft : delivered < a.frames)
      (hframe : Called (.frame moment) S₂ B₃ S₃)
      (hrest : Turns a (delivered + 1) (said ++ (handedOut B₂).map (·.2)) S₃ result B T) :
      Turns a delivered said S result (B₁ ++ B₂ ++ B₃ ++ B) T

/-- A headless run of a script. -/
def HeadlessRun (a : Allowance) (script : String) (S : System) (result : Except Stall Transcript)
    (B : List Note) (T : System) : Prop :=
  ∃ moment S₁ B₁ B₂, Called (.start script moment) S B₁ S₁ ∧ Turns a 0 [] S₁ result B₂ T ∧
    B = B₁ ++ B₂

/-- The histories of a host that runs scripts without a display, whatever came of them,
and reports the values of widgets between the runs. -/
inductive HostHistory (config : Config) : List Note → System → Prop where
  | fresh (platform : Platform) : HostHistory config [] (ofConfig config platform)
  | send {H B : List Note} {S T : System} {c : Call} (h : HostHistory config H S)
      (hc : c.isWidgets = true) (hcall : Called c S B T) : HostHistory config (H ++ B) T
  | run {H B : List Note} {S T : System} {a : Allowance} {script : String}
      {result : Except Stall Transcript} (h : HostHistory config H S)
      (hrun : HeadlessRun a script S result B T) : HostHistory config (H ++ B) T

/-! ### Every history of the host is a history

So whatever is known of all histories is known of what the host does.
-/

section Histories

variable {config : Config} {H B C : List Note} {S T U : System}

theorem exists_play_append (h : ∃ ms, S.play ms = (T, B)) (h' : ∃ ms, T.play ms = (U, C)) :
    ∃ ms, S.play ms = (U, B ++ C) := by
  obtain ⟨ms, hms⟩ := h
  obtain ⟨ms', hms'⟩ := h'
  exact ⟨ms ++ ms', by simp [play_append, hms, hms']⟩

theorem Called.exists_play {c : Call} (h : Called c S B T) : ∃ ms, S.play ms = (T, B) := by
  obtain ⟨ms, -, -, hplay, -⟩ := h
  exact ⟨_, hplay⟩

theorem Called.ready {c : Call} (h : Called c S B T) : T.phase = .ready := by
  obtain ⟨-, -, -, -, hready⟩ := h
  exact hready

theorem GivenUp.exists_play (h : GivenUp S B T) : ∃ ms, S.play ms = (T, B) := by
  obtain ⟨ms, ms', -, -, -, -, -, hplay⟩ := h
  exact ⟨_, hplay⟩

theorem Turns.exists_play {a : Allowance} {delivered : Nat} {said : List WorkerMessage}
    {result : Except Stall Transcript} (h : Turns a delivered said S result B T) :
    ∃ ms, S.play ms = (T, B) := by
  induction h with
  | stall hsettle => exact hsettle.exists_play
  | last hsettle hpoll hend hdiagnostics =>
      exact exists_play_append (exists_play_append hsettle.exists_play hpoll.exists_play)
        hdiagnostics.exists_play
  | frame moment hsettle hpoll hgoes hleft hframe hrest ih =>
      exact exists_play_append (exists_play_append
        (exists_play_append hsettle.exists_play hpoll.exists_play) hframe.exists_play) ih

theorem HeadlessRun.exists_play {a : Allowance} {script : String}
    {result : Except Stall Transcript} (h : HeadlessRun a script S result B T) :
    ∃ ms, S.play ms = (T, B) := by
  obtain ⟨moment, S₁, B₁, B₂, hstart, hturns, rfl⟩ := h
  exact exists_play_append hstart.exists_play hturns.exists_play

theorem HostHistory.reached (h : HostHistory config H S) : Reached config H S := by
  induction h with
  | fresh platform => exact ⟨platform, [], rfl⟩
  | send h hc hcall ih => exact ih.append hcall.exists_play
  | run h hrun ih => exact ih.append hrun.exists_play

end Histories

/-! ### What a call is made of

A call is its beginning and then moves of the background, so what the background keeps
is what the call keeps.
-/

section Background

variable {config : Config} {H B : List Note} {S T : System} {P : List Note → System → Prop}

/-- What a move of the background can be. -/
theorem background_cases {m : Move} (hm : m.isBackground = true) :
    (∃ r t, m = .thread r ∧ S.session.advanceRun r = some t ∧
      S.step m = (⟨t, S.phase⟩, S.session.stepNotes r)) ∨
    (∃ time, S.step m = (⟨S.session.wait time, S.phase⟩, [])) ∨
    S.step m = (S, []) ∨ S.phase ≠ .ready ∧ S.step m = goOn S.session S.phase := by
  cases m with
  | call c => cases hm
  | giveUp => cases hm
  | wait time => exact Or.inr (Or.inl ⟨time, rfl⟩)
  | thread r =>
      cases ha : S.session.advanceRun r with
      | some t => exact Or.inl ⟨r, t, rfl, ha, by simp only [step, ha]⟩
      | none => exact Or.inr (Or.inr (Or.inl (by simp only [step, ha])))
  | host =>
      by_cases hp : S.phase = .ready
      · refine Or.inr (Or.inr (Or.inl ?_))
        obtain ⟨s, phase⟩ := S
        cases hp
        rfl
      · exact Or.inr (Or.inr (Or.inr ⟨hp, rfl⟩))

/-- What the background keeps: the steps of threads, the passing of time, and the parts
of the call that the host is in; `H` is what was noted before the call. -/
structure Kept (config : Config) (H : List Note) (P : List Note → System → Prop) : Prop where
  thread : ∀ {B s t phase r}, Reached config (H ++ B) ⟨s, phase⟩ → P B ⟨s, phase⟩ →
    s.advanceRun r = some t → P (B ++ s.stepNotes r) ⟨t, phase⟩
  wait : ∀ {B s phase} time, P B ⟨s, phase⟩ → P B ⟨s.wait time, phase⟩
  host : ∀ {B s phase}, Reached config (H ++ B) ⟨s, phase⟩ → P B ⟨s, phase⟩ → phase ≠ .ready →
    P (B ++ (goOn s phase).2) (goOn s phase).1

theorem Kept.play (h : Kept config H P) {ms : List Move} (hms : ∀ m ∈ ms, m.isBackground = true)
    (hS : Reached config (H ++ B) S) (hP : P B S) : P (B ++ (S.play ms).2) (S.play ms).1 := by
  induction ms generalizing S B with
  | nil => simpa [System.play] using hP
  | cons m ms ih =>
      have hrest : ∀ m' ∈ ms, m'.isBackground = true := fun m' hm' =>
        hms m' (List.mem_cons_of_mem m hm')
      have hreached : Reached config (H ++ (B ++ (S.step m).2)) (S.step m).1 := by
        rw [← List.append_assoc]
        exact hS.step m
      have hnext : P (B ++ (S.step m).2) (S.step m).1 := by
        rcases background_cases (S := S) (hms m List.mem_cons_self) with
          ⟨r, t, -, ht, he⟩ | ⟨time, he⟩ | he | ⟨hp, he⟩
        · rw [he]
          exact h.thread hS hP ht
        · rw [he, List.append_nil]
          exact h.wait time hP
        · rw [he, List.append_nil]
          exact hP
        · rw [he]
          exact h.host hS hP hp
      simpa [System.play, List.append_assoc] using ih hrest hreached hnext

/-- What holds when a call has begun holds as long as the host is in it. -/
theorem Kept.begun (h : Kept config H P) {c : Call} {ms : List Move}
    (hms : ∀ m ∈ ms, m.isBackground = true) (hready : S.phase = .ready)
    (hS : Reached config H S) (hbegin : P (call S.session c).2 (call S.session c).1) :
    P (S.play (.call c :: ms)).2 (S.play (.call c :: ms)).1 := by
  have hstep : S.step (.call c) = call S.session c := if_pos hready
  have hreached := hS.step (.call c)
  rw [hstep] at hreached
  simpa only [System.play, hstep] using h.play hms hreached hbegin

/-- What holds when a call has begun holds at its end. -/
theorem Kept.called (h : Kept config H P) {c : Call} (hcall : Called c S B T)
    (hS : Reached config H S) (hbegin : P (call S.session c).2 (call S.session c).1) :
    P B T ∧ T.phase = .ready := by
  obtain ⟨ms, hms, hready, hplay, hend⟩ := hcall
  have hall := h.begun hms hready hS hbegin
  rw [hplay] at hall
  exact ⟨hall, hend⟩

end Background

end System

end FilterScript
