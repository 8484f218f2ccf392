/-
What the host keeps: messages that nobody has polled, and diagnostics.

Both grow at one end when the host takes in what the current run sent.  The outbox
shrinks at the other end when it is polled, so what was handed out and what is left are
one stream to which only the current run adds.  Of the diagnostics the newest are kept,
and there is one for each run whose end was a failure.  `Keeps` says what a move can do
to either: the host takes the diagnostics, or it receives, or nothing is added.
-/
import FilterScript.Proofs.Interpreter.Reached

namespace FilterScript

/-- What is kept of how a run ended. -/
def Outcome.diagnostic? : Outcome → Option Diagnostic
  | .failed _ diagnostic => some diagnostic
  | _ => none

/-- What is kept when the host takes in how a run ended, if that is noted. -/
def Note.diagnostic? : Note → Option Diagnostic
  | collected _ o => o.diagnostic?
  | _ => none

/-- The diagnostics of all runs whose ends were taken in. -/
def found (H : List Note) : List Diagnostic := H.filterMap Note.diagnostic?

@[simp] theorem found_append (H H' : List Note) : found (H ++ H') = found H ++ found H' := by
  simp [found]

theorem found_eq_nil {H : List Note} (h : ∀ r o, .collected r o ∉ H) : found H = [] :=
  List.filterMap_eq_nil_iff.mpr fun n hn => by
    cases n with
    | collected r o => exact absurd hn (h r o)
    | _ => rfl

/-- The newest of some diagnostics, as many as are kept. -/
def kept (ds : List Diagnostic) : List Diagnostic :=
  ds.drop (ds.length - Interpreter.mostDiagnostics)

theorem length_kept (ds : List Diagnostic) : (kept ds).length ≤ Interpreter.mostDiagnostics := by
  rw [kept, List.length_drop]
  omega

theorem kept_of_length_le {ds : List Diagnostic} (h : ds.length ≤ Interpreter.mostDiagnostics) :
    kept ds = ds := by
  rw [kept, Nat.sub_eq_zero_of_le h, List.drop_zero]

/-- Old ones are dropped when there are enough of the new. -/
theorem kept_append_of_le {old ds : List Diagnostic} (h : Interpreter.mostDiagnostics ≤ ds.length) :
    kept (old ++ ds) = kept ds := by
  have hold : old.length ≤ (old ++ ds).length - Interpreter.mostDiagnostics := by
    rw [List.length_append]
    omega
  rw [kept, kept, List.drop_append, List.drop_eq_nil_of_le hold, List.nil_append,
    List.length_append]
  congr 1
  omega

/-- It makes no difference whether the old ones are dropped now or later. -/
theorem kept_append (ds es : List Diagnostic) : kept (kept ds ++ es) = kept (ds ++ es) := by
  by_cases h : ds.length ≤ Interpreter.mostDiagnostics
  · rw [kept_of_length_le h]
  · have hsplit : ds.take (ds.length - Interpreter.mostDiagnostics) ++ kept ds = ds :=
      List.take_append_drop _ ds
    have hlength : Interpreter.mostDiagnostics ≤ (kept ds ++ es).length := by
      rw [List.length_append, kept, List.length_drop]
      omega
    calc kept (kept ds ++ es)
        = kept (ds.take (ds.length - Interpreter.mostDiagnostics) ++ (kept ds ++ es)) :=
          (kept_append_of_le hlength).symm
      _ = kept (ds ++ es) := by rw [← List.append_assoc, hsplit]

namespace Session

variable {s t : Session} {ns : List Note}

/-- What a move adds to what the host keeps. -/
structure Stocks (s : Session) (ns : List Note) (t : Session) : Prop where
  outbox : ∃ new : List (RunId × WorkerMessage),
    handedOut ns ++ t.interpreter.outbox = s.interpreter.outbox ++ new ∧
      ∀ x ∈ new, s.current? = some x.1
  diagnostics : t.interpreter.diagnostics = kept (s.interpreter.diagnostics ++ found ns)

/-- A move that has nothing to do with what is kept. -/
theorem Stocks.still (houtbox : t.interpreter.outbox = s.interpreter.outbox)
    (hdiagnostics : t.interpreter.diagnostics = s.interpreter.diagnostics)
    (hbound : s.interpreter.diagnostics.length ≤ Interpreter.mostDiagnostics)
    (hhanded : handedOut ns = []) (hfound : found ns = []) : s.Stocks ns t where
  outbox := ⟨[], by simp [hhanded, houtbox], by simp⟩
  diagnostics := by rw [hdiagnostics, hfound, List.append_nil, kept_of_length_le hbound]

/-- What the host takes in of the current run: something that it said, or its continuation, or
how it ended. -/
inductive Intake (s : Session) (run : CurrentRun) (ns : List Note) (t : Session) : Prop where
  | said (m : WorkerMessage) (hi : t.interpreter = s.interpreter.say run.id m) (hns : ns = [])
  | queued (c : Continuation) (hi : t.interpreter = (s.interpreter.dispatch (.suspend c)).1)
      (hns : ns = [])
  | ended (o : Outcome) (hi : t.interpreter = (s.interpreter.finish o).1)
      (hns : ns = [.collected run.id o])

theorem intake_receive (h : s.receive = some t) :
    ∃ run, s.interpreter.current = some run ∧ s.Intake run s.receiveNotes t := by
  obtain ⟨run, w, hc, hw, ⟨e, rest, he, rfl⟩ | ⟨he, -, rfl⟩⟩ := receive_some h
  · refine ⟨run, hc, ?_⟩
    cases e with
    | message m =>
        refine .said m ?_ (by simp only [receiveNotes, hc, hw, he])
        simp only [interpreter_closing, interpreter_onLink, Interpreter.dispatch, hc]
    | suspend c =>
        refine .queued c ?_ (by simp only [receiveNotes, hc, hw, he])
        rw [interpreter_closing, interpreter_onLink]
    | finished o =>
        refine .ended o ?_ (by simp only [receiveNotes, hc, hw, he])
        simp only [interpreter_closing, interpreter_onLink, Interpreter.dispatch, hc]
  · refine ⟨run, hc, .ended lostOutcome ?_ (by simp only [receiveNotes, hc, hw, he])⟩
    rw [interpreter_closing]
    rfl

/-- The host ends a run that got no thread, as if it had reported that. -/
theorem intake_fail {run : CurrentRun} (hc : s.interpreter.current = some run) (reason : String) :
    s.Intake run (s.failNotes reason) (s.fail reason) := by
  refine .ended (unstartedOutcome reason) ?_ (by simp [failNotes, hc])
  rw [fail_eq hc, interpreter_closing]
  rfl

theorem diagnostics_finish {i : Interpreter} {run : CurrentRun} (o : Outcome)
    (hc : i.current = some run) :
    (i.finish o).1.diagnostics = match o.diagnostic? with
      | some d => kept (i.diagnostics ++ [d])
      | none => i.diagnostics := by
  simp only [Interpreter.finish, hc]
  cases o <;> rfl

theorem Intake.stocks {run : CurrentRun} (h : s.Intake run ns t)
    (hc : s.interpreter.current = some run)
    (hbound : s.interpreter.diagnostics.length ≤ Interpreter.mostDiagnostics) : s.Stocks ns t := by
  have hcurrent : s.current? = some run.id := System.Sound.current?_eq_some hc
  cases h with
  | said m hi hns =>
      rw [hns]
      refine ⟨⟨[(run.id, m)], by rw [hi]; rfl, ?_⟩, ?_⟩
      · intro x hx
        rw [List.mem_singleton.mp hx, hcurrent]
      · rw [hi, show found [] = [] from rfl, List.append_nil, kept_of_length_le hbound]
        rfl
  | queued c hi hns =>
      rw [hns]
      refine .still ?_ ?_ hbound rfl rfl
      · rw [hi]
        simp only [Interpreter.dispatch, hc]
      · rw [hi]
        simp only [Interpreter.dispatch, hc]
  | ended o hi hns =>
      rw [hns]
      refine ⟨⟨o.farewell.map fun m => (run.id, m), ?_, ?_⟩, ?_⟩
      · rw [hi, System.Ledger.outbox_finish o hc]
        rfl
      · intro x hx
        obtain ⟨m, -, rfl⟩ := List.mem_map.mp hx
        exact hcurrent
      · rw [hi, diagnostics_finish o hc]
        cases hd : o.diagnostic? with
        | none => simp [found, Note.diagnostic?, hd, kept_of_length_le hbound]
        | some d => simp [found, Note.diagnostic?, hd]

end Session

namespace System

open Session

variable {config : Config} {H ns : List Note} {S T : System} {m : Move}

/-! ### What a move does to what is kept -/

/-- Whether a move takes the diagnostics.  A host that is busy cannot be asked. -/
def takes (S : System) : Move → Bool
  | .call .takeDiagnostics => S.phase = .ready
  | _ => false

/-- What a move does that does not take the diagnostics. -/
inductive Keeps (S : System) (ns : List Note) (T : System) : Prop where
  /-- Nothing is added, and messages are taken out at most. -/
  | still (hdiagnostics : T.session.interpreter.diagnostics = S.session.interpreter.diagnostics)
      (houtbox : T.session.interpreter.outbox.Sublist S.session.interpreter.outbox)
      (hnone : ∀ r o, .collected r o ∉ ns)
  | taken {run : CurrentRun} (hc : S.session.interpreter.current = some run)
      (h : S.session.Intake run ns T.session)

theorem Keeps.same
    (hdiagnostics : T.session.interpreter.diagnostics = S.session.interpreter.diagnostics)
    (houtbox : T.session.interpreter.outbox = S.session.interpreter.outbox)
    (hnone : ∀ r o, .collected r o ∉ ns) : Keeps S ns T :=
  .still hdiagnostics (houtbox ▸ List.Sublist.refl _) hnone

theorem not_collected_nil (r : RunId) (o : Outcome) : .collected r o ∉ ([] : List Note) :=
  List.not_mem_nil

/-- A move that changes neither and notes nothing. -/
theorem Keeps.quiet
    (hdiagnostics : T.session.interpreter.diagnostics = S.session.interpreter.diagnostics)
    (houtbox : T.session.interpreter.outbox = S.session.interpreter.outbox) : Keeps S [] T :=
  .same hdiagnostics houtbox not_collected_nil

theorem Keeps.thread {s t : Session} {r : RunId} (h : s.advanceRun r = some t) (phase : HostPhase) :
    Keeps ⟨s, phase⟩ (s.stepNotes r) ⟨t, phase⟩ := by
  obtain ⟨_, _, _, _, _, hinterpreter, _⟩ := advanceRun_some h
  refine .same (congrArg _ hinterpreter) (congrArg _ hinterpreter) fun r' o hn => ?_
  rcases of_mem_stepNotes hn with ⟨_, he⟩ | he | ⟨_, he⟩ | ⟨_, he⟩ <;> cases he

theorem Keeps.call (c : Call) (h : c ≠ .takeDiagnostics) :
    Keeps S (call S.session c).2 (call S.session c).1 := by
  have hnone (r : RunId) (o : Outcome) : .collected r o ∉ (System.call S.session c).2 := fun hn => by
    obtain ⟨r', he⟩ := of_mem_call hn
    cases he
  have hflag : S.session.flag.interpreter = S.session.interpreter := interpreter_onCurrent
  cases c with
  | takeDiagnostics => exact absurd rfl h
  | start script moment => exact .same (congrArg _ hflag) (congrArg _ hflag) hnone
  | close => exact .same (congrArg _ hflag) (congrArg _ hflag) hnone
  | _ => exact .same rfl rfl hnone

/-- A host that goes on with its call takes something in, or adds nothing. -/
theorem Moves.keeps (hm : Moves S ns T) (hphase : S.phase ≠ .ready) : Keeps S ns T := by
  cases hm with
  | receive h =>
      obtain ⟨run, hc, hintake⟩ := intake_receive h
      exact .taken hc hintake
  | fail s reason =>
      cases hc : s.interpreter.current with
      | none =>
          have hstill : s.fail reason = s := by simp only [Session.fail, hc]
          exact .same (by rw [hstill]) (by rw [hstill]) (by simp [failNotes, hc])
      | some run => exact .taken hc (intake_fail hc reason)
  | forget s script moment =>
      refine .still ?_ ?_ not_collected_nil <;> rw [interpreter_forget, Interpreter.supersede]
      · split <;> rfl
      · split
        · exact List.Sublist.refl _
        · exact List.filter_sublist
  | hand s => exact .still rfl (List.nil_sublist _) (by simp)
  | begin s script moment h =>
      exact .quiet (by rw [interpreter_begin]; rfl) (by rw [interpreter_begin]; rfl)
  | refuse s script moment reason h =>
      exact .same (by rw [interpreter_begin]; rfl) (by rw [interpreter_begin]; rfl) (by simp)
  | hold s moment h => exact .quiet (by simp) (by simp)
  | tick s moment =>
      exact .quiet (by rw [interpreter_decide]; rfl) (by rw [interpreter_decide]; rfl)
  | release s moment awaited =>
      cases awaited <;>
        exact .quiet (by simp [Session.release, Interpreter.resume])
          (by simp [Session.release, Interpreter.resume])
  | vacate s => exact .quiet (by rw [interpreter_leave]; rfl) (by rw [interpreter_leave]; rfl)
  | stop s =>
      exact .quiet (by rw [interpreter_decide]; rfl) (by rw [interpreter_decide]; rfl)
  | thread h phase => exact .thread h phase
  | skip s moment h => exact .quiet rfl rfl
  | settled s h => exact .quiet rfl rfl
  | giveUp s => exact .quiet rfl rfl
  | wait s phase time => exact .quiet rfl rfl
  | _ => exact absurd rfl hphase

/-- **A move that does not take the diagnostics takes something in of the current run, or adds
nothing.** -/
theorem keeps_step (h : S.takes m = false) : Keeps S (S.step m).2 (S.step m).1 := by
  have hnothing : Keeps S [] S := .quiet rfl rfl
  cases m with
  | call c =>
      by_cases hphase : S.phase = .ready
      · rw [step, if_pos hphase]
        refine .call c (fun hc => ?_)
        rw [hc, takes, decide_eq_false_iff_not] at h
        exact h hphase
      · rw [step, if_neg hphase]
        exact hnothing
  | host =>
      by_cases hphase : S.phase = .ready
      · rw [step, hphase]
        exact .quiet rfl rfl
      · rcases goOn_moves S.session S.phase with he | hm
        · rw [step, he]
          exact hnothing
        · exact hm.keeps hphase
  | giveUp =>
      rw [step]
      split
      · exact .quiet rfl rfl
      · exact hnothing
  | thread r =>
      rw [step]
      split
      next t ht => exact .thread ht S.phase
      · exact hnothing
  | wait time => exact .quiet rfl rfl

theorem step_of_takes (h : S.takes m = true) :
    S.step m = (⟨S.session.takeDiagnostics.2, .ready⟩, []) := by
  unfold takes at h
  split at h
  · rw [step, if_pos (of_decide_eq_true h)]
    rfl
  · cases h

/-- The failures that a move takes in are added, and the newest of all are kept. -/
theorem diagnostics_step (h : S.takes m = false)
    (hbound : S.session.interpreter.diagnostics.length ≤ Interpreter.mostDiagnostics) :
    (S.step m).1.session.interpreter.diagnostics =
      kept (S.session.interpreter.diagnostics ++ found (S.step m).2) := by
  cases keeps_step h with
  | still hdiagnostics _ hnone =>
      rw [hdiagnostics, found_eq_nil hnone, List.append_nil, kept_of_length_le hbound]
  | taken hc h => exact (h.stocks hc hbound).diagnostics

/-- **The host never keeps more diagnostics than it may.** -/
theorem length_diagnostics_play (ms : List Move)
    (h : S.session.interpreter.diagnostics.length ≤ Interpreter.mostDiagnostics) :
    (S.play ms).1.session.interpreter.diagnostics.length ≤ Interpreter.mostDiagnostics := by
  induction ms generalizing S with
  | nil => exact h
  | cons m ms ih =>
      refine ih ?_
      by_cases htakes : S.takes m = true
      · rw [step_of_takes htakes]
        exact Nat.zero_le _
      · rw [diagnostics_step (Bool.not_eq_true _ ▸ htakes) h]
        exact length_kept _

theorem Reached.length_diagnostics (h : Reached config H S) :
    S.session.interpreter.diagnostics.length ≤ Interpreter.mostDiagnostics := by
  obtain ⟨platform, ms, hms⟩ := h
  have hlength := length_diagnostics_play (S := ofConfig config platform) ms (Nat.zero_le _)
  rwa [hms] at hlength

end System

end FilterScript
