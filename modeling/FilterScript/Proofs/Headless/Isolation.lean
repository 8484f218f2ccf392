/-
What a transcript holds of other runs.

The host of a headless run may have done anything before: it may have started scripts,
delivered frames and gone on without polling.  Whatever was taken in of a run that has
ended stays in the outbox, and its diagnostic with the others; only the run that is
current when the next one begins is forgotten with its messages.  So a transcript begins
with what was left, and behind that it is the new run's alone.

`Since` follows this from the beginning of the run: what was handed out and what is in
the outbox are together what was left and then messages of the run, and there is one
diagnostic at most besides those that were there.  `Fate` is what that comes to when the
run is returned, and the ledger says of whom the leftovers are.
-/
import FilterScript.Proofs.Headless.Progress
import FilterScript.Proofs.Interpreter.Stock

namespace FilterScript

open Session

variable {r : RunId} {B ns : List Note} {s t : Session} {L : List (RunId × WorkerMessage)}
  {D : List Diagnostic} {phase : HostPhase}

theorem ending_append : ending r (B ++ ns) = (ending r B).or (ending r ns) := by
  simp only [ending, List.findSome?_append]

theorem handedOut_of_quiet (h : ∀ n ∈ ns, n.isTaken = false) : handedOut ns = [] := by
  refine System.handedOut_eq_nil fun batch hbatch => ?_
  have hquiet := h _ hbatch
  cases hquiet

theorem found_of_quiet (h : ∀ n ∈ ns, n.isTaken = false) : found ns = [] :=
  found_eq_nil fun _ _ hn => Bool.noConfusion (h _ hn)

theorem ending_of_quiet (h : ∀ n ∈ ns, n.isTaken = false) : ending r ns = none := by
  refine List.findSome?_eq_none_iff.mpr fun n hn => ?_
  have hquiet := h n hn
  cases n <;> first | rfl | cases hquiet

/-- Whether the host is at a call of a turn that hands nothing out. -/
def HostPhase.IsMute (phase : HostPhase) : Prop :=
  phase.isTurn = true ∧ phase ≠ .collecting .poll

/-- What is in the outbox when the run that is current has been replaced. -/
def Session.leftovers (s : Session) : List (RunId × WorkerMessage) :=
  s.interpreter.supersede.outbox

/-- A run is current and its end was not taken in, or its end was taken in once. -/
inductive Session.Ends (r : RunId) (B : List Note) (s : Session) : Prop where
  | current (hcurrent : s.current? = some r) (hending : ending r B = none) (hfound : found B = [])
  | ended (o : Outcome) (hcurrent : s.current? = none) (hending : ending r B = some o)
      (hfound : found B = o.diagnostic?.toList)

/-- What the host keeps since a run began, when `L` was in the outbox and `D` were the
diagnostics. -/
structure Session.Since (L : List (RunId × WorkerMessage)) (D : List Diagnostic) (r : RunId)
    (B : List Note) (s : Session) : Prop where
  newest : s.newest = r
  outbox : ∃ mine : List (RunId × WorkerMessage),
    handedOut B ++ s.interpreter.outbox = L ++ mine ∧ ∀ x ∈ mine, x.1 = r
  diagnostics : s.interpreter.diagnostics = kept (D ++ found B)
  ends : s.Ends r B

namespace Session.Ends

theorem still (h : s.Ends r B) (hcurrent : t.current? = s.current?)
    (hending : ending r ns = none) (hfound : found ns = []) : t.Ends r (B ++ ns) := by
  cases h with
  | current hc hnone hnothing =>
      exact .current (hcurrent.trans hc) (by rw [ending_append, hnone, hending]; rfl)
        (by rw [found_append, hnothing, hfound]; rfl)
  | ended o hc ho hd =>
      exact .ended o (hcurrent.trans hc) (by rw [ending_append, ho]; rfl)
        (by rw [found_append, hd, hfound, List.append_nil])

/-- The end of the current run is taken in. -/
theorem finish {o : Outcome} (h : s.Ends r B) (hc : s.current? = some r)
    (hcurrent : t.current? = none) : t.Ends r (B ++ [.collected r o]) := by
  cases h with
  | current _ hnone hnothing =>
      refine .ended o hcurrent ?_ ?_
      · rw [ending_append, hnone]
        simp [ending]
      · rw [found_append, hnothing]
        cases hd : o.diagnostic? <;> simp [found, Note.diagnostic?, hd]
  | ended _ hc' =>
      rw [hc] at hc'
      cases hc'

end Session.Ends

namespace Session.Since

theorem stocks (h : s.Since L D r B) (hS : System.Sound ⟨s, phase⟩) (hstocks : s.Stocks ns t)
    (hnewest : t.newest = s.newest) (hends : t.Ends r (B ++ ns)) : t.Since L D r (B ++ ns) := by
  refine ⟨hnewest.trans h.newest, ?_, ?_, hends⟩
  · obtain ⟨mine, hmine, hall⟩ := h.outbox
    obtain ⟨new, hnew, hcurrent⟩ := hstocks.outbox
    refine ⟨mine ++ new, ?_, fun x hx => ?_⟩
    · rw [handedOut_append, List.append_assoc, hnew, ← List.append_assoc, hmine, List.append_assoc]
    · rcases List.mem_append.mp hx with hx | hx
      · exact hall x hx
      · -- The run that is current is the newest.
        obtain ⟨run, hc, hid⟩ := Option.map_eq_some_iff.mp (hcurrent x hx)
        rw [← hid]
        exact (hS.live run hc).newest.trans h.newest
  · rw [hstocks.diagnostics, h.diagnostics, kept_append, found_append, List.append_assoc]

/-- A move that has nothing to do with what is kept. -/
theorem still (h : s.Since L D r B) (hnewest : t.newest = s.newest)
    (houtbox : t.interpreter.outbox = s.interpreter.outbox)
    (hdiagnostics : t.interpreter.diagnostics = s.interpreter.diagnostics)
    (hcurrent : t.current? = s.current?) (hquiet : ∀ n ∈ ns, n.isTaken = false) :
    t.Since L D r (B ++ ns) where
  newest := hnewest.trans h.newest
  outbox := by
    rw [handedOut_append, handedOut_of_quiet hquiet, List.append_nil, houtbox]
    exact h.outbox
  diagnostics := by
    rw [found_append, found_of_quiet hquiet, List.append_nil, hdiagnostics]
    exact h.diagnostics
  ends := h.ends.still hcurrent (ending_of_quiet hquiet) (found_of_quiet hquiet)

/-- Threads have nothing to do with what is kept. -/
theorem advance {r' : RunId} (h : s.Since L D r B) (ht : s.advanceRun r' = some t) :
    t.Since L D r (B ++ s.stepNotes r') := by
  have hinterpreter := interpreter_advanceRun ht
  exact h.still (by rw [Session.newest, hinterpreter]; rfl) (by rw [hinterpreter])
    (by rw [hinterpreter]) (by rw [current?, hinterpreter]; rfl) System.quiet_stepNotes

theorem wait (h : s.Since L D r B) (time : Duration) : (s.wait time).Since L D r B := by
  rw [← List.append_nil B]
  exact h.still rfl rfl rfl rfl (by simp)

/-- What the host takes in comes from the run. -/
theorem intake {run : CurrentRun} (h : s.Since L D r B) (hS : System.Sound ⟨s, phase⟩)
    (hc : s.interpreter.current = some run) (hintake : s.Intake run ns t)
    (hbound : s.interpreter.diagnostics.length ≤ Interpreter.mostDiagnostics) :
    t.Since L D r (B ++ ns) := by
  have hstocks := hintake.stocks hc hbound
  have hid : run.id = r := (hS.live run hc).newest.trans h.newest
  have hcurrent : s.current? = some r := by rw [current?, hc, ← hid]; rfl
  cases hintake with
  | said m hi hns =>
      refine h.stocks hS hstocks (by rw [Session.newest, hi]; rfl) ?_
      rw [hns]
      exact h.ends.still (by rw [current?, hi]; rfl) rfl rfl
  | queued c hi hns =>
      refine h.stocks hS hstocks ?_ ?_
      · rw [Session.newest, hi]
        simp only [Interpreter.dispatch, hc]
        rfl
      · rw [hns]
        refine h.ends.still ?_ rfl rfl
        rw [current?, hi, current?, hc]
        simp only [Interpreter.dispatch, hc]
        rfl
  | ended o hi hns =>
      refine h.stocks hS hstocks
        (by rw [Session.newest, hi, System.Sound.generation_finish]; rfl) ?_
      rw [hns, hid]
      refine h.ends.finish hcurrent ?_
      rw [current?, hi, System.Sound.current_finish]
      rfl

theorem receive (h : s.Since L D r B) (hS : System.Sound ⟨s, phase⟩) (hr : s.receive = some t)
    (hbound : s.interpreter.diagnostics.length ≤ Interpreter.mostDiagnostics) :
    t.Since L D r (B ++ s.receiveNotes) := by
  obtain ⟨run, hc, hintake⟩ := intake_receive hr
  exact h.intake hS hc hintake hbound

/-- So does the end of a run that got no thread. -/
theorem fail {reason : String} (h : s.Since L D r B) (hS : System.Sound ⟨s, .refused reason⟩)
    (hbound : s.interpreter.diagnostics.length ≤ Interpreter.mostDiagnostics) :
    (s.fail reason).Since L D r (B ++ s.failNotes reason) := by
  obtain ⟨run, hc⟩ := hS.exists_current rfl
  exact h.intake hS hc (intake_fail hc reason) hbound

end Session.Since

namespace System

variable {config : Config} {H : List Note} {S T : System}

/-- The host goes on with a call of a turn. -/
theorem since_goOn (h : s.Since L D r B) (hS : Sound ⟨s, phase⟩) (hphase : phase.isTurn = true)
    (hbound : s.interpreter.diagnostics.length ≤ Interpreter.mostDiagnostics) :
    (goOn s phase).1.session.Since L D r (B ++ (goOn s phase).2) ∧
      (goOn s phase).1.phase.isTurn = true := by
  have hnone : ∀ n ∈ ([] : List Note), n.isTaken = false := by simp
  cases phase with
  | ready => exact ⟨h.still rfl rfl rfl rfl hnone, rfl⟩
  | collecting purpose =>
      cases hr : s.receive with
      | some t =>
          simp only [goOn, hr]
          exact ⟨h.receive hS hr hbound, rfl⟩
      | none =>
          simp only [goOn, hr]
          cases purpose with
          | poll =>
              -- The outbox becomes what was handed out last.
              refine ⟨⟨h.newest, ?_, ?_, ?_⟩, rfl⟩
              · obtain ⟨mine, hmine, hall⟩ := h.outbox
                refine ⟨mine, ?_, hall⟩
                rw [← hmine]
                simp [System.run, take, handedOut, Note.batch]
              · rw [found_append, show found (System.run s .poll).2 = [] from rfl, List.append_nil]
                exact h.diagnostics
              · exact h.ends.still rfl rfl rfl
          | frame moment =>
              simp only [System.run]
              split
              · exact ⟨h.still rfl rfl rfl rfl hnone, rfl⟩
              · exact ⟨h.still (by simp [Session.newest]) (by simp) (by simp) (by simp [current?])
                  hnone, rfl⟩
  | held moment =>
      refine ⟨h.still ?_ ?_ ?_ ?_ hnone, rfl⟩ <;>
        simp only [goOn, Session.newest, current?, interpreter_decide] <;> rfl
  | woken moment awaited =>
      refine ⟨h.still ?_ ?_ ?_ ?_ hnone, rfl⟩ <;> cases awaited <;>
        simp [goOn, release, Interpreter.resume, Session.newest, current?]
      cases s.interpreter.current <;> rfl
  | settling =>
      simp only [goOn]
      split
      · exact ⟨h.still rfl rfl rfl rfl hnone, rfl⟩
      · split
        next t hr => exact ⟨h.receive hS hr hbound, rfl⟩
        · exact ⟨h.still rfl rfl rfl rfl hnone, rfl⟩
  | _ => cases hphase

/-- What the calls of a turn keep; `C` is what was noted before the call. -/
theorem kept_since (config : Config) (H C : List Note) :
    Kept config H fun B S => S.phase.isTurn = true ∧ S.session.Since L D r (C ++ B) where
  thread _ hP ht := by
    rw [← List.append_assoc]
    exact ⟨hP.1, hP.2.advance ht⟩
  wait time hP := ⟨hP.1, hP.2.wait time⟩
  host hS hP _ := by
    rw [← List.append_assoc]
    exact (since_goOn hP.2 hS.sound hP.1 hS.length_diagnostics).symm

/-- A call of a turn, but for the one that takes the diagnostics. -/
theorem Called.since {c : Call} {C : List Note} (h : Called c S B T) (hS : Reached config H S)
    (hc : c = .settle ∨ c = .poll ∨ ∃ moment, c = .frame moment)
    (hP : S.session.Since L D r C) : T.session.Since L D r (C ++ B) := by
  refine ((kept_since config H C).called h hS ?_).1.2
  rcases hc with rfl | rfl | ⟨moment, rfl⟩ <;>
    exact ⟨rfl, by simpa [call] using hP⟩

theorem unheard_goOn (h : phase.IsMute) :
    (goOn s phase).1.phase.IsMute ∧ handedOut (goOn s phase).2 = [] := by
  obtain ⟨hphase, hpoll⟩ := h
  cases phase with
  | collecting purpose =>
      cases hr : s.receive with
      | some t =>
          simp only [goOn, hr]
          exact ⟨⟨rfl, hpoll⟩, handedOut_receiveNotes⟩
      | none =>
          simp only [goOn, hr]
          cases purpose with
          | poll => exact absurd rfl hpoll
          | frame moment =>
              simp only [System.run]
              split <;> exact ⟨⟨rfl, by simp⟩, rfl⟩
  | settling =>
      simp only [goOn]
      split
      · exact ⟨⟨rfl, by simp⟩, rfl⟩
      · split
        · exact ⟨⟨rfl, by simp⟩, handedOut_receiveNotes⟩
        · exact ⟨⟨rfl, by simp⟩, rfl⟩
  | ready => exact ⟨⟨rfl, by simp [goOn]⟩, rfl⟩
  | held moment => exact ⟨⟨rfl, by simp [goOn]⟩, rfl⟩
  | woken moment awaited => exact ⟨⟨rfl, by simp [goOn]⟩, rfl⟩
  | _ => cases hphase

/-- Only a poll hands anything out. -/
theorem Called.unheard {c : Call} (h : Called c S B T) (hS : Reached config H S)
    (hc : c = .settle ∨ ∃ moment, c = .frame moment) : handedOut B = [] := by
  have hkept : Kept config H fun B U => U.phase.IsMute ∧ handedOut B = [] := by
    refine ⟨fun _ hP _ => ⟨hP.1, handedOut_append_nil hP.2 handedOut_stepNotes⟩,
      fun _ hP => hP, fun {_ s _} _ hP _ => ?_⟩
    have hgo := unheard_goOn (s := s) hP.1
    exact ⟨hgo.1, handedOut_append_nil hP.2 hgo.2⟩
  refine (hkept.called h hS ?_).1.2
  rcases hc with rfl | ⟨moment, rfl⟩ <;> exact ⟨⟨rfl, by simp [call]⟩, rfl⟩

/-- Taking the diagnostics has nothing to do with the runs. -/
theorem Called.quiet (h : Called .takeDiagnostics S B T) (hS : Reached config H S) :
    ∀ n ∈ B, n.isTaken = false := by
  have hkept : Kept config H fun B U => U.phase = .ready ∧ ∀ n ∈ B, n.isTaken = false := by
    refine ⟨fun _ hP _ => ⟨hP.1, fun n hn => ?_⟩, fun _ hP => hP,
      fun _ hP hready => absurd hP.1 hready⟩
    exact (List.mem_append.mp hn).elim (hP.2 n) (quiet_stepNotes n)
  exact (hkept.called h hS ⟨rfl, by simp [call]⟩).1.2

/-- What is left of `Since` when the run was returned. -/
structure Returned (L : List (RunId × WorkerMessage)) (D : List Diagnostic) (r : RunId)
    (B : List Note) (T : System) (t : Transcript) : Prop where
  messages : t.messages = (handedOut B).map (·.2)
  outbox : ∃ mine : List (RunId × WorkerMessage),
    handedOut B = L ++ mine ∧ ∀ x ∈ mine, x.1 = r
  diagnostics : t.diagnostics = kept (D ++ found B)
  ends : T.session.Ends r B
  finished : t.finished = true ↔ T.session.current? = none
  polled : T.session.interpreter.outbox = []
  ready : T.phase = .ready

/-- The last turn: the run settles and is polled, and the diagnostics are taken. -/
theorem returned_last {S₁ S₂ : System} {B₁ B₂ B₃ C : List Note} {said : List WorkerMessage}
    {delivered : Nat} (hS : Reached config H S) (hP : S.session.Since L D r C)
    (hsaid : said = (handedOut C).map (·.2)) (hsettle : Called .settle S B₁ S₁)
    (hpoll : Called .poll S₁ B₂ S₂) (hdiagnostics : Called .takeDiagnostics S₂ B₃ T) :
    Returned L D r (C ++ B₁ ++ B₂ ++ B₃) T
      ⟨said ++ (handedOut B₂).map (·.2), delivered, S₂.isIdle,
        S₂.session.interpreter.diagnostics⟩ := by
  have hsettled := hS.append hsettle.exists_play
  have hpolled := hsettled.append hpoll.exists_play
  have hP₂ := hpoll.since hsettled (Or.inr (Or.inl rfl)) (hsettle.since hS (Or.inl rfl) hP)
  have hquiet := hdiagnostics.quiet hpolled
  obtain ⟨hcurrent, houtbox⟩ := hdiagnostics.still hpolled (Or.inr rfl)
  have hempty := hpoll.outbox_poll hsettled
  have hheard : handedOut (C ++ B₁ ++ B₂ ++ B₃) = handedOut (C ++ B₁ ++ B₂) := by
    rw [handedOut_append, handedOut_of_quiet hquiet, List.append_nil]
  refine ⟨?_, ?_, ?_, ?_, ⟨fun hidle => ?_, fun hnone => ?_⟩, houtbox.trans hempty,
    hdiagnostics.ready⟩
  · rw [hheard, handedOut_append, handedOut_append, hsettle.unheard hS (Or.inl rfl),
      List.append_nil, hsaid, List.map_append]
  · obtain ⟨mine, hmine, hall⟩ := hP₂.outbox
    exact ⟨mine, by rw [hheard, ← hmine, hempty, List.append_nil], hall⟩
  · rw [found_append, found_of_quiet hquiet, List.append_nil]
    exact hP₂.diagnostics
  · exact hP₂.ends.still (by rw [current?, hcurrent]; rfl) (ending_of_quiet hquiet)
      (found_of_quiet hquiet)
  · rw [current?, hcurrent, current_eq_none_of_isIdle hidle]
    rfl
  · rw [current?, hcurrent, Option.map_eq_none_iff] at hnone
    simp [isIdle, Interpreter.state, hnone]

theorem Turns.returned {a : Allowance} {delivered : Nat} {said : List WorkerMessage}
    {t : Transcript} {C : List Note} (h : Turns a delivered said S (.ok t) B T)
    (hS : Reached config H S) (hP : S.session.Since L D r C)
    (hsaid : said = (handedOut C).map (·.2)) : Returned L D r (C ++ B) T t := by
  generalize hresult : Except.ok t = result at h
  induction h generalizing H C with
  | stall hsettle => cases hresult
  | last hsettle hpoll hend hdiagnostics =>
      cases hresult
      simpa only [List.append_assoc] using
        returned_last hS hP hsaid hsettle hpoll hdiagnostics
  | @frame delivered said S S₁ S₂ S₃ T B₁ B₂ B₃ B result moment hsettle hpoll hgoes hleft hframe
      hrest ih =>
      have hsettled := hS.append hsettle.exists_play
      have hpolled := hsettled.append hpoll.exists_play
      have hP₃ := hframe.since hpolled (Or.inr (Or.inr ⟨moment, rfl⟩))
        (hpoll.since hsettled (Or.inr (Or.inl rfl)) (hsettle.since hS (Or.inl rfl) hP))
      have hreturned := ih (hpolled.append hframe.exists_play) hP₃ (by
        simp [hsaid, hsettle.unheard hS (Or.inl rfl),
          hframe.unheard hpolled (Or.inr ⟨moment, rfl⟩)]) hresult
      simpa only [List.append_assoc] using hreturned

/-- When the run has begun, the outbox and the diagnostics are what was left. -/
theorem Called.since_start {script : String} {moment : Moment}
    (h : Called (.start script moment) S B T) (hS : Reached config H S) :
    T.session.Since S.session.leftovers S.session.interpreter.diagnostics
      (S.session.newest + 1) B := by
  refine h.begins hS (Q := fun B s => s.Since S.session.leftovers
    S.session.interpreter.diagnostics (S.session.newest + 1) B) ?_ ?_ ?_ ?_
  · intro B s hR hreplaced
    have hdiagnostics : s.interpreter.diagnostics = S.session.interpreter.diagnostics := by
      rw [hreplaced.interpreter, Interpreter.supersede]
      split <;> rfl
    have hnewest : (s.begin script moment).newest = S.session.newest + 1 := by
      rw [← hreplaced.newest, Session.newest, interpreter_begin]
      rfl
    have hquiet : ∀ n ∈ B ++ refusalNotes s, n.isTaken = false := fun n hn =>
      (List.mem_append.mp hn).elim (hreplaced.quiet n) (quiet_refusalNotes n)
    refine ⟨hnewest, ⟨[], ?_, by simp⟩, ?_, .current ?_ (ending_of_quiet hquiet)
      (found_of_quiet hquiet)⟩
    · rw [handedOut_of_quiet hquiet, Session.leftovers, ← hreplaced.interpreter,
        interpreter_begin]
      simp [Interpreter.start]
    · rw [found_of_quiet hquiet, List.append_nil, kept_of_length_le hS.length_diagnostics,
        interpreter_begin, ← hdiagnostics]
      rfl
    · rw [← hnewest, current?, interpreter_begin]
      simp [Interpreter.start, Session.newest, interpreter_begin]
  · exact fun _ hR hq => hq.fail hR.sound hR.length_diagnostics
  · exact fun _ _ hq ht => hq.advance ht
  · exact fun time hq => hq.wait time

/-! ### What becomes of the run until it is returned -/

/-- A run that was returned is current and the host has heard the beginning of it, or it has
ended and was heard to its end. -/
inductive Fate (r : RunId) (B : List Note) (t : Transcript) : Prop where
  | current (hfinished : t.finished = false) (hending : ending r B = none) (hfound : found B = [])
      (hheard : heard r B <+: posted r B)
  | ended (o : Outcome) (hfinished : t.finished = true) (hending : ending r B = some o)
      (hfound : found B = o.diagnostic?.toList) (hheard : heard r B = posted r B ++ o.farewell)

namespace Fate

variable {t : Transcript}

theorem complete (h : Fate r B t) (hfinished : t.finished = true) :
    heard r B = posted r B ++ finish r B := by
  cases h with
  | current hgoes =>
      rw [hfinished] at hgoes
      cases hgoes
  | ended o _ hending _ hheard => rw [finish, hending, hheard]

theorem faithful (h : Fate r B t) : heard r B <+: posted r B ++ finish r B := by
  cases hfinished : t.finished with
  | true => exact ⟨[], by rw [List.append_nil, h.complete hfinished]⟩
  | false =>
      cases h with
      | current _ hending _ hheard =>
          rw [finish, hending, List.append_nil]
          exact hheard
      | ended _ hends =>
          rw [hends] at hfinished
          cases hfinished

theorem found_eq (h : Fate r B t) :
    found B = ((ending r B).bind (·.diagnostic?)).toList := by
  cases h with
  | current _ hending hfound => rw [hending, hfound]; rfl
  | ended o _ hending hfound => rw [hending, hfound]; rfl

/-- A run posts no `done`, and every farewell has one. -/
theorem countP_isDone (h : Fate r B t) (hplain : ∀ m ∈ posted r B, m.isFinal = false) :
    (heard r B).countP (·.isDone) = if t.finished = true then 1 else 0 := by
  cases h with
  | current hfinished _ _ hheard =>
      rw [Behaviour.countP_isDone fun m hm => hplain m (hheard.subset hm), hfinished]
      rfl
  | ended o hfinished _ _ hheard =>
      rw [hheard, List.countP_append, Behaviour.countP_isDone hplain, hfinished]
      cases o <;> rfl

end Fate

/-- What is noted of a run that has not begun. -/
structure Unheard (H : List Note) (r : RunId) : Prop where
  posted : posted r H = []
  heard : heard r H = []
  ending : ending r H = none

theorem Reached.unheard_next (h : Reached config H ⟨s, phase⟩) : Unheard H (s.newest + 1) := by
  have hunstarted := h.sound.unstarted_next
  obtain ⟨hposted, hheard, -⟩ := (h.ledger.books (s.newest + 1)).unstarted hunstarted
  refine ⟨hposted, hheard, Option.eq_none_iff_forall_ne_some.mpr fun o hending => ?_⟩
  exact ((h.ledger.books _).collected o (collected_of_ending hending)).started hunstarted

theorem Returned.fate {t : Transcript} (h : Returned L D r B T t) (hH : Unheard H r)
    (hledger : Ledger (H ++ B) T) : Fate r B t := by
  have hposted : posted r (H ++ B) = posted r B := by rw [posted_append, hH.posted, List.nil_append]
  have hheard : heard r (H ++ B) = heard r B := by rw [heard_append, hH.heard, List.nil_append]
  have hending : ending r (H ++ B) = ending r B := by
    rw [ending_append, hH.ending, Option.none_or]
  cases h.ends with
  | current hcurrent hnone hfound =>
      refine .current ?_ hnone hfound ?_
      · rw [← Bool.not_eq_true, h.finished, hcurrent]
        exact Option.some_ne_none _
      · rw [← hposted, ← hheard]
        refine (hledger.heard_cases r).resolve_right ?_
        rintro ⟨o, ho, -⟩
        exact collected_of_ending_none (hending.trans hnone) ho
  | ended o hcurrent ho hfound =>
      refine .ended o (h.finished.mpr hcurrent) ho hfound ?_
      rw [← hposted, ← hheard]
      obtain ⟨u, phase⟩ := T
      cases h.ready
      exact hledger.heard_of_collected h.polled (collected_of_ending (hending.trans ho))

/-! ### What is left -/

theorem ofRun_leftovers (r : RunId) :
    ofRun r s.leftovers = if s.current? = some r then [] else s.box r := by
  rw [Session.leftovers, Interpreter.supersede, current?]
  cases hc : s.interpreter.current with
  | none => rfl
  | some run =>
      simp only [Option.map_some, Option.some.injEq, ofRun, List.filter_filter, box]
      split
      next hr => simp [hr]
      next hr =>
        refine congrArg (List.map _) (List.filter_congr fun x _ => ?_)
        by_cases hx : x.1 = r <;> simp [hx, Ne.symm hr]

/-- What is left of a run is what the host has taken in of it and not handed out, if it has
ended. -/
theorem Reached.ofRun_leftovers (h : Reached config H ⟨s, .ready⟩) (r : RunId) :
    ofRun r s.leftovers = [] ∨ ∃ o ms, .collected r o ∈ H ∧
      ofRun r s.leftovers = ms ++ o.farewell ∧ heard r H ++ ms = posted r H := by
  have hbooks := h.ledger.books r
  rw [System.ofRun_leftovers]
  by_cases hcurrent : s.current? = some r
  · exact Or.inl (if_pos hcurrent)
  rw [if_neg hcurrent]
  by_cases hstarted : s.worker? r = none
  · exact Or.inl (hbooks.unstarted hstarted).2.2
  rcases hbooks.settled hstarted hcurrent with ⟨o, ho⟩ | habandoned
  · rcases (hbooks.collected o ho).balance with ⟨ms, hbox, hms⟩ | ⟨hbox, -⟩
    · exact Or.inr ⟨o, ms, ho, hbox, hms⟩
    · exact Or.inl hbox
  · rcases (hbooks.abandoned habandoned).silent with ⟨hcurrent', -⟩ | ⟨-, -, hbox | hgone⟩
    · exact absurd hcurrent' hcurrent
    · exact Or.inl hbox
    · cases hgone

/-- Nothing is left of a run that has not begun. -/
theorem Reached.ofRun_leftovers_next (h : Reached config H ⟨s, .ready⟩) :
    ofRun (s.newest + 1) s.leftovers = [] := by
  refine (h.ofRun_leftovers _).resolve_right ?_
  rintro ⟨o, ms, ho, -⟩
  exact ((h.ledger.books _).collected o ho).started h.sound.unstarted_next

theorem HeadlessRun.ready {a : Allowance} {script : String} {result : Except Stall Transcript}
    (h : HeadlessRun a script S result B T) : S.phase = .ready := by
  obtain ⟨moment, S₁, B₁, B₂, ⟨ms, -, hready, -⟩, -⟩ := h
  exact hready

theorem HeadlessRun.returned {a : Allowance} {script : String} {t : Transcript}
    (h : HeadlessRun a script S (.ok t) B T) (hS : Reached config H S) :
    Returned S.session.leftovers S.session.interpreter.diagnostics (S.session.newest + 1) B T
      t := by
  obtain ⟨moment, S₁, B₁, B₂, hcall, hturns, rfl⟩ := h
  have hnothing : handedOut B₁ = [] := by
    refine hcall.begins hS (Q := fun B _ => handedOut B = []) ?_ ?_ ?_ ?_
    · exact fun _ hreplaced => handedOut_append_nil (handedOut_of_quiet hreplaced.quiet)
        (handedOut_of_quiet quiet_refusalNotes)
    · exact fun _ _ hq => handedOut_append_nil hq handedOut_failNotes
    · exact fun _ _ hq _ => handedOut_append_nil hq handedOut_stepNotes
    · exact fun _ hq => hq
  exact hturns.returned (hS.append hcall.exists_play) (hcall.since_start hS) (by rw [hnothing]; rfl)

/-- What is returned is what was left, and then what was heard of the run. -/
theorem Returned.messages_eq {t : Transcript}
    (h : Returned s.leftovers D (s.newest + 1) B T t) (hS : Reached config H ⟨s, .ready⟩) :
    t.messages = s.leftovers.map (·.2) ++ heard (s.newest + 1) B := by
  obtain ⟨mine, hmine, hall⟩ := h.outbox
  rw [h.messages, hmine, List.map_append, heard, hmine, ofRun_append, hS.ofRun_leftovers_next,
    List.nil_append, ofRun_eq_map hall]

/-- What a transcript holds when `H` had led the host to `s` before the run, and `B` was
noted since. -/
structure Heard (H : List Note) (s : Session) (B : List Note) (t : Transcript) : Prop where
  /-- First what was left, then what was heard of the run. -/
  messages : t.messages = s.leftovers.map (·.2) ++ heard (s.newest + 1) B
  /-- What was left is what the host had taken in of runs that had ended, up to their
  farewells, and had not handed out. -/
  older : ∀ r, ofRun r s.leftovers = [] ∨ ∃ o ms, .collected r o ∈ H ∧
    ofRun r s.leftovers = ms ++ o.farewell ∧ heard r H ++ ms = posted r H
  /-- So all of it is the run's if and only if nothing was left. -/
  alone : (∀ x ∈ handedOut B, x.1 = s.newest + 1) ↔ s.leftovers = []
  /-- Of the run there is what it posted and how it ended, or the beginning of it. -/
  faithful : heard (s.newest + 1) B <+: posted (s.newest + 1) B ++ finish (s.newest + 1) B
  complete : t.finished = true →
    heard (s.newest + 1) B = posted (s.newest + 1) B ++ finish (s.newest + 1) B
  closing : ∀ A m C, heard (s.newest + 1) B = A ++ m :: C →
    (m = .done → C = []) ∧ ∀ e, m = .error e → C = [.done]
  /-- Every run that has ended says so once. -/
  doneCount : t.doneCount =
    s.leftovers.countP (·.2.isDone) + if t.finished = true then 1 else 0
  /-- First the diagnostics that were there, then that of the run if it failed; of all of
  them the newest. -/
  diagnostics : t.diagnostics =
    kept (s.interpreter.diagnostics ++ ((ending (s.newest + 1) B).bind (·.diagnostic?)).toList)

/-- **A transcript begins with what was left of older runs**, whatever the host did before
and whatever the threads do.  The rest of it is the run's. -/
theorem headless_leftovers {a : Allowance} {script : String} {t : Transcript}
    (hS : Reached config H S) (hrun : HeadlessRun a script S (.ok t) B T) :
    Heard H S.session B t := by
  obtain ⟨s, phase⟩ := S
  obtain rfl : phase = .ready := hrun.ready
  have hledger := (hS.append hrun.exists_play).ledger
  have hreturned : Returned s.leftovers s.interpreter.diagnostics (s.newest + 1) B T t :=
    hrun.returned hS
  have hunheard := hS.unheard_next
  have hfate := hreturned.fate hunheard hledger
  have hnext := hS.ofRun_leftovers_next
  obtain ⟨mine, hmine, hall⟩ := hreturned.outbox
  have hmessages := hreturned.messages_eq hS
  refine ⟨hmessages, hS.ofRun_leftovers, ⟨fun halone => ?_, fun hempty => ?_⟩, hfate.faithful,
    hfate.complete, fun A m C hsplit => ?_, ?_, ?_⟩
  · rw [← List.map_eq_nil_iff (f := fun x => x.2), ← hnext, ofRun_eq_map fun x hx => halone x ?_]
    rw [hmine]
    exact List.mem_append_left _ hx
  · rw [hmine, hempty]
    exact hall
  · refine closing_of_heard_cases hledger (r := s.newest + 1) (A := A) ?_
    rw [heard_append, hunheard.heard, List.nil_append, hsplit]
  · have hplain := (hledger.books (s.newest + 1)).plain
    rw [posted_append, hunheard.posted, List.nil_append] at hplain
    rw [Transcript.doneCount, hmessages, List.countP_append, List.countP_map,
      hfate.countP_isDone hplain]
    rfl
  · rw [hreturned.diagnostics, hfate.found_eq]

theorem called_play (c : Call) (ms : List Move) (hms : ∀ m ∈ ms, m.isBackground = true)
    (hready : S.phase = .ready) (hend : (S.play (.call c :: ms)).1.phase = .ready) :
    Called c S (S.play (.call c :: ms)).2 (S.play (.call c :: ms)).1 :=
  ⟨ms, hms, hready, rfl, hend⟩

/-- A script has run to its end, and the host went on with a frame and did not poll. -/
def unpolledHistory : List Move :=
  [.call (.start "save();" 0), .host, .host, .thread 1, .thread 1, .thread 1, .thread 1,
    .call (.frame 0), .host, .host, .host, .host]

/-- The transcript of the next script begins with what that one said. -/
theorem headless_leftovers_save :
    Reached .standard ((ofConfig .standard .usual).play unpolledHistory).2
        ((ofConfig .standard .usual).play unpolledHistory).1 ∧
      ∃ t B T, HeadlessRun ⟨1, 0, 1000⟩ "clear();" ((ofConfig .standard .usual).play unpolledHistory).1
          (.ok t) B T ∧
        Heard ((ofConfig .standard .usual).play unpolledHistory).2
          ((ofConfig .standard .usual).play unpolledHistory).1.session B t ∧
        t.messages = [.save, .done, .clear, .done] ∧ t.doneCount = 2 := by
  have hreached := reached_play .standard .usual unpolledHistory
  have hready : ((ofConfig .standard .usual).play unpolledHistory).1.phase = .ready := by
    decide +kernel
  obtain ⟨t, B, T, hrun, hmessages⟩ : ∃ t B T, HeadlessRun ⟨1, 0, 1000⟩ "clear();"
      ((ofConfig .standard .usual).play unpolledHistory).1 (.ok t) B T ∧
        t.messages = [.save, .done, .clear, .done] := by
    have hstart := called_play (.start "clear();" 0)
      [.host, .host, .thread 2, .thread 2, .thread 2, .thread 2] (by decide) hready
      (by decide +kernel)
    have hsettle := called_play .settle [.host, .host, .host] (by decide) hstart.ready
      (by decide +kernel)
    have hpoll := called_play .poll [.host] (by decide) hsettle.ready
      (by decide +kernel)
    have hdiagnostics := called_play .takeDiagnostics [] (by decide) hpoll.ready
      (by decide +kernel)
    exact ⟨_, _, _, ⟨0, _, _, _, hstart, .last hsettle hpoll (Or.inl (by decide +kernel))
      hdiagnostics, rfl⟩, by decide +kernel⟩
  refine ⟨hreached, t, B, T, hrun, headless_leftovers hreached hrun, hmessages, ?_⟩
  rw [Transcript.doneCount, hmessages]
  rfl

end System

end FilterScript
