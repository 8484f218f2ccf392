/-
The diagnostics are the recent failures.

The host is asked for the diagnostics now and then, and each time they are taken from it.  So a
history falls into spans, from one taking to the next, and what is taken is a matter of the last span
alone: of the failures that the host took in, the newest that it keeps.

That a failure counts once needs the books: a run whose end was taken in is not current any longer,
and only of the current run is anything taken in.  The outbox is followed by the same distinction.  A
run cannot post an error by itself, so every error in the outbox was put there with the end of a run,
beside the diagnostic and with its text.
-/
import FilterScript.Proofs.Interpreter.Report
import FilterScript.Proofs.Interpreter.Stock
import Mathlib.Data.List.Nodup

namespace FilterScript

/-! ### Failures among the notes -/

/-- The run whose end was taken in, with how it ended, if that is noted. -/
def Note.ended? : Note → Option (RunId × Outcome)
  | collected r o => some (r, o)
  | _ => none

/-- The ends of runs that were taken in, in the order in which they were. -/
def endings (H : List Note) : List (RunId × Outcome) := H.filterMap Note.ended?

/-- The run that failed, with the diagnostic of it, if an end is a failure. -/
def failureOf (x : RunId × Outcome) : Option (RunId × Diagnostic) :=
  x.2.diagnostic?.map fun d => (x.1, d)

/-- The failures that were taken in, in the order in which they were. -/
def failures (H : List Note) : List (RunId × Diagnostic) := (endings H).filterMap failureOf

/-- The run and the text, if a message of the outbox is an error. -/
def errorOf (x : RunId × WorkerMessage) : Option (RunId × String) :=
  x.2.errorText?.map fun text => (x.1, text)

section Lists

variable {H H' : List Note} {r : RunId} {o : Outcome} {d : Diagnostic}

@[simp] theorem endings_append : endings (H ++ H') = endings H ++ endings H' := by
  simp [endings]

@[simp] theorem failures_append : failures (H ++ H') = failures H ++ failures H' := by
  simp [failures]

theorem mem_endings : (r, o) ∈ endings H ↔ .collected r o ∈ H := by
  refine List.mem_filterMap.trans ⟨fun ⟨n, hn, he⟩ => ?_, fun h => ⟨_, h, rfl⟩⟩
  cases n with
  | collected r' o' =>
      cases he
      exact hn
  | _ => cases he

theorem mem_failures : (r, d) ∈ failures H ↔ ∃ f, .collected r (.failed f d) ∈ H := by
  refine List.mem_filterMap.trans ⟨fun ⟨⟨r', o⟩, ho, he⟩ => ?_, fun ⟨f, hf⟩ => ?_⟩
  · cases o with
    | failed f d' =>
        cases he
        exact ⟨f, mem_endings.1 ho⟩
    | _ => cases he
  · exact ⟨(r, .failed f d), mem_endings.2 hf, rfl⟩

/-- What is kept of the ends of runs are the diagnostics of the failures. -/
theorem found_eq (H : List Note) : found H = (failures H).map (·.2) := by
  have hnote (n : Note) : n.diagnostic? = (n.ended?.bind failureOf).map (·.2) := by
    cases n with
    | collected r o => cases o <;> rfl
    | _ => rfl
  rw [found, failures, endings, List.filterMap_filterMap, List.map_filterMap, funext hnote]

/-- The runs that failed are among those that ended. -/
theorem failures_sublist (H : List Note) :
    ((failures H).map (·.1)).Sublist ((endings H).map (·.1)) := by
  unfold failures
  induction endings H with
  | nil => exact .slnil
  | cons x xs ih =>
      obtain ⟨r, o⟩ := x
      cases o with
      | failed f d => exact ih.cons_cons r
      | _ => exact ih.cons r

theorem failures_eq_nil (h : ∀ r o, .collected r o ∉ H) : failures H = [] :=
  List.eq_nil_iff_forall_not_mem.2 fun ⟨r, d⟩ hd => by
    obtain ⟨f, hf⟩ := mem_failures.1 hd
    exact h r _ hf

end Lists

namespace System

open Session

variable {config : Config} {H : List Note} {S : System} {m : Move}

/-! ### Takings and spans -/

/-- What was taken of the diagnostics, each time in a history. -/
def takings (S : System) : List Move → List (List Diagnostic)
  | [] => []
  | m :: ms =>
    if S.takes m then S.session.takeDiagnostics.1 :: (S.step m).1.takings ms
    else (S.step m).1.takings ms

/-- The notes of a history, cut where the diagnostics were taken; `H` was noted before, since they
were taken last. -/
def spans (S : System) (H : List Note) : List Move → List (List Note)
  | [] => [H]
  | m :: ms =>
    if S.takes m then H :: (S.step m).1.spans [] ms
    else (S.step m).1.spans (H ++ (S.step m).2) ms

/-- No note is lost between the spans. -/
theorem flatten_spans (S : System) (H : List Note) (ms : List Move) :
    (S.spans H ms).flatten = H ++ (S.play ms).2 := by
  induction ms generalizing S H with
  | nil => simp [spans, play]
  | cons m ms ih =>
      rw [spans, play]
      split
      next h => simp [ih, step_of_takes h]
      · rw [ih, List.append_assoc]

/-- Each time what is taken is what is kept of the last span, and so is what is left at the end. -/
theorem takings_eq (hkept : S.session.interpreter.diagnostics = kept (found H)) (ms : List Move) :
    S.takings ms ++ [(S.play ms).1.session.takeDiagnostics.1] =
      (S.spans H ms).map fun span => kept (found span) := by
  induction ms generalizing S H with
  | nil => exact congrArg (fun ds => [ds]) hkept
  | cons m ms ih =>
      rw [takings, spans, play]
      by_cases h : S.takes m = true
      · have hempty : (S.step m).1.session.interpreter.diagnostics = kept (found []) := by
          rw [step_of_takes h]
          rfl
        rw [if_pos h, if_pos h, List.cons_append, List.map_cons, ih hempty]
        exact congrArg (· :: _) hkept
      · have hadded : (S.step m).1.session.interpreter.diagnostics =
            kept (found (H ++ (S.step m).2)) := by
          rw [diagnostics_step (Bool.not_eq_true _ ▸ h) (hkept ▸ length_kept _), hkept, kept_append,
            found_append]
        rw [if_neg h, if_neg h, ih hadded]

/-! ### Errors in the outbox -/

/-- A move takes something in of the current run, or it adds nothing to the outbox. -/
theorem intake_or_not (S : System) (m : Move) :
    (∃ run, S.session.interpreter.current = some run ∧
      S.session.Intake run (S.step m).2 (S.step m).1.session) ∨
    (S.step m).1.session.interpreter.outbox.Sublist S.session.interpreter.outbox ∧
      ∀ r o, .collected r o ∉ (S.step m).2 := by
  by_cases htakes : S.takes m = true
  · rw [step_of_takes htakes]
    exact .inr ⟨.refl _, not_collected_nil⟩
  · cases keeps_step (Bool.not_eq_true _ ▸ htakes) with
    | still _ houtbox hnone => exact .inr ⟨houtbox, hnone⟩
    | taken hc h => exact .inl ⟨_, hc, h⟩

/-- What a move puts in the outbox. -/
def puts (S : System) (m : Move) : List (RunId × WorkerMessage) :=
  (S.step m).1.session.interpreter.outbox.drop S.session.interpreter.outbox.length

theorem puts_of_append {new : List (RunId × WorkerMessage)}
    (h : (S.step m).1.session.interpreter.outbox = S.session.interpreter.outbox ++ new) :
    S.puts m = new := by
  rw [puts, h, List.drop_left]

theorem puts_of_sublist
    (h : (S.step m).1.session.interpreter.outbox.Sublist S.session.interpreter.outbox) :
    S.puts m = [] :=
  List.drop_eq_nil_of_le h.length_le

theorem outbox_suspend {i : Interpreter} {run : CurrentRun} (hc : i.current = some run)
    (c : Continuation) : (i.dispatch (.suspend c)).1.outbox = i.outbox := by
  simp only [Interpreter.dispatch, hc]

/-- A move adds to the outbox at its end, or takes something out of it. -/
theorem outbox_step (S : System) (m : Move) :
    (S.step m).1.session.interpreter.outbox = S.session.interpreter.outbox ++ S.puts m ∨
      S.puts m = [] ∧
        (S.step m).1.session.interpreter.outbox.Sublist S.session.interpreter.outbox := by
  rcases intake_or_not S m with ⟨run, hc, h⟩ | ⟨houtbox, -⟩
  · obtain ⟨new, hnew⟩ : ∃ new, (S.step m).1.session.interpreter.outbox =
        S.session.interpreter.outbox ++ new := by
      cases h with
      | said x hi => exact ⟨_, congrArg _ hi⟩
      | queued c hi => exact ⟨[], by rw [hi, outbox_suspend hc, List.append_nil]⟩
      | ended o hi => exact ⟨_, by rw [hi, Ledger.outbox_finish o hc]⟩
    exact .inl (by rw [puts_of_append hnew, hnew])
  · exact .inr ⟨puts_of_sublist houtbox, houtbox⟩

/-- What a run said that is current and is in the outbox is no error, and no farewell. -/
theorem Reached.isFinal_eq_false (hS : Reached config H S) {run : CurrentRun} {x : WorkerMessage}
    (hc : S.session.interpreter.current = some run)
    (hx : (run.id, x) ∈ S.session.interpreter.outbox) : x.isFinal = false := by
  obtain ⟨w, stage, hw, -⟩ := (hS.sound.live run hc).worker
  have hcurrent : S.session.current? = some run.id := congrArg (Option.map _) hc
  have hbalance := ((hS.ledger.books run.id).running w hcurrent hw).balance
  have hbox : x ∈ S.session.box run.id :=
    List.mem_map.2 ⟨(run.id, x), List.mem_filter.2 ⟨hx, decide_eq_true rfl⟩, rfl⟩
  refine (hS.ledger.books run.id).plain x ?_
  rw [hbalance]
  exact List.mem_append_left _ (List.mem_append_right _ hbox)

/-- **An error is put in the outbox with every failure that is taken in, with the text of the
diagnostic, and with nothing else.** -/
theorem Reached.errors_puts (hS : Reached config H S) (m : Move) :
    (S.puts m).filterMap errorOf = (failures (S.step m).2).map fun x => (x.1, x.2.message) := by
  have hnext := hS.step m
  rcases intake_or_not S m with ⟨run, hc, h⟩ | ⟨houtbox, hnone⟩
  · cases h with
    | said x hi hns =>
        have hcurrent : (S.step m).1.session.interpreter.current = some run := by
          rw [hi]
          exact hc
        have hx : x.isFinal = false := by
          refine hnext.isFinal_eq_false hcurrent ?_
          rw [hi]
          exact List.mem_append_right _ (List.mem_singleton_self _)
        rw [puts_of_append (congrArg _ hi), hns]
        cases x <;> first | rfl | cases hx
    | queued c hi hns =>
        rw [puts_of_append (by rw [hi, outbox_suspend hc, List.append_nil]), hns]
        rfl
    | ended o hi hns =>
        rw [puts_of_append (by rw [hi, Ledger.outbox_finish o hc]), hns]
        cases o with
        | failed f d =>
            have hagrees : f.Agrees d := hnext.agrees (r := run.id) (by simp [hns])
            show [(run.id, f.message)] = [(run.id, d.message)]
            rw [hagrees.message]
        | _ => rfl
  · rw [puts_of_sublist houtbox, failures_eq_nil hnone]
    rfl

/-- Whatever was put in the outbox in a history, in the order in which it was. -/
def arrivals (S : System) : List Move → List (RunId × WorkerMessage)
  | [] => []
  | m :: ms => S.puts m ++ (S.step m).1.arrivals ms

theorem Reached.errors_arrivals (hS : Reached config H S) (ms : List Move) :
    (S.arrivals ms).filterMap errorOf =
      (failures (S.play ms).2).map fun x => (x.1, x.2.message) := by
  induction ms generalizing H S with
  | nil => rfl
  | cons m ms ih =>
      rw [arrivals, play, List.filterMap_append, hS.errors_puts m, ih (hS.step m), failures_append,
        List.map_append]

/-! ### Each run ends once -/

theorem nodup_endings_step (S : System) (m : Move) : ((endings (S.step m).2).map (·.1)).Nodup := by
  rcases step_notes S m with hnone | ⟨n, hone⟩
  · rw [hnone]
    exact .nil
  · rw [hone]
    cases n with
    | collected r o => exact List.nodup_singleton r
    | _ => exact .nil

/-- **A run ends once**: when its end has been taken in it is not current any longer. -/
theorem Reached.nodup_endings (hS : Reached config H S) (hnodup : ((endings H).map (·.1)).Nodup)
    (ms : List Move) : ((endings (H ++ (S.play ms).2)).map (·.1)).Nodup := by
  induction ms generalizing H S with
  | nil => simpa [play] using hnodup
  | cons m ms ih =>
      rw [play, ← List.append_assoc]
      refine ih (hS.step m) ?_
      rw [endings_append, List.map_append, List.nodup_append]
      refine ⟨hnodup, nodup_endings_step S m, fun r hr r' hr' hsame => ?_⟩
      obtain ⟨⟨r, o⟩, ho, rfl⟩ := List.mem_map.1 hr
      obtain ⟨⟨r', o'⟩, ho', rfl⟩ := List.mem_map.1 hr'
      have hbygone := ((hS.ledger.books r).collected o (mem_endings.1 ho)).bygone
      obtain rfl : r = r' := hsame
      rcases step_moves S m with hstill | hm
      · rw [hstill] at ho'
        cases ho'
      · exact hbygone (hm.current_of_collected (mem_endings.1 ho'))

/-! ### The recent failures -/

/-- What is promised of the diagnostics on a machine, in a history of moves that noted `H` and led
to `S`. -/
structure Recalls (config : Config) (platform : Platform) (ms : List Move) (H : List Note)
    (S : System) : Prop where
  /-- Each time they are taken, and if they were taken at the end, they are those of the failures that
  were taken in since the last time, the oldest in front and only the newest of too many. -/
  recent : (ofConfig config platform).takings ms ++ [S.session.takeDiagnostics.1] =
    ((ofConfig config platform).spans [] ms).map fun span => kept ((failures span).map (·.2))
  /-- Every note falls into one span. -/
  whole : ((ofConfig config platform).spans [] ms).flatten = H
  /-- The failures are those that the host took in. -/
  failed : ∀ r d, (r, d) ∈ failures H ↔ ∃ f, .collected r (.failed f d) ∈ H
  /-- No run fails twice. -/
  once : ((failures H).map (·.1)).Nodup
  /-- A run that failed reported it, or it was lost, or there was no thread for it; it did not end in
  another way, and it was not replaced. -/
  truly : ∀ r f d, .collected r (.failed f d) ∈ H → Cause H S.session r (.failed f d) ∧
    (∀ o, .collected r o ∈ H → o = .failed f d) ∧ .abandoned r ∉ H
  /-- There was no thread for the runs that the machine has none for. -/
  unserved : ∀ r reason, .refused r reason ∈ H ↔ S.session.worker? r ≠ none ∧
    platform.refusal? r config.stackSize = some reason
  /-- Such a run fails before the call is over that starts it. -/
  unstarted : ∀ r reason, .refused r reason ∈ H →
    S.phase = .refused reason ∧ S.session.current? = some r ∨
      .collected r (unstartedOutcome reason) ∈ H
  /-- What is put in the outbox stands there behind what was there before. -/
  added : ∀ before m after, ms = before ++ m :: after →
    let U := ((ofConfig config platform).play before).1
    (U.step m).1.session.interpreter.outbox = U.session.interpreter.outbox ++ U.puts m ∨
      U.puts m = [] ∧
        (U.step m).1.session.interpreter.outbox.Sublist U.session.interpreter.outbox
  /-- The errors that were put in the outbox are one for each failure, with the text of its
  diagnostic. -/
  announced : ((ofConfig config platform).arrivals ms).filterMap errorOf =
    (failures H).map fun x => (x.1, x.2.message)

/-- **The diagnostics are the recent failures**, in every history of calls, of steps of all threads
and of the passing of time, on every machine. -/
theorem recalls_failures (config : Config) (platform : Platform) (ms : List Move) :
    Recalls config platform ms ((ofConfig config platform).play ms).2
      ((ofConfig config platform).play ms).1 := by
  have hbegin : Reached config [] (ofConfig config platform) := ⟨platform, [], rfl⟩
  have hreached := reached_play config platform ms
  have hnodup := hbegin.nodup_endings .nil ms
  rw [List.nil_append] at hnodup
  refine
    { recent := ?_
      whole := flatten_spans _ [] ms
      failed := fun _ _ => mem_failures
      once := hnodup.sublist (failures_sublist _)
      truly := fun r f d h => ?_
      unserved := fun r reason => ?_
      unstarted := fun _ _ => hreached.unserved.ended
      added := fun _ m _ _ => outbox_step _ m
      announced := hbegin.errors_arrivals ms }
  · simp only [← found_eq]
    exact takings_eq rfl ms
  · have hbooks := (hreached.ledger.books r).collected _ h
    exact ⟨hbooks.truly, fun o ho => hreached.collected_unique ho h, hbooks.kept⟩
  · rw [hreached.refused_iff, platform_play]

end System

end FilterScript
