/-
A run that is alive never ends as cancelled.

A run can find in many places that it was replaced: a message that nobody receives, a continuation
that is refused or rejected, a look at the flag.  What has to be shown is that none of them turns up
by mistake, because then the host would hear nothing but `done` of a script that failed.

`Finishes` says how a script ends by itself, read off the computation of its program along the
replies that it really got.  `Honest` says that a run which the host has not given up reports just
that, that nothing keeps it from reporting, and that the next poll behind the report brings it to the
host.  The invariants of the histories do the work: a current run that knows of a replacement was
flagged, and whatever has been flagged is abandoned.
-/
import FilterScript.Proofs.Interpreter.Output
import FilterScript.Proofs.Interpreter.Trace

namespace FilterScript

namespace Script

/-- How a script ends by itself: what its program asks for until then, and the outcome. -/
inductive Finishes (config : Config) (id : RunId) (script : String) :
    List Exchange → Outcome → Prop where
  /-- It cannot be read. -/
  | unreadable {e : ParseError} (h : parse config.limits script = .error e) :
      Finishes config id script [] (.failed e.failure e.diagnostic)
  | completed {p : Program} {xs : List Exchange} {c : Context}
      (h : parse config.limits script = .ok p)
      (hrun : (p.simplify.run config.limits (.fresh id config.logLimitPerFrame.toNat)).Goes xs
        (.done (.completed, c))) : Finishes config id script xs .completed
  /-- It fails, and nothing in it catches the error. -/
  | failed {p : Program} {xs : List Exchange} {e : Error} {c : Context}
      (h : parse config.limits script = .ok p)
      (hrun : (p.simplify.run config.limits (.fresh id config.logLimitPerFrame.toNat)).Goes xs
        (.done (.failed e, c))) : Finishes config id script xs (.failed e.failure e.diagnostic)

variable {config : Config} {platform : Platform} {id : RunId} {script : String}
  {xs : List Exchange} {o : Outcome}
  {u : Thread Unit}

/-- An error is reported as what it is, or the run was replaced. -/
theorem Error.outcome_cases (e : Error) (replaced : Bool) :
    e.outcome replaced = .cancelled ∨ e.outcome replaced = .failed e.failure e.diagnostic := by
  unfold Error.outcome
  split
  · exact .inl rfl
  · split
    · exact .inl rfl
    · exact .inr rfl

/-- What a run answers is how its script ended, if it does not say that the run was replaced. -/
theorem finishes_of_run {c : Context} (h : (run config id script).Goes xs (.done (o, c)))
    (ho : o ≠ .cancelled) : ∃ ys, Finishes config id script ys o ∧ ys <+: xs := by
  unfold run at h
  split at h
  next e he =>
    cases h.of_done.2
    exact ⟨[], .unreadable he, List.nil_prefix⟩
  next p hp =>
    obtain ⟨ys, zs, ⟨ending, c'⟩, rfl, hrun, hrest⟩ := Thread.Goes.of_bind_done h
    refine ⟨ys, ?_, List.prefix_append ys zs⟩
    cases ending with
    | completed =>
        cases hrest.of_done.2
        exact .completed hp hrun
    | failed e =>
        obtain ⟨zs₁, zs₂, b, -, -, hout⟩ := Thread.Goes.of_bind_done hrest
        cases hout.of_done.2
        rcases e.outcome_cases b with hb | hb
        · exact absurd hb ho
        · rw [hb]
          exact .failed hp hrun

/-! ### The report -/

/-- Nobody has reported who still answers with an outcome. -/
theorem not_conforms_ended {α : Type} {t : Thread (Outcome × α)} :
    ¬ t.Conforms (fun s x => Outcome.fits s x.1) .ended := by
  intro h
  cases h with
  | done ha => rcases ha with ⟨hs, -⟩ | ⟨hs, -⟩ <;> cases hs
  | crash hs => cases hs
  | spin hs => cases hs
  | ask hr => exact hr

/-- A script does not report by itself how it ended. -/
theorem not_report_of_conforms {α : Type} {t u : Thread (Outcome × α)} {s : Stage}
    (hc : t.Conforms (fun s x => Outcome.fits s x.1) s) (h : t.Goes xs u) :
    Exchange.report o ∉ xs := by
  induction h generalizing s with
  | stay => exact List.not_mem_nil
  | @ask r k x xs u h ih =>
      intro hmem
      rcases List.mem_cons.1 hmem with he | hmem
      · cases he
        have hended : Stage.after s (.finish o) () = .ended := by cases s <;> rfl
        have hnext : k () |>.Conforms (fun s x => Outcome.fits s x.1) (s.after (.finish o) ()) :=
          hc.of_ask.2 ()
        rw [hended] at hnext
        exact not_conforms_ended hnext
      · exact ih (hc.of_ask.2 x) hmem

end Script

namespace Session

open Script

variable {config : Config} {platform : Platform} {id : RunId} {script : String}
  {xs : List Exchange} {o : Outcome}
  {u : Thread Unit}

/-- The last thing that a run asks for is the report of its outcome. -/
theorem reported_of_mem (h : (scriptThread config id script).Goes xs u)
    (hmem : Exchange.report o ∈ xs) :
    ∃ ys c, xs = ys ++ [.report o] ∧ (run config id script).Goes ys (.done (o, c)) ∧
      u = .done () := by
  rcases Thread.Goes.of_bind h with ⟨v, hv, -⟩ | ⟨ys, zs, ⟨o', c⟩, rfl, hrun, hreport⟩
  · exact absurd hmem (not_report_of_conforms (run_conforms config id script) hv)
  · have hzs : Exchange.report o ∈ zs := (List.mem_append.1 hmem).resolve_left
      (not_report_of_conforms (run_conforms config id script) hrun)
    cases hreport with
    | stay => cases hzs
    | ask hdone =>
        obtain ⟨rfl, rfl⟩ := hdone.of_done
        cases List.mem_singleton.1 hzs
        exact ⟨ys, c, rfl, hrun, rfl⟩

/-- What a run still asks for whose script has ended: at most one look whether it was replaced, and
the report. -/
inductive Closing : Outcome → Thread Unit → Prop where
  | report (o : Outcome) : Closing o (.ask (.finish o) .done)
  | look (e : Error) : Closing (.failed e.failure e.diagnostic)
      (.ask .isCancelled fun b => .ask (.finish (e.outcome b)) .done)

theorem closing_of_finishes (h : Finishes config id script xs o) :
    ∃ u, (scriptThread config id script).Goes xs u ∧ Closing o u := by
  unfold scriptThread run
  cases h with
  | unreadable h =>
      rw [h]
      exact ⟨_, .stay _, .report _⟩
  | completed h hrun =>
      rw [h]
      exact ⟨_, (hrun.bind _).bind _, .report _⟩
  | failed h hrun =>
      rw [h]
      exact ⟨_, (hrun.bind _).bind _, .look _⟩

/-- Such a run has a step that is open to it, or it has reported. -/
theorem Closing.cases {v : Thread Unit} (hc : Closing o v) (h : v.Goes xs u) :
    (∃ k, u = .ask .isCancelled k) ∨ (∃ o' k, u = .ask (.finish o') k) ∨
      ∃ o', Exchange.report o' ∈ xs ∧ (o' = o ∨ o' = .cancelled) := by
  cases hc with
  | report =>
      cases h with
      | stay => exact .inr (.inl ⟨_, _, rfl⟩)
      | ask _ => exact .inr (.inr ⟨o, List.mem_cons_self, .inl rfl⟩)
  | look e =>
      cases h with
      | stay => exact .inl ⟨_, rfl⟩
      | @ask _ _ b ys _ h =>
          cases h with
          | stay => exact .inr (.inl ⟨_, _, rfl⟩)
          | ask _ =>
              exact .inr (.inr ⟨e.outcome b, List.mem_cons_of_mem _ List.mem_cons_self,
                (e.outcome_cases b).symm⟩)

end Session

namespace System

open Script

/-- What is promised of the ends of runs that the host has not given up, in a history of moves that
led to these notes and this system. -/
structure Honest (config : Config) (platform : Platform) (ms : List Move) (H : List Note)
    (S : System) : Prop where
  /-- A run that reports that it was replaced was replaced before, or the host went away. -/
  cancelled : ∀ r A B, H = A ++ .reported r .cancelled :: B → .abandoned r ∈ A
  /-- No such report is on its way to the host. -/
  unsent : ∀ r w, S.session.worker? r = some w → .finished .cancelled ∈ w.link.events →
    .abandoned r ∈ H
  /-- Every other report is how the script ended by itself, on the replies that it got. -/
  truly : ∀ r o, .reported r o ∈ H → .abandoned r ∉ H → ∃ script xs,
    Begun config platform ms r script ∧ Finishes config r script xs o ∧
      xs <+: (ofConfig config platform).exchanges r ms
  /-- A script that has ended is reported, and until then nothing keeps its thread from a step. -/
  unhindered : ∀ r script xs o, Begun config platform ms r script → Finishes config r script xs o →
    xs <+: (ofConfig config platform).exchanges r ms → .abandoned r ∉ H →
      .reported r o ∈ H ∨ ∃ t, S.session.advanceRun r = some t
  /-- The next poll behind a report brings whatever was not heard of the run, and its farewell:
  `done`, and before it the error if the script failed. -/
  delivered : ∀ r o A batch B, H = A ++ .handed batch :: B → .reported r o ∈ A →
    .abandoned r ∉ A → heard r (A ++ [.handed batch]) = posted r H ++ o.farewell
  /-- A `done` without an error before it is that of a script that really completed. -/
  completed : ∀ r A, heard r H = A ++ [.done] → (∀ e, .error e ∉ A) → ∃ script xs,
    Begun config platform ms r script ∧ Finishes config r script xs .completed ∧
      xs <+: (ofConfig config platform).exchanges r ms

section

variable {config : Config} {platform : Platform} {ms : List Move} {S : System} {H : List Note}
  {r : RunId} {o : Outcome} {w : Worker}

/-- What is known of a run that has reported: its thread is through. -/
theorem reported_cases (h : .reported r o ∈ ((ofConfig config platform).play ms).2) :
    ∃ script xs c, Begun config platform ms r script ∧
      (ofConfig config platform).exchanges r ms = xs ++ [.report o] ∧
      (Script.run config r script).Goes xs (.done (o, c)) ∧
      ((ofConfig config platform).play ms).1.session.thread? r = some (.done ()) := by
  rw [reported_play] at h
  cases hv : ((ofConfig config platform).play ms).1.session.thread? r with
  | none =>
      rw [exchanges_of_unknown (sound_ofConfig config platform) hv] at h
      cases h
  | some v =>
      rcases begun_of_thread? hv with ⟨script, hbegun⟩ | ⟨-, hnone⟩
      · obtain ⟨u, hu, hgoes⟩ := hbegun.goes
        obtain ⟨xs, c, hxs, hrun, rfl⟩ := Session.reported_of_mem hgoes h
        exact ⟨script, xs, c, hbegun, hxs, hrun, hv ▸ hu⟩
      · rw [hnone] at h
        cases h

/-- A run reports once. -/
theorem reported_unique {o' : Outcome} (h : .reported r o ∈ ((ofConfig config platform).play ms).2)
    (h' : .reported r o' ∈ ((ofConfig config platform).play ms).2) : o = o' := by
  obtain ⟨-, xs, -, -, hxs, -⟩ := reported_cases h
  obtain ⟨-, xs', -, -, hxs', -⟩ := reported_cases h'
  have hsame := (List.append_inj' (hxs.symm.trans hxs') rfl).2
  cases hsame
  rfl

/-- A run that is about to say that it was replaced was given up. -/
theorem abandoned_of_asks (hS : Reached config H S) (hw : S.session.worker? r = some w)
    {k : Unit → Thread Unit} (hask : w.thread = .ask (.finish .cancelled) k)
    (hsilent : ∀ o, .reported r o ∉ H) : .abandoned r ∈ H := by
  by_cases hcurrent : S.session.current? = some r
  · obtain ⟨run, hc, rfl⟩ := Option.map_eq_some_iff.1 hcurrent
    obtain ⟨v, stage, hv, hconf, -, hflag, hst⟩ := hS.sound.live_worker hc
    cases hw.symm.trans hv
    rw [hask] at hconf
    have hallowed := hconf.of_ask.1
    cases hst with
    | working hs =>
        rcases hs with rfl | rfl | ⟨rfl, htold⟩
        · exact absurd rfl hallowed
        · exact hallowed.elim
        · exact (hS.ledger.books _).told (hflag.symm.trans htold) hcurrent
    | unread => exact hallowed.elim
    | queued => exact hallowed.elim
    | woken => exact hallowed.elim
    | ended => exact hallowed.elim
  · rcases (hS.ledger.books r).settled (by simp [hw]) hcurrent with ⟨o, ho⟩ | habandoned
    · rcases hS.reported_or_crash ho with hreported | ⟨v, hv, hcrash⟩
      · exact absurd hreported (hsilent o)
      · cases hw.symm.trans hv
        rw [hask] at hcrash
        cases hcrash
    · exact habandoned

/-- What a run reports with a move it asks for in that move. -/
theorem asks_of_exchange {s : Session} (h : Exchange.report o ∈ s.exchange r) :
    ∃ w k, s.worker? r = some w ∧ w.thread = .ask (.finish o) k := by
  unfold Session.exchange at h
  split at h
  · cases h
  next w hw =>
    split at h
    next q k hask =>
      obtain ⟨a, -, he⟩ := Option.map_eq_some_iff.1 (Option.mem_toList.1 h)
      cases he
      exact ⟨w, k, hw, hask⟩
    · cases h

/-- A report that a run was replaced comes behind the moment at which it was. -/
theorem abandoned_of_reported {A B : List Note}
    (h : ((ofConfig config platform).play ms).2 = A ++ .reported r .cancelled :: B) :
    .abandoned r ∈ A := by
  obtain ⟨ms₁, m, ms₂, rfl, rfl, hnote, -⟩ := play_split h
  have hreported : .reported r .cancelled ∈ (((ofConfig config platform).play ms₁).1.step m).2 := by
    rw [hnote]
    exact List.mem_singleton_self _
  rw [reported_step] at hreported
  have hasks : ∃ w k, ((ofConfig config platform).play ms₁).1.session.worker? r = some w ∧
      w.thread = .ask (.finish .cancelled) k := by
    cases m with
    | thread id =>
        rw [exchange] at hreported
        split at hreported
        · exact asks_of_exchange hreported
        · cases hreported
    | _ => cases hreported
  obtain ⟨w, k, hw, hask⟩ := hasks
  refine abandoned_of_asks (reached_play config platform ms₁) hw hask fun o ho => ?_
  obtain ⟨-, -, -, -, -, -, hdone⟩ := reported_cases ho
  rw [Session.thread?_of_worker? hw, hask] at hdone
  cases hdone

/-- A report in the channel of a run is that of a run that was given up, if it says so. -/
theorem abandoned_of_sent (hS : Reached config H S) (hw : S.session.worker? r = some w)
    (hsent : .finished .cancelled ∈ w.link.events) : .abandoned r ∈ H := by
  by_cases hcurrent : S.session.current? = some r
  · obtain ⟨run, hc, rfl⟩ := Option.map_eq_some_iff.1 hcurrent
    obtain ⟨v, stage, hv, -, -, hflag, hst⟩ := hS.sound.live_worker hc
    cases hw.symm.trans hv
    have hended : w.link.isCancelled = true := by
      cases hst with
      | ended ms o he hq hs ho =>
          have hsame : Outcome.cancelled = o := by simpa [he] using hsent
          exact ho hsame.symm
      | working hs ms he => simp [he] at hsent
      | unread ms he => simp [he] at hsent
      | queued he => simp [he] at hsent
      | woken he => simp [he] at hsent
    exact (hS.ledger.books _).told (hflag.symm.trans hended) hcurrent
  · rw [(hS.sound.bygone r w hw hcurrent).silent] at hsent
    cases hsent

/-- A poll hands out only when there is nothing left to take in. -/
theorem receive_of_handed {m : Move} {batch : List (RunId × WorkerMessage)}
    (h : .handed batch ∈ (S.step m).2) : S.session.receive = none := by
  rcases of_mem_step h with ⟨_, he⟩ | ⟨_, _, he⟩ | ⟨_, _, he⟩ | ⟨hr, -⟩ | ⟨id, t, -, -, h⟩
  · cases he
  · cases he
  · cases he
  · exact hr
  · simpa using Session.of_mem_stepNotes h

/-- A host takes in the end of a run whose thread is through. -/
theorem not_current_of_done {s : Session} (hr : s.receive = none)
    (hdone : s.thread? r = some (.done ())) : s.current? ≠ some r := by
  intro hcurrent
  obtain ⟨run, hc, rfl⟩ := Option.map_eq_some_iff.1 hcurrent
  obtain ⟨w, hw, hthread⟩ := Session.exists_worker_of_thread? hdone
  simp only [Session.receive, hc, hw, hthread, Thread.isOver, if_true] at hr
  split at hr <;> cases hr

/-- The end of a run that has reported and was not given up is taken in before a poll hands out. -/
theorem collected_of_handed {A B : List Note} {batch : List (RunId × WorkerMessage)}
    (h : ((ofConfig config platform).play ms).2 = A ++ .handed batch :: B)
    (hreported : .reported r o ∈ A) (hkept : .abandoned r ∉ A) : .collected r o ∈ A := by
  obtain ⟨ms₁, m, ms₂, rfl, rfl, hnote, -⟩ := play_split h
  have hS := reached_play config platform ms₁
  obtain ⟨-, -, -, -, -, -, hdone⟩ := reported_cases hreported
  have hreceive := receive_of_handed (m := m) (hnote ▸ List.mem_singleton_self _)
  obtain ⟨w, hw, hthread⟩ := Session.exists_worker_of_thread? hdone
  have hcurrent := not_current_of_done hreceive hdone
  rcases (hS.ledger.books r).settled (by simp [hw]) hcurrent with ⟨o', ho'⟩ | habandoned
  · rcases hS.reported_or_crash ho' with hreported' | ⟨v, hv, hcrash⟩
    · rwa [reported_unique hreported hreported']
    · cases hw.symm.trans hv
      rw [hthread] at hcrash
      cases hcrash
  · exact absurd habandoned hkept

/-- A script that has ended is reported, or its thread has a step. -/
theorem reported_or_step {script : String} {xs : List Exchange}
    (hbegun : Begun config platform ms r script) (hfinishes : Finishes config r script xs o)
    (hxs : xs <+: (ofConfig config platform).exchanges r ms)
    (hkept : .abandoned r ∉ ((ofConfig config platform).play ms).2) :
    .reported r o ∈ ((ofConfig config platform).play ms).2 ∨
      ∃ t, ((ofConfig config platform).play ms).1.session.advanceRun r = some t := by
  obtain ⟨u, hu, hgoes⟩ := hbegun.goes
  obtain ⟨v, hv, hclosing⟩ := Session.closing_of_finishes hfinishes
  obtain ⟨ys, hys⟩ := hxs
  rw [← hys] at hgoes
  obtain ⟨w, hw, rfl⟩ := Session.exists_worker_of_thread? hu
  rcases hclosing.cases (hv.rest hgoes) with ⟨k, hask⟩ | ⟨o', k, hask⟩ | ⟨o', ho', hcases⟩
  · exact .inr (Session.exists_advanceRun hw (by rw [hask]; rfl))
  · exact .inr (Session.exists_advanceRun hw (by rw [hask]; rfl))
  · have hreported : .reported r o' ∈ ((ofConfig config platform).play ms).2 := by
      rw [reported_play, ← hys]
      exact List.mem_append_right _ ho'
    rcases hcases with rfl | rfl
    · exact .inl hreported
    · obtain ⟨A, B, hsplit⟩ := List.append_of_mem hreported
      refine absurd ?_ hkept
      rw [hsplit]
      exact List.mem_append_left _ (abandoned_of_reported hsplit)

/-- What a run reports that was not given up is how its script ended. -/
theorem finishes_of_reported (h : .reported r o ∈ ((ofConfig config platform).play ms).2)
    (hkept : .abandoned r ∉ ((ofConfig config platform).play ms).2) : ∃ script xs,
    Begun config platform ms r script ∧ Finishes config r script xs o ∧
      xs <+: (ofConfig config platform).exchanges r ms := by
  obtain ⟨script, xs, c, hbegun, hxs, hrun, -⟩ := reported_cases h
  have ho : o ≠ .cancelled := by
    rintro rfl
    obtain ⟨A, B, hsplit⟩ := List.append_of_mem h
    refine hkept ?_
    rw [hsplit]
    exact List.mem_append_left _ (abandoned_of_reported hsplit)
  obtain ⟨ys, hfinishes, hys⟩ := Script.finishes_of_run hrun ho
  exact ⟨script, ys, hbegun, hfinishes, hys.trans (hxs ▸ List.prefix_append _ _)⟩

/-- A `done` that comes without an error stands for a run that has reported that it completed. -/
theorem completed_of_heard {A : List WorkerMessage}
    (h : heard r ((ofConfig config platform).play ms).2 = A ++ [.done]) (hplain : ∀ e, .error e ∉ A) :
    .reported r .completed ∈ ((ofConfig config platform).play ms).2 ∧
      .abandoned r ∉ ((ofConfig config platform).play ms).2 := by
  have hledger := (known_play config platform ms).ledger
  rcases hledger.heard_cases r with hbeginning | ⟨o, ho, hall⟩
  · have hdone := (hledger.books r).plain .done (hbeginning.subset (by simp [h]))
    cases hdone
  · have hbooks := (hledger.books r).collected o ho
    refine ⟨?_, hbooks.kept⟩
    rw [h] at hall
    cases o with
    | completed =>
        cases hbooks.truly with
        | reported hreported => exact hreported
        | lost hlost => cases hlost
        | refused reason hrefused => cases hrefused
    | cancelled => exact absurd rfl hbooks.notCancelled
    | failed failure diagnostic =>
        have hsplit : A ++ [.done] =
            (posted r ((ofConfig config platform).play ms).2 ++ [.error failure.message]) ++
              [.done] := by
          rw [hall, List.append_assoc]
          rfl
        exact absurd (by simp [List.append_cancel_right hsplit]) (hplain failure.message)

/-- **A run that is alive never ends as cancelled**, whatever the host and the threads of all runs
do, in which order they do it, and whatever the scripts are: it reports how its script ended by
itself, and the host hears of it. -/
theorem honest_ends (config : Config) (platform : Platform) (ms : List Move) :
    Honest config platform ms ((ofConfig config platform).play ms).2
      ((ofConfig config platform).play ms).1 where
  cancelled r A B h := abandoned_of_reported h
  unsent r w hw hsent := abandoned_of_sent (reached_play config platform ms) hw hsent
  truly r o h hkept := finishes_of_reported h hkept
  unhindered r script xs o hbegun hfinishes hxs hkept := reported_or_step hbegun hfinishes hxs hkept
  delivered r o A batch B h hreported hkept := by
    obtain ⟨A₁, A₂, rfl⟩ := List.append_of_mem (collected_of_handed h hreported hkept)
    rw [List.append_assoc, List.cons_append] at h ⊢
    exact (complete_play h).1
  completed r A h hplain := by
    obtain ⟨hreported, hkept⟩ := completed_of_heard h hplain
    exact finishes_of_reported hreported hkept

end

end System

end FilterScript
