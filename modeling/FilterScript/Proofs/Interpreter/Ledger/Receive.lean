/-
The books and what the host takes in.

A message goes from the end of the channel to the end of the outbox.  The outcome
stands last in the channel, so when it is read the farewell stands behind everything
that the run posted.  A poll moves all of it to what was handed out.
-/
import FilterScript.Proofs.Interpreter.Ledger.Step

namespace FilterScript

namespace System.Ledger

variable {H : List Note} {s t : Session} {phase phase' : HostPhase}

theorem messages_cons (e : RunEvent) (es : List RunEvent) :
    RunEvent.messages (e :: es) = RunEvent.messages [e] ++ RunEvent.messages es := by
  rw [← messages_append, List.singleton_append]

@[simp] theorem ofRun_map_self (r : RunId) (ms : List WorkerMessage) :
    ofRun r (ms.map fun m => (r, m)) = ms := by
  simp [ofRun, List.filter_map, Function.comp_def]

theorem ofRun_map_other {r r' : RunId} (hr : r' ≠ r) (ms : List WorkerMessage) :
    ofRun r (ms.map fun m => (r', m)) = [] := by
  simp [ofRun, hr]

/-- What the current run says goes to the end of the outbox. -/
theorem ordered_say {run : CurrentRun} (h : Ledger H ⟨s, phase⟩) (hS : Sound ⟨s, phase⟩)
    (hc : s.interpreter.current = some run) (new : List WorkerMessage) :
    (handedOut H ++ (s.interpreter.outbox ++ new.map fun m => (run.id, m))).Pairwise
        (fun x y => x.1 ≤ y.1) ∧
      ∀ x ∈ handedOut H ++ (s.interpreter.outbox ++ new.map fun m => (run.id, m)),
        x.1 ≤ s.newest := by
  have hid : run.id = s.newest := (hS.live run hc).newest
  rw [← List.append_assoc]
  constructor
  · rw [List.pairwise_append]
    refine ⟨h.ordered, ?_, fun x hx y hy => ?_⟩
    · rw [List.pairwise_map]
      exact List.pairwise_of_forall fun _ _ => Nat.le_refl _
    · obtain ⟨m, -, rfl⟩ := List.mem_map.mp hy
      exact Nat.le_trans (h.bounded x hx) (Nat.le_of_eq hid.symm)
  · intro x hx
    rcases List.mem_append.mp hx with hx | hx
    · exact h.bounded x hx
    · obtain ⟨m, -, rfl⟩ := List.mem_map.mp hx
      exact Nat.le_of_eq hid

/-- The host takes in an event after which the run is still current. -/
theorem read {run : CurrentRun} {w : Worker} {e : RunEvent} {rest : List RunEvent}
    (h : Ledger H ⟨s, phase⟩) (hS : Sound ⟨s, phase⟩) (hc : s.interpreter.current = some run)
    (hw : s.worker? run.id = some w) (he : w.link.events = e :: rest)
    (hcurrent : t.current? = s.current?) (hnewest : t.newest = s.newest)
    (houtbox : t.interpreter.outbox =
      s.interpreter.outbox ++ (RunEvent.messages [e]).map fun m => (run.id, m))
    (hview : ∀ r, t.worker? r =
      if r = run.id then some (w.onLink (Link.remaining rest)) else s.worker? r) :
    Ledger H ⟨t, phase⟩ := by
  have hids : s.current? = some run.id := by simp [Session.current?, hc]
  have hself := (hview run.id).trans (if_pos rfl)
  obtain ⟨hordered, hbounded⟩ := h.ordered_say hS hc (RunEvent.messages [e])
  refine ⟨houtbox ▸ hordered, ?_, fun r => ?_⟩
  · simp only [houtbox, hnewest]
    exact hbounded
  have hbooks := h.books r
  by_cases hr : r = run.id
  · subst hr
    have hbox : t.box run.id = s.box run.id ++ RunEvent.messages [e] := by
      simp only [Session.box, houtbox, ofRun_append, ofRun_map_self]
    constructor
    · simp [hself]
    · exact hbooks.plain
    · intro w' _ hw'
      cases hself.symm.trans hw'
      have hrunning := hbooks.running w hids hw
      refine ⟨?_, fun o ho => hrunning.truly o (he ▸ List.mem_cons_of_mem _ ho)⟩
      rw [hrunning.balance, he, messages_cons, hbox]
      simp only [List.append_assoc]
      rfl
    · exact fun o ho => absurd hids (hbooks.collected o ho).bygone
    · intro ha
      rcases (hbooks.abandoned ha).silent with ⟨_, hflagged⟩ | ⟨hne, -⟩
      · exact ⟨by simp [hself], Or.inl ⟨hcurrent.trans hids, hflagged⟩⟩
      · exact absurd hids hne
    · exact fun _ hne => absurd (hcurrent.trans hids) hne
    · exact fun hf _ => hbooks.told hf hids
  · refine hbooks.congr ⟨rfl, rfl, ?_, by rw [hcurrent], ⟨id, ?_, fun _ _ => rfl⟩,
      ⟨[], by simp, by simp, by simp⟩, fun _ => rfl, id⟩
    · simp only [Session.box, houtbox, ofRun_append, ofRun_map_other (Ne.symm hr),
        List.append_nil]
    · rw [hview, if_neg hr]
      cases s.worker? r <;> rfl

theorem outbox_finish {i : Interpreter} {run : CurrentRun} (o : Outcome)
    (hc : i.current = some run) :
    (i.finish o).1.outbox = i.outbox ++ o.farewell.map fun m => (run.id, m) := by
  simp only [Interpreter.finish, hc]
  cases o <;> simp [Outcome.farewell, Interpreter.say, Interpreter.keep]

/-! ### The end of the current run

That its end was taken in is no message, so what runs posted and what was handed out are the same.
-/

theorem posted_collected (r r' : RunId) (o : Outcome) :
    posted r (H ++ [.collected r' o]) = posted r H := by
  simp [posted, Note.said?]

theorem handedOut_collected (r : RunId) (o : Outcome) :
    handedOut (H ++ [.collected r o]) = handedOut H := by
  simp [handedOut, Note.batch]

theorem heard_collected (r r' : RunId) (o : Outcome) :
    heard r (H ++ [.collected r' o]) = heard r H := by
  simp only [heard, handedOut_collected]

/-- The books of the run that ends.  All that it posted is in the outbox, with the farewell behind it. -/
theorem books_finish {r : RunId} {w : Worker} {f : Link → Link} {o : Outcome}
    (hbooks : Books H ⟨s, phase⟩ r) (hflagged : phase.isFlagged = false) (hcurrent : s.current? = some r)
    (hw : s.worker? r = some w) (hself : t.worker? r = some (w.onLink f))
    (hended : ∀ r', t.current? ≠ some r') (hbox : t.box r = s.box r ++ o.farewell)
    (hsent : RunEvent.messages w.link.events = [])
    (htruly : .finished o ∈ w.link.events ∨ Cause H s r o) (hcancelled : o ≠ .cancelled) :
    Books (H ++ [.collected r o]) ⟨t, phase'⟩ r := by
  have hrunning := hbooks.running w hcurrent hw
  have hkept : .abandoned r ∉ H := by
    intro ha
    rcases (hbooks.abandoned ha).silent with ⟨-, htold⟩ | ⟨hne, -⟩
    · rw [hflagged] at htold
      cases htold
    · exact hne hcurrent
  constructor
  · simp [hself]
  · rw [posted_collected]
    exact hbooks.plain
  · exact fun _ hcur => absurd hcur (hended _)
  · intro o' ho'
    have hsame : o' = o := by
      rcases List.mem_append.mp ho' with ho' | ho'
      · exact absurd hcurrent (hbooks.collected o' ho').bygone
      · simpa using ho'
    subst hsame
    refine ⟨?_, by simp [hself], hended _, by simpa using hkept, hcancelled, Or.inl ?_⟩
    · rcases htruly with ho | hcause
      · exact .reported (List.mem_append_left _ (hrunning.truly _ ho))
      · refine hcause.mono fun v hv => ?_
        cases hw.symm.trans hv
        exact ⟨_, hself, rfl⟩
    · refine ⟨s.box r, hbox, ?_⟩
      rw [posted_collected, heard_collected, hrunning.balance, hsent, List.append_nil]
  · intro ha
    exact absurd (by simpa using ha) hkept
  · exact fun _ _ => Or.inl ⟨o, by simp⟩
  · exact fun _ hcur => absurd hcur (hended _)

/-- The current run ends. -/
theorem finish {run : CurrentRun} {w : Worker} {o : Outcome} (h : Ledger H ⟨s, phase⟩)
    (hS : Sound ⟨s, phase⟩) (hflagged : phase.isFlagged = false) (hgone : phase.isGone = false)
    (hc : s.interpreter.current = some run) (hw : s.worker? run.id = some w)
    (hending : s.Ending run w o t) (hsent : RunEvent.messages w.link.events = [])
    (htruly : .finished o ∈ w.link.events ∨ Cause H s run.id o) (hcancelled : o ≠ .cancelled) :
    Ledger (H ++ [.collected run.id o]) ⟨t, phase'⟩ := by
  obtain ⟨hi, hview⟩ := hending
  have hids : s.current? = some run.id := Sound.current?_eq_some hc
  have hended : ∀ r, t.current? ≠ some r := fun r => by
    simp [Session.current?, hi, Sound.current_finish]
  have hnewest : t.newest = s.newest := by
    simp only [Session.newest, hi, Sound.generation_finish]
  have houtbox : t.interpreter.outbox =
      s.interpreter.outbox ++ o.farewell.map fun m => (run.id, m) := by
    rw [hi, outbox_finish o hc]
  obtain ⟨hordered, hbounded⟩ := h.ordered_say hS hc o.farewell
  refine ⟨?_, ?_, fun r => ?_⟩
  · rw [handedOut_collected, houtbox]
    exact hordered
  · simp only [handedOut_collected, houtbox, hnewest]
    exact hbounded
  by_cases hr : r = run.id
  · subst hr
    refine books_finish (h.books run.id) hflagged hids hw ((hview run.id).trans (if_pos rfl)) hended ?_
      hsent htruly hcancelled
    simp only [Session.box, houtbox, ofRun_append, ofRun_map_self]
  · have hne : s.current? ≠ some r := by
      rw [hids]
      exact fun he => hr (Option.some.inj he).symm
    refine (h.books r).congr ⟨posted_collected .., heard_collected .., ?_, by simp [hended r, hne],
      ⟨_, (hview r).trans (if_neg hr), fun hcur => absurd hcur (hended r)⟩,
      ⟨_, rfl, by simp [hr], by simp⟩, fun hcur => absurd hcur hne, by simp [hgone]⟩
    simp only [Session.box, houtbox, ofRun_append, ofRun_map_other (Ne.symm hr),
      List.append_nil]

/-- Whatever the host takes in. -/
theorem receive (h : Ledger H ⟨s, phase⟩) (hS : Sound ⟨s, phase⟩)
    (hp : Sound.isPlain phase = true) (hr : s.receive = some t) :
    Ledger (H ++ s.receiveNotes) ⟨t, phase⟩ := by
  obtain ⟨run, w, stage, hc, hw, -, hreceipt⟩ := hS.receipt hp hr
  cases hreceipt with
  | message m rest he hnotes hi hview =>
      rw [hnotes, List.append_nil]
      refine h.read hS hc hw he ?_ ?_ ?_ hview
      · simp only [Session.current?, hi]
        rfl
      · simp only [Session.newest, hi]
        rfl
      · rw [hi]
        rfl
  | suspend hs he hsignal hnotes hi hview =>
      rw [hnotes, List.append_nil]
      refine h.read hS hc hw he ?_ ?_ ?_ hview
      · simp only [Session.current?, hi, hc]
        rfl
      · simp only [Session.newest, hi]
        rfl
      · rw [hi]
        exact (List.append_nil _).symm
  | ended o hsent ho hnotes hending =>
      rw [hnotes]
      refine h.finish hS (Sound.flags_of_isPlain hp).1 (isGone_of_isPlain hp) hc hw hending ?_ ?_ ho
      · rcases hsent with ⟨he, -⟩ | ⟨he, -⟩ <;> rw [he] <;> rfl
      · exact hsent.imp (fun hended => by simp [hended.1]) fun hlost =>
          .lost hlost.2.2 ⟨w, hw, hlost.2.1⟩

/-- The host ends a run that got no thread. -/
theorem fail {reason : String} {r : RunId} (h : Ledger H ⟨s, .refused reason⟩)
    (hS : Sound ⟨s, .refused reason⟩) (hr : s.current? = some r) (hnote : .refused r reason ∈ H) :
    Ledger (H ++ s.failNotes reason) ⟨s.fail reason, .ready⟩ := by
  obtain ⟨run, w, hc, hw, hcrash, he, hnotes, hending⟩ := hS.failure
  obtain rfl : run.id = r := Option.some.inj ((Sound.current?_eq_some hc).symm.trans hr)
  rw [hnotes]
  exact h.finish hS rfl rfl hc hw hending (by rw [he]; rfl) (Or.inr (.refused reason rfl hnote)) nofun

/-- A poll hands out everything that the outbox has. -/
theorem hand (h : Ledger H ⟨s, .collecting .poll⟩) :
    Ledger (H ++ [.handed s.take.1]) ⟨s.take.2, .ready⟩ := by
  have hhanded : handedOut (H ++ [.handed s.take.1]) = handedOut H ++ s.interpreter.outbox := by
    simp [handedOut, Note.batch, Session.take]
  have hheard : ∀ r, heard r (H ++ [.handed s.take.1]) = heard r H ++ s.box r := fun r => by
    simp only [heard, hhanded, ofRun_append, Session.box]
  have hposted : ∀ r, posted r (H ++ [.handed s.take.1]) = posted r H := fun r => by
    simp [posted, Note.said?]
  have hbox : ∀ r, s.take.2.box r = [] := fun _ => rfl
  have hcollected : ∀ r o, .collected r o ∈ H ++ [.handed s.take.1] → .collected r o ∈ H :=
    fun r o ho => by simpa using ho
  have habandoned : ∀ r, .abandoned r ∈ H ++ [.handed s.take.1] → .abandoned r ∈ H :=
    fun r ha => by simpa using ha
  have hempty : s.take.2.interpreter.outbox = [] := rfl
  refine ⟨?_, ?_, fun r => ?_⟩
  · rw [hhanded, hempty, List.append_nil]
    exact h.ordered
  · rw [hhanded, hempty, List.append_nil]
    exact h.bounded
  have hbooks := h.books r
  constructor
  · intro hnone
    obtain ⟨hsaid, hgot, hleft⟩ := hbooks.unstarted hnone
    exact ⟨(hposted r).trans hsaid, by rw [hheard, hgot]; exact hleft, hbox r⟩
  · rw [hposted]
    exact hbooks.plain
  · intro w hc hw
    have hrunning := hbooks.running w hc hw
    refine ⟨?_, fun o ho => List.mem_append_left _ (hrunning.truly o ho)⟩
    rw [hposted, hheard, hbox, List.append_nil]
    exact hrunning.balance
  · intro o ho
    have hclosed := hbooks.collected o (hcollected r o ho)
    refine ⟨hclosed.truly.mono fun w hw => ⟨w, hw, rfl⟩, hclosed.started, hclosed.bygone,
      fun ha => hclosed.kept (habandoned r ha), hclosed.notCancelled, Or.inr ⟨hbox r, ?_⟩⟩
    rw [hposted, hheard]
    rcases hclosed.balance with ⟨ms, hleft, hms⟩ | ⟨hleft, hall⟩
    · rw [show s.box r = _ from hleft, ← List.append_assoc, hms]
    · rw [show s.box r = _ from hleft, List.append_nil, hall]
  · intro ha
    have hclosed := hbooks.abandoned (habandoned r ha)
    refine ⟨hclosed.started, ?_⟩
    rcases hclosed.silent with ⟨-, hf⟩ | ⟨hne, hbeginning, hleft | hgone⟩
    · cases hf
    · refine Or.inr ⟨hne, ?_, Or.inl (hbox r)⟩
      rw [hposted, hheard, show s.box r = [] from hleft, List.append_nil]
      exact hbeginning
    · cases hgone
  · exact fun hstarted hne => (hbooks.settled hstarted hne).imp
      (Exists.imp fun _ => List.mem_append_left _) (List.mem_append_left _)
  · intro hflagged
    cases hflagged

end System.Ledger

end FilterScript
