/-
The books of a run that is abandoned.

The host notes it when it tells the run, while the run is still current.  The books
are closed when the host lets go of it: the outbox forgets the run, or is read by
nobody any longer.
-/
import FilterScript.Proofs.Interpreter.Ledger.Step

namespace FilterScript

namespace System.Ledger

variable {H : List Note} {s t : Session} {phase phase' : HostPhase}

theorem mem_abandonNotes {r : RunId} : .abandoned r ∈ s.abandonNotes ↔ s.current? = some r := by
  simp only [Session.abandonNotes, Session.current?]
  cases s.interpreter.current <;> simp [eq_comm]

theorem posted_abandonNotes (r : RunId) : posted r s.abandonNotes = [] := by
  simp only [Session.abandonNotes]
  cases s.interpreter.current <;> rfl

theorem handedOut_abandonNotes : handedOut s.abandonNotes = [] := by
  simp only [Session.abandonNotes]
  cases s.interpreter.current <;> rfl

theorem collected_notMem_abandonNotes {r : RunId} {o : Outcome} :
    .collected r o ∉ s.abandonNotes := by
  simp only [Session.abandonNotes]
  cases s.interpreter.current <;> simp

/-- The current run is told that it is replaced, or that the host goes away. -/
theorem flag (h : Ledger H ⟨s, .ready⟩) (hS : Sound ⟨s, .ready⟩)
    (hflagged : phase'.isFlagged = true) : Ledger (H ++ s.abandonNotes) ⟨s.flag, phase'⟩ := by
  have hinterpreter : s.flag.interpreter = s.interpreter := Session.interpreter_onCurrent
  have hcurrent : s.flag.current? = s.current? := by simp only [Session.current?, hinterpreter]
  have hheard : ∀ r, heard r (H ++ s.abandonNotes) = heard r H := by
    intro r
    rw [heard_append, heard, heard, handedOut_abandonNotes, ofRun_nil, List.append_nil]
  have hposted : ∀ r, posted r (H ++ s.abandonNotes) = posted r H := by
    intro r
    rw [posted_append, posted_abandonNotes, List.append_nil]
  have hbox : ∀ r, s.flag.box r = s.box r := fun r => by simp only [Session.box, hinterpreter]
  have hworker := worker_onCurrent (s := s) Session.keepsRun_cancel fun _ => rfl
  refine ⟨?_, ?_, fun r => ?_⟩
  · rw [handedOut_append, handedOut_abandonNotes, List.append_nil, hinterpreter]
    exact h.ordered
  · rw [handedOut_append, handedOut_abandonNotes, List.append_nil]
    simp only [Session.newest, hinterpreter]
    exact h.bounded
  have hbooks := h.books r
  by_cases hr : s.current? = some r
  · obtain ⟨run, hc, rfl⟩ := Option.map_eq_some_iff.mp hr
    obtain ⟨w, stage, hw, -⟩ := hS.live_worker hc
    obtain ⟨f, hview, hevents⟩ := hworker run.id
    have hself : s.flag.worker? run.id = some (w.onLink f) := by
      rw [show s.flag.worker? run.id = _ from hview, hw]
      rfl
    have habandoned : .abandoned run.id ∈ H ++ s.abandonNotes :=
      List.mem_append_right _ (mem_abandonNotes.mpr hr)
    constructor
    · intro hnone
      rw [hself] at hnone
      cases hnone
    · rw [hposted]
      exact hbooks.plain
    · intro w' _ hw'
      cases hself.symm.trans hw'
      have hrunning := hbooks.running w hr hw
      have hsame : (w.onLink f).link.events = w.link.events := hevents (hcurrent.trans hr) _
      refine ⟨?_, fun o ho => List.mem_append_left _ (hrunning.truly o (hsame ▸ ho))⟩
      rw [hposted, hheard, hbox, hsame]
      exact hrunning.balance
    · intro o ho
      have hcollected := (List.mem_append.mp ho).resolve_right collected_notMem_abandonNotes
      exact absurd hr (hbooks.collected o hcollected).bygone
    · exact fun _ => ⟨by simp [hself], Or.inl ⟨hcurrent.trans hr, hflagged⟩⟩
    · exact fun _ hne => absurd (hcurrent.trans hr) hne
    · exact fun _ _ => habandoned
  · refine hbooks.congr ⟨hposted r, hheard r, hbox r, by rw [hcurrent], hworker r,
      ⟨s.abandonNotes, rfl, fun o => collected_notMem_abandonNotes, ?_⟩, fun hc => absurd hc hr,
      fun hgone => by cases hgone⟩
    exact fun ha => hr (mem_abandonNotes.mp ha)

/-- The host lets go of the current run, which was told before, with everything that
the outbox has of it, unless nobody reads that any longer. -/
theorem drop {run : CurrentRun} (h : Ledger H ⟨s, phase⟩)
    (hc : s.interpreter.current = some run) (hc' : t.interpreter.current = none)
    (hflagged : phase.isFlagged = true) (hnewest : t.newest = s.newest)
    (houtbox : t.interpreter.outbox.Sublist s.interpreter.outbox)
    (hothers : ∀ r ≠ run.id, t.box r = s.box r)
    (hsilent : t.box run.id = [] ∨ phase'.isGone = true)
    (hworker : ∀ r, ∃ f : Link → Link, t.worker? r = (s.worker? r).map (·.onLink f))
    (hstarted : s.worker? run.id ≠ none) (hgone : phase.isGone = false) :
    Ledger H ⟨t, phase'⟩ := by
  have hcurrent : ∀ r, t.current? ≠ some r := fun r => by simp [Session.current?, hc']
  have hids : s.current? = some run.id := by simp [Session.current?, hc]
  refine ⟨?_, ?_, fun r => ?_⟩
  · exact h.ordered.sublist ((List.Sublist.refl _).append houtbox)
  · intro x hx
    rw [hnewest]
    exact h.bounded x (((List.Sublist.refl _).append houtbox).subset hx)
  have hbooks := h.books r
  obtain ⟨f, hview⟩ := hworker r
  by_cases hr : r = run.id
  · subst hr
    have habandoned := hbooks.told hflagged hids
    obtain ⟨w, hw⟩ := Option.ne_none_iff_exists'.mp hstarted
    have hself : t.worker? run.id ≠ none := by simp [hview, hw]
    constructor
    · exact fun hnone => absurd hnone hself
    · exact hbooks.plain
    · exact fun _ hcur => absurd hcur (hcurrent _)
    · exact fun o ho => absurd hids (hbooks.collected o ho).bygone
    · refine fun _ => ⟨hself, Or.inr ⟨hcurrent _, ?_, hsilent⟩⟩
      rw [(hbooks.running w hids hw).balance, List.append_assoc]
      exact List.prefix_append _ _
    · exact fun _ _ => Or.inr habandoned
    · exact fun _ _ => habandoned
  · have hne : s.current? ≠ some r := by
      rw [hids]
      exact fun he => hr (Option.some.inj he).symm
    exact hbooks.congr ⟨rfl, rfl, hothers r hr, by simp [hcurrent r, hne],
      ⟨f, hview, fun hcur => absurd hcur (hcurrent r)⟩, ⟨[], by simp, by simp, by simp⟩,
      fun hcur => absurd hcur hne, by simp [hgone]⟩

/-- The run that is replaced is forgotten. -/
theorem forget {script : String} {moment : Moment} (h : Ledger H ⟨s, .flagged script moment⟩)
    (hS : Sound ⟨s, .flagged script moment⟩) : Ledger H ⟨s.forget, .cleared script moment⟩ := by
  have hview := fun r => Session.worker?_forget (s := s) r
  cases hc : s.interpreter.current with
  | none =>
      have hinterpreter : s.forget.interpreter = s.interpreter := by
        simp only [Session.interpreter_forget, Interpreter.supersede, hc]
      refine h.idle (by rw [hinterpreter]) (by simp only [Session.newest, hinterpreter])
        (by simp only [Session.current?, hinterpreter]) (worker_id fun r => ?_)
        (fun hne => absurd (by simp [Session.current?, hc]) hne) (fun hgone => by cases hgone)
      rw [hview, hc]
      rfl
  | some run =>
      have hinterpreter : s.forget.interpreter = { s.interpreter with
          current := none
          outbox := s.interpreter.outbox.filter fun m => m.1 ≠ run.id } := by
        simp only [Session.interpreter_forget, Interpreter.supersede, hc]
      obtain ⟨w, stage, hw, -⟩ := hS.live_worker hc
      refine h.drop hc (by rw [hinterpreter]) rfl (by simp only [Session.newest, hinterpreter])
        ?_ (fun r hr => ?_) (Or.inl ?_) (fun r => ?_) (by simp [hw]) rfl
      · rw [hinterpreter]
        exact List.filter_sublist
      · simp only [Session.box, hinterpreter, ofRun, List.filter_filter]
        congr 1
        refine List.filter_congr fun x _ => ?_
        by_cases hx : x.1 = r
        · simp [hx, hr]
        · simp [hx]
      · simp only [Session.box, hinterpreter, ofRun, List.filter_filter]
        simp
      · rw [hview]
        split
        · exact ⟨Link.shut, rfl⟩
        · exact ⟨id, by cases s.worker? r <;> rfl⟩

/-- The host that goes away lets go of the current run, and polls no more. -/
theorem vacate (h : Ledger H ⟨s, .leaving⟩) (hS : Sound ⟨s, .leaving⟩) : Ledger H ⟨s.leave, .left⟩ := by
  have hview := fun r => Session.worker?_leave (s := s) r
  have hinterpreter : s.leave.interpreter = s.interpreter.leave := Session.interpreter_leave
  have houtbox : s.leave.interpreter.outbox = s.interpreter.outbox := by
    rw [hinterpreter]
    rfl
  have hnewest : s.leave.newest = s.newest := by
    simp only [Session.newest, hinterpreter]
    rfl
  cases hc : s.interpreter.current with
  | none =>
      refine h.idle houtbox hnewest ?_ (worker_id fun r => ?_)
        (fun hne => absurd (by simp [Session.current?, hc]) hne) fun hgone => by cases hgone
      · simp [Session.current?, Interpreter.leave, hc]
      · rw [hview, hc]
        rfl
  | some run =>
      obtain ⟨w, stage, hw, -⟩ := hS.live_worker hc
      refine h.drop hc (by rw [hinterpreter]; rfl) rfl hnewest ?_ (fun r _ => ?_) (Or.inr rfl)
        (fun r => ?_) (by simp [hw]) rfl
      · exact houtbox ▸ List.Sublist.refl _
      · simp only [Session.box, houtbox]
      · rw [hview]
        split
        · exact ⟨Link.shut, rfl⟩
        · exact ⟨id, by cases s.worker? r <;> rfl⟩

/-- The next run becomes current, with a thread or without one; it has no books yet. -/
theorem begin {script : String} {moment : Moment} {ns : List Note}
    (h : Ledger H ⟨s, .cleared script moment⟩) (hS : Sound ⟨s, .cleared script moment⟩)
    (hns : Bookless ns) (hflagged : phase'.isFlagged = false) :
    Ledger (H ++ ns) ⟨s.begin script moment, phase'⟩ := by
  have hnone : s.interpreter.current = none := hS.vacant rfl
  have hnewest : (s.begin script moment).newest = s.newest + 1 := by
    simp only [Session.newest, Session.interpreter_begin]
    rfl
  have hcurrent : (s.begin script moment).current? = some (s.newest + 1) := by
    simp only [Session.current?, Session.interpreter_begin]
    rfl
  have hbox : ∀ r, (s.begin script moment).box r = s.box r := by
    intro r
    simp only [Session.box, Session.interpreter_begin]
    rfl
  have hview := fun r => Session.worker?_begin (s := s) script moment r
  have hunknown : s.worker? (s.newest + 1) = none := hS.unstarted_next
  refine ⟨?_, ?_, fun r => ?_⟩
  · simp only [Session.interpreter_begin, hns.handedOut_append]
    exact h.ordered
  · intro x hx
    rw [hnewest]
    simp only [Session.interpreter_begin, hns.handedOut_append] at hx
    exact Nat.le_succ_of_le (h.bounded x hx)
  have hbooks := h.books r
  by_cases hr : r = s.newest + 1
  · subst hr
    obtain ⟨hposted, hheard, hempty⟩ := hbooks.unstarted hunknown
    have hself : (s.begin script moment).worker? (s.newest + 1) =
        some (s.beginner script moment) := (hview _).trans (if_pos rfl)
    constructor
    · simp [hself]
    · rw [hns.posted_append]
      exact hbooks.plain
    · intro w _ hw
      cases hself.symm.trans hw
      refine ⟨?_, fun o ho => by cases ho⟩
      rw [hns.posted_append, hns.heard_append, hposted, hheard, hbox, hempty]
      rfl
    · intro o ho
      have hcollected := (List.mem_append.mp ho).resolve_right (hns.collected _ o)
      exact absurd hunknown (hbooks.collected o hcollected).started
    · intro ha
      have habandoned := (List.mem_append.mp ha).resolve_right (hns.abandoned _)
      exact absurd hunknown (hbooks.abandoned habandoned).started
    · exact fun _ hne => absurd hcurrent hne
    · simp [hflagged]
  · have hne : (s.begin script moment).current? ≠ some r := by
      rw [hcurrent]
      exact fun he => hr (Option.some.inj he).symm
    have hne' : s.current? ≠ some r := by simp [Session.current?, hnone]
    exact hbooks.congr ⟨hns.posted_append r, hns.heard_append r, hbox r, by simp [hne, hne'],
      ⟨_, (hview r).trans (if_neg hr), fun hc => absurd hc hne⟩,
      ⟨ns, rfl, hns.collected r, hns.abandoned r⟩, fun hc => absurd hc hne',
      fun hgone => by cases hgone⟩

end System.Ledger

end FilterScript
