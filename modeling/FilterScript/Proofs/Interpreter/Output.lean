/-
What a host gets to hear of its runs.

A host that polls hears of each run the messages that the run posted, in their order,
and behind them how it ended; of a run that it replaced it hears the beginning at most,
and from then on nothing.  All this is read off the books of `Ledger` at the moments
that it is about: the end of the history, the moment at which a run was replaced, and
the poll behind the moment at which its end was taken in.
-/
import FilterScript.Proofs.Interpreter.Reached

namespace FilterScript

/-- The outcome with which the host took in that a run has ended. -/
def ending (r : RunId) (H : List Note) : Option Outcome :=
  H.findSome? fun
    | .collected r' o => if r' = r then some o else none
    | _ => none

/-- With which messages the host ended a run, if it did. -/
def finish (r : RunId) (H : List Note) : List WorkerMessage :=
  match ending r H with
  | some o => o.farewell
  | none => []

/-- What is promised of the messages that polls return, in a history that led to a
system. -/
structure OutputProtocol (H : List Note) (S : System) : Prop where
  /-- The runs are heard one after another. -/
  ordered : (handedOut H).Pairwise fun x y => x.1 ≤ y.1
  /-- Of each run the host hears what it posted and how it ended, or the beginning of it. -/
  faithful : ∀ r, heard r H <+: posted r H ++ finish r H
  /-- A run ends with `done`, and an error stands directly before it. -/
  closing : ∀ r A m B, heard r H = A ++ m :: B →
    (m = .done → B = []) ∧ ∀ e, m = .error e → B = [.done]
  /-- How a run ended is what its thread reported, or that it went away without a
  report, or that there was none; and nobody hears of a run that it gave up. -/
  truly : ∀ r o, .collected r o ∈ H → o ≠ .cancelled ∧ System.Cause H S.session r o
  /-- Which runs get no thread is up to the machine. -/
  refused : ∀ r reason, .refused r reason ∈ H ↔ S.session.worker? r ≠ none ∧
    S.session.platform.refusal? r S.session.interpreter.config.stackSize = some reason
  /-- Such a run posts nothing, and it ends because it failed to start. -/
  unserved : ∀ r reason, .refused r reason ∈ H →
    posted r H = [] ∧ ∀ o, .collected r o ∈ H → o = Session.unstartedOutcome reason
  /-- Every run is current, or its end was taken in, or it was replaced before. -/
  settled : ∀ r, S.session.worker? r ≠ none → S.session.current? ≠ some r →
    (∃ o, .collected r o ∈ H) ∨ .abandoned r ∈ H
  exclusive : ∀ r o, .collected r o ∈ H → .abandoned r ∉ H
  /-- Nothing is heard of a run that was replaced, whether it was collected before or not. -/
  silent : ∀ r A B, H = A ++ .abandoned r :: B → heard r B = []
  /-- A run whose end was taken in is heard completely with the next poll. -/
  complete : ∀ r o A B batch C, H = A ++ .collected r o :: (B ++ .handed batch :: C) →
    heard r (A ++ .collected r o :: (B ++ [.handed batch])) = posted r H ++ o.farewell ∧
      heard r C = []

section Endings

variable {r : RunId} {H : List Note} {o : Outcome}

theorem collected_of_ending (h : ending r H = some o) : .collected r o ∈ H := by
  obtain ⟨n, hn, ho⟩ := List.exists_of_findSome?_eq_some h
  cases n with
  | collected r' o' =>
      by_cases hr : r' = r
      · simp only [hr, if_true, Option.some.injEq] at ho
        rw [← hr, ← ho]
        exact hr ▸ hn
      · simp [hr] at ho
  | _ => cases ho

theorem collected_of_ending_none (h : ending r H = none) : .collected r o ∉ H := by
  intro ho
  have hnone := List.findSome?_eq_none_iff.mp h _ ho
  simp at hnone

/-- Every farewell is one `done`, alone or behind one error. -/
theorem farewell_eq (o : Outcome) : o.farewell = [.done] ∨ ∃ e, o.farewell = [.error e, .done] := by
  cases o with
  | failed failure diagnostic => exact Or.inr ⟨failure.message, rfl⟩
  | _ => exact Or.inl rfl

/-- What stands at the end of a list and does not occur before is where it ends. -/
theorem eq_append_of_final {P F A B : List WorkerMessage} {m : WorkerMessage}
    (hP : ∀ x ∈ P, x.isFinal = false) (hm : m.isFinal = true) (h : A ++ m :: B = P ++ F) :
    ∃ A', F = A' ++ m :: B := by
  rcases List.append_eq_append_iff.mp h with ⟨P', hP', hF⟩ | ⟨A', -, hF⟩
  · cases P' with
    | nil => exact ⟨[], hF.symm⟩
    | cons x P' =>
        simp only [List.cons_append, List.cons.injEq] at hF
        have hplain := hP m (by simp [hP', hF.1])
        rw [hm] at hplain
        cases hplain
  · exact ⟨A', hF⟩

end Endings

namespace System

variable {H : List Note} {S : System} {r : RunId}

/-! ### At one moment -/

/-- What was heard of a run is the beginning of what it posted, or all of it with its
farewell. -/
theorem Ledger.heard_cases (h : Ledger H S) (r : RunId) :
    heard r H <+: posted r H ∨
      ∃ o, .collected r o ∈ H ∧ heard r H = posted r H ++ o.farewell := by
  have hbooks := h.books r
  by_cases hstarted : S.session.worker? r = none
  · left
    rw [(hbooks.unstarted hstarted).2.1]
    exact List.nil_prefix
  by_cases hcurrent : S.session.current? = some r
  · left
    obtain ⟨w, hw⟩ := Option.ne_none_iff_exists'.mp hstarted
    rw [(hbooks.running w hcurrent hw).balance, List.append_assoc]
    exact List.prefix_append _ _
  rcases hbooks.settled hstarted hcurrent with ⟨o, ho⟩ | ha
  · rcases (hbooks.collected o ho).balance with ⟨ms, -, hms⟩ | ⟨-, hall⟩
    · exact Or.inl (hms ▸ List.prefix_append _ _)
    · exact Or.inr ⟨o, ho, hall⟩
  · left
    rcases (hbooks.abandoned ha).silent with ⟨hc, -⟩ | ⟨-, hbeginning, -⟩
    · exact absurd hc hcurrent
    · exact hbeginning

/-- A poll that finds nothing of a run in the outbox has nothing of it to return. -/
theorem heard_hand {s : Session} (h : s.box r = []) :
    heard r (H ++ [.handed s.take.1]) = heard r H := by
  rw [heard_append]
  show heard r H ++ ofRun r (handedOut [.handed s.take.1]) = _
  have hbatch : handedOut [.handed s.take.1] = s.interpreter.outbox := List.append_nil _
  rw [hbatch, show ofRun r s.interpreter.outbox = [] from h, List.append_nil]

/-- Only a poll hands out messages, and behind it the outbox is empty. -/
theorem Moves.hand_cases {T : System} {ns : List Note} (hm : Moves S ns T) :
    (∀ batch, .handed batch ∉ ns) ∨
      ∃ s, S = ⟨s, .collecting .poll⟩ ∧ ns = [.handed s.take.1] ∧ T = ⟨s.take.2, .ready⟩ := by
  cases hm with
  | hand s => exact Or.inr ⟨s, rfl, rfl, rfl⟩
  | flag s script moment =>
      refine Or.inl fun batch hbatch => ?_
      obtain ⟨run, -, he⟩ := Session.of_mem_abandonNotes hbatch
      cases he
  | leave s =>
      refine Or.inl fun batch hbatch => ?_
      obtain ⟨run, -, he⟩ := Session.of_mem_abandonNotes hbatch
      cases he
  | fail s reason =>
      refine Or.inl fun batch hbatch => ?_
      obtain ⟨run, -, he⟩ := Session.of_mem_failNotes hbatch
      cases he
  | receive h hphase =>
      refine Or.inl fun batch hbatch => ?_
      obtain ⟨run, o, -, he⟩ := Session.of_mem_receiveNotes hbatch
      cases he
  | thread h phase =>
      refine Or.inl fun batch hbatch => ?_
      simpa using Session.of_mem_stepNotes hbatch
  | _ => exact Or.inl fun batch => by simp

theorem handedOut_eq_nil {ns : List Note} (h : ∀ batch, .handed batch ∉ ns) :
    handedOut ns = [] := by
  refine List.flatMap_eq_nil_iff.mpr fun n hn => ?_
  cases n with
  | handed batch => exact absurd hn (h batch)
  | _ => rfl

theorem heard_eq_nil {ns : List Note} (h : ∀ batch, .handed batch ∉ ns) : heard r ns = [] := by
  rw [heard, handedOut_eq_nil h, ofRun_nil]

/-! ### After a run was replaced -/

/-- Whatever was heard of a run that is abandoned is all that is ever heard of it. -/
theorem heard_of_abandoned (h : Known H S) (ha : .abandoned r ∈ H) (ms : List Move) :
    heard r (S.play ms).2 = [] := by
  have hplay := play_induction
    (P := fun H' S' => Known H' S' ∧ .abandoned r ∈ H' ∧ heard r H' = heard r H)
    (fun {H' S' ns T} hP hm => ?_) ⟨h, ha, rfl⟩ ms
  · simpa using hplay.2.2
  obtain ⟨hknown, hmem, hheard⟩ := hP
  refine ⟨hknown.moves hm, List.mem_append_left _ hmem, ?_⟩
  rcases hm.hand_cases with hnothing | ⟨s, rfl, rfl, -⟩
  · rw [heard_append, heard_eq_nil hnothing, List.append_nil, hheard]
  · -- The host polls, so it has let go of the run before, and the outbox with it.
    rcases ((hknown.ledger.books r).abandoned hmem).silent with ⟨-, hflagged⟩ | ⟨-, -, hbox | hgone⟩
    · cases hflagged
    · rw [heard_hand hbox, hheard]
    · cases hgone

/-! ### After the end of a run was taken in -/

theorem posted_mono {A B : List Note} (h : A <+: B) : posted r A <+: posted r B :=
  h.filterMap _

/-- With the next poll everything that a run posted and its farewell were heard. -/
theorem Ledger.heard_of_collected {s : Session} {o : Outcome}
    (h : Ledger H ⟨s, .ready⟩) (hpolled : s.interpreter.outbox = []) (ho : .collected r o ∈ H) :
    heard r H = posted r H ++ o.farewell := by
  rcases ((h.books r).collected o ho).balance with ⟨ms, hbox, -⟩ | ⟨-, hall⟩
  · have hempty : s.box r = [] := by simp only [Session.box, hpolled, ofRun_nil]
    rw [show s.box r = _ from hbox] at hempty
    rcases farewell_eq o with hf | ⟨e, hf⟩ <;> simp [hf] at hempty
  · exact hall

/-- A run that was heard to its end has posted nothing since, and nothing was heard of
it since. -/
theorem Ledger.eq_of_complete {A : List Note} {o : Outcome} (h : Ledger H S) (hA : A <+: H)
    (ho : .collected r o ∈ H) (hheard : heard r A = posted r A ++ o.farewell)
    (hmore : heard r A <+: heard r H) : posted r A = posted r H ∧ heard r A = heard r H := by
  have hplain := (h.books r).plain
  obtain ⟨P, hP⟩ := posted_mono (r := r) hA
  obtain ⟨m, F, hfarewell, hfinal⟩ : ∃ m F, o.farewell = m :: F ∧ m.isFinal = true := by
    rcases farewell_eq o with hf | ⟨e, hf⟩
    · exact ⟨_, _, hf, rfl⟩
    · exact ⟨_, _, hf, rfl⟩
  have hnot : m ∉ posted r H := fun hm => by
    rw [hplain m hm] at hfinal
    cases hfinal
  rw [hheard, hfarewell] at hmore
  rcases ((h.books r).collected o ho).balance with ⟨ms, -, hms⟩ | ⟨-, hall⟩
  · -- The farewell was heard, and would be among what was posted.
    refine absurd ?_ hnot
    exact (hmore.trans (hms ▸ List.prefix_append _ ms)).subset (by simp)
  · rw [hall, hfarewell, ← hP, List.append_assoc, List.prefix_append_right_inj] at hmore
    cases P with
    | nil =>
        rw [List.append_nil] at hP
        exact ⟨hP, by rw [hheard, hall, hP]⟩
    | cons x P =>
        rw [List.cons_append, List.cons_prefix_cons] at hmore
        exact absurd (by rw [← hP, hmore.1]; simp) hnot

/-! ### The protocol -/

theorem closing_of_heard_cases {A B : List WorkerMessage} {m : WorkerMessage} (h : Ledger H S)
    (hheard : heard r H = A ++ m :: B) :
    (m = .done → B = []) ∧ ∀ e, m = .error e → B = [.done] := by
  have hplain := (h.books r).plain
  have hfinal : m.isFinal = true → ∃ o A', Outcome.farewell o = A' ++ m :: B := by
    intro hm
    rcases h.heard_cases r with hbeginning | ⟨o, -, hall⟩
    · have hposted := hplain m (hbeginning.subset (by simp [hheard]))
      rw [hm] at hposted
      cases hposted
    · exact ⟨o, eq_append_of_final hplain hm (hheard.symm.trans hall)⟩
  constructor
  · rintro rfl
    obtain ⟨o, A', hA⟩ := hfinal rfl
    rcases farewell_eq o with hf | ⟨e, hf⟩ <;> rw [hf] at hA
    · cases A' <;> simp_all
    · rcases A' with - | ⟨x, - | ⟨y, A'⟩⟩ <;> simp_all
  · rintro e rfl
    obtain ⟨o, A', hA⟩ := hfinal rfl
    rcases farewell_eq o with hf | ⟨e', hf⟩ <;> rw [hf] at hA
    · cases A' <;> simp_all
    · rcases A' with - | ⟨x, - | ⟨y, A'⟩⟩ <;> simp_all

/-- The next poll behind the end of a run returns whatever was not heard of it. -/
theorem complete_play {config : Config} {platform : Platform} {ms : List Move} {r : RunId}
    {o : Outcome} {A B C : List Note} {batch : List (RunId × WorkerMessage)}
    (h : ((ofConfig config platform).play ms).2 = A ++ .collected r o :: (B ++ .handed batch :: C)) :
    heard r (A ++ .collected r o :: (B ++ [.handed batch])) =
        posted r ((ofConfig config platform).play ms).2 ++ o.farewell ∧ heard r C = [] := by
  have hcut : ((ofConfig config platform).play ms).2 =
      (A ++ .collected r o :: B) ++ .handed batch :: C := by
    simpa using h
  obtain ⟨ms₁, m, ms₂, hms, hbefore, hnote, hbehind⟩ := play_split hcut
  -- The history up to the poll ends with an empty outbox.
  have hpoll : ((ofConfig config platform).play (ms₁ ++ [m])).2 =
      A ++ .collected r o :: (B ++ [.handed batch]) := by
    simp [play_append, play, hbefore, hnote]
  obtain ⟨s, hs, hempty⟩ : ∃ s, ((ofConfig config platform).play (ms₁ ++ [m])).1 = ⟨s, .ready⟩ ∧
      s.interpreter.outbox = [] := by
    have hend : ((ofConfig config platform).play (ms₁ ++ [m])).1 =
        (((ofConfig config platform).play ms₁).1.step m).1 := by
      simp [play_append, play]
    rw [hend]
    rcases step_moves ((ofConfig config platform).play ms₁).1 m with he | hm
    · rw [he] at hnote
      cases hnote
    · rcases hm.hand_cases with hnothing | ⟨s, -, -, hT⟩
      · exact absurd (by simp [hnote]) (hnothing batch)
      · exact ⟨_, hT, rfl⟩
  have hledger := (known_play config platform (ms₁ ++ [m])).ledger
  have hheard := Ledger.heard_of_collected (r := r) (o := o) (hs ▸ hledger) hempty
    (by simp [hpoll])
  rw [hpoll] at hheard
  have hsplit : ((ofConfig config platform).play ms).2 =
      (A ++ .collected r o :: (B ++ [.handed batch])) ++ C := by
    simpa using h
  have hmore : heard r ((ofConfig config platform).play ms).2 =
      heard r (A ++ .collected r o :: (B ++ [.handed batch])) ++ heard r C := by
    rw [hsplit, heard_append]
  obtain ⟨hposted, hsame⟩ := (known_play config platform ms).ledger.eq_of_complete (r := r)
    (hsplit ▸ List.prefix_append _ C) (by simp [h]) hheard (hmore ▸ List.prefix_append _ _)
  refine ⟨hposted ▸ hheard, ?_⟩
  rw [hmore] at hsame
  exact List.self_eq_append_right.mp hsame

/-- **What a host hears of its runs keeps to the protocol, in every history of calls,
of steps of all threads and of the passing of time.** -/
theorem output_protocol (config : Config) (platform : Platform) (ms : List Move) :
    OutputProtocol ((ofConfig config platform).play ms).2 ((ofConfig config platform).play ms).1 := by
  have hreached := reached_play config platform ms
  have hledger := hreached.ledger
  refine ⟨?_, ?_, ?_, ?_, ?_, ?_, ?_, ?_, ?_, ?_⟩
  · exact hledger.ordered.sublist (List.sublist_append_left _ _)
  · intro r
    cases hending : ending r ((ofConfig config platform).play ms).2 with
    | none =>
        simp only [FilterScript.finish, hending, List.append_nil]
        rcases hledger.heard_cases r with hbeginning | ⟨o, ho, -⟩
        · exact hbeginning
        · exact absurd ho (collected_of_ending_none hending)
    | some o =>
        simp only [FilterScript.finish, hending]
        rcases ((hledger.books r).collected o (collected_of_ending hending)).balance with
          ⟨ms', -, hms⟩ | ⟨-, hall⟩
        · exact (hms ▸ List.prefix_append _ ms' : heard r _ <+: posted r _).trans
            (List.prefix_append _ _)
        · exact hall ▸ List.prefix_refl _
  · exact fun r A m B => closing_of_heard_cases hledger
  · intro r o ho
    have hbooks := (hledger.books r).collected o ho
    exact ⟨hbooks.notCancelled, hbooks.truly⟩
  · intro r reason
    rw [hreached.refused_iff, hreached.config_eq]
  · exact fun r reason hr => ⟨posted_of_isBy (hreached.not_isBy_of_refused hr),
      fun o => hreached.collected_of_refused hr⟩
  · exact fun r => (hledger.books r).settled
  · exact fun r o ho => ((hledger.books r).collected o ho).kept
  · intro r A B h
    obtain ⟨ms₁, m, ms₂, rfl, hbefore, hnote, hbehind⟩ := play_split h
    have hthere : ((ofConfig config platform).play (ms₁ ++ [m])).2 = A ++ [.abandoned r] := by
      simp [play_append, play, hbefore, hnote]
    have hsilent := heard_of_abandoned (r := r) (known_play config platform (ms₁ ++ [m]))
      (by simp [hthere]) ms₂
    rw [← hbehind]
    simpa [play_append, play] using hsilent
  · exact fun r o A B batch C h => complete_play h

end System

end FilterScript
