/-
Watching all runs of a history.

A script keeps to a monitor whatever its requests are answered with, so it does when
its thread takes its steps among those of others.  What is left to say is how the
memory of the monitor fits the notes of the history: `Monitor.Records` is a relation
between the two that a step of the run keeps, and that is all a claim on every run of
every history takes.
-/
import FilterScript.Proofs.Interpreter.Reached
import FilterScript.Proofs.Script.Monitor

namespace FilterScript

namespace System

variable {config : Config} {S T : System} {ns : List Note} {r : RunId} {w : Worker}

/-- Where the thread of a run comes from: the run has taken a step, or was left alone, or
has just begun, with the thread of its script or without one. -/
theorem Sound.origin (hS : Sound S) (hm : Moves S ns T) (hw : T.session.worker? r = some w) :
    (∃ v, S.session.worker? r = some v ∧
      (S.session.advanceRun r = some T.session ∧ ns = S.session.stepNotes r ∨
        w.thread = v.thread ∧ ∀ n ∈ ns, n.isBy r = false)) ∨
    S.session.worker? r = none ∧ (∀ n ∈ ns, n.isBy r = false) ∧
      (w.thread = .crash ∨
        ∃ script, w.thread = Session.scriptThread S.session.interpreter.config r script) := by
  cases hv : S.session.worker? r with
  | some v =>
      refine Or.inl ⟨v, rfl, ?_⟩
      rcases hS.upkeep hm hv with ⟨hs, -, hns⟩ | ⟨⟨l, hl, -⟩, hns⟩
      · exact Or.inl ⟨hs, hns⟩
      · cases hw.symm.trans hl
        exact Or.inr ⟨rfl, hns⟩
  | none =>
      rcases hm.unknown hv with hnone | ⟨rfl, script, moment, hbegins⟩
      · rw [hnone] at hw
        cases hw
      · cases hw.symm.trans hbegins.worker?
        refine Or.inr ⟨rfl, ?_, ?_⟩
        · cases hbegins with
          | served h hns hT => simp [hns]
          | refused reason h hns hT => simp [hns, Note.isBy]
        · cases hrefused : S.session.refusal? with
          | none => exact Or.inr ⟨script, Session.thread_beginner hrefused script moment⟩
          | some reason =>
              exact Or.inl (Session.thread_beginner_of_refused hrefused script moment)

end System

namespace Monitor

variable {μ : Type}

/-- What a monitor remembers of a run fits the notes of a history. -/
structure Records (M : Monitor μ) (start : μ) (R : RunId → List Note → μ → Prop) : Prop where
  fresh : ∀ id limit, M.Inv start (Context.fresh id limit)
  begins : ∀ {r H}, (∀ n ∈ H, n.isBy r = false) → R r H start
  reply : ∀ {r H u} {q : Request} (x : q.Reply), R r H u → M.protocol.Allows u q →
    R r (H ++ Note.ofReply r q x) (M.protocol.after u q x)
  other : ∀ {r H ns u}, R r H u → (∀ n ∈ ns, n.isBy r = false) → R r (H ++ ns) u

variable {M : Monitor μ} {start : μ} {R : RunId → List Note → μ → Prop} {config : Config}
  {H : List Note} {S : System} {r : RunId} {w : Worker}

/-- **Every run of every history keeps to the monitor**, which remembers of it what fits
the notes. -/
theorem Records.watched (h : M.Records start R) (hS : System.Reached config H S)
    (hw : S.session.worker? r = some w) :
    ∃ u, R r H u ∧ w.thread.Follows M.protocol (fun _ _ => True) u := by
  refine hS.induct (P := fun H S => ∀ r w, S.session.worker? r = some w →
    ∃ u, R r H u ∧ w.thread.Follows M.protocol (fun _ _ => True) u) ?_ ?_ r w hw
  · intro platform r w hw
    cases hw
  · intro H S ns T hS hP hm r w hw
    rcases hS.sound.origin hm hw with ⟨v, hv, ⟨hs, rfl⟩ | ⟨hthread, hns⟩⟩ | ⟨hv, hns, hthread⟩
    · obtain ⟨u, hR, hfollows⟩ := hP r v hv
      obtain ⟨v', t, l, hv', hstep, -, hview⟩ := Session.advanceRun_some hs
      cases hv.symm.trans hv'
      cases hw.symm.trans ((hview r).trans (if_pos rfl))
      rcases Thread.step_cases hstep with ⟨hspin, rfl, -, -⟩ | ⟨q, k, x, hask, rfl, ha⟩
      · refine ⟨u, ?_, hspin ▸ hfollows⟩
        simpa only [Session.stepNotes, hv, hspin, List.append_nil] using hR
      · rw [hask] at hfollows
        rw [Session.stepNotes_of_answer hv hask ha]
        exact ⟨_, h.reply x hR hfollows.of_ask.1, hfollows.of_ask.2 x⟩
    · obtain ⟨u, hR, hfollows⟩ := hP r v hv
      exact ⟨u, h.other hR hns, hthread ▸ hfollows⟩
    · refine ⟨start, h.other (h.begins fun n hn => ?_) hns, ?_⟩
      · cases hby : n.isBy r with
        | false => rfl
        | true => exact absurd hv (hS.started hn hby)
      · rcases hthread with hcrash | ⟨script, hthread⟩
        · exact hcrash ▸ .crash (M.mayStop start)
        · exact hthread ▸ M.scriptThread_follows _ r script (h.fresh _ _)

end Monitor

end FilterScript
