/-
How a failure is reported.

An error is a fault inside the calls that it came through.  What kind of failure it is shows in the
fault alone, and for a refused argument and a thrown string so does what is said of it; the calls
appear only in the text of all others.  `Error.inside` builds an error up from its fault, and every
error is built that way, so nothing is left out when it is said what becomes of those.

The host gets a failure in two ways, as the text of a message and as a diagnostic.  `Failure.Agrees`
is what ties them together.  It is shown where the two are made, and carried from there to the end
that the host takes in: of that the books know that a thread reported it or that the thread was lost.
-/
import FilterScript.Proofs.Interpreter.Ends

namespace FilterScript

namespace Script

/-! ### Errors inside calls -/

namespace Error

/-- An error inside some calls, the innermost in front. -/
def inside (calls : List (String × Position)) (e : Error) : Error :=
  calls.foldl (fun e call => .inCall call.1 e call.2) e

@[simp] theorem fault_inside (calls : List (String × Position)) (e : Error) :
    (e.inside calls).fault = e.fault := by
  induction calls generalizing e with
  | nil => rfl
  | cons call calls ih => exact ih (.inCall call.1 e call.2)

/-- Every error is a fault at a place, inside some calls. -/
theorem exists_inside : (e : Error) → ∃ calls fault pos, e = inside calls (.at fault pos)
  | .at fault pos => ⟨[], fault, pos, rfl⟩
  | .inCall f e pos => by
      obtain ⟨calls, fault, place, rfl⟩ := exists_inside e
      refine ⟨calls ++ [(f, pos)], fault, place, ?_⟩
      rw [inside, inside, List.foldl_append]
      rfl

/-- What is reported of an error that began with a fault, by a run that was not replaced. -/
inductive Reported (e : Error) : Fault → Outcome → Prop where
  | terminated : Reported e .terminated .cancelled
  | refused (text : String) :
      Reported e (.thrown (.refusal text)) (.failed (.invalidArgument text) e.diagnostic)
  | thrown (text : String) :
      Reported e (.thrown (.string text)) (.failed (.runtime text) e.diagnostic)
  | other {fault : Fault} (hterminated : fault ≠ .terminated)
      (hrefused : ∀ text, fault ≠ .thrown (.refusal text))
      (hthrown : ∀ text, fault ≠ .thrown (.string text)) :
      Reported e fault (.failed (.runtime e.text) e.diagnostic)

theorem reported_outcome (e : Error) : e.Reported e.fault (e.outcome false) := by
  unfold outcome failure
  split
  next hfault =>
    rw [hfault]
    exact .terminated
  next hterminated =>
    rw [if_neg Bool.false_ne_true]
    split
    next text hfault =>
      rw [hfault]
      exact .refused text
    next text hfault =>
      rw [hfault]
      exact .thrown text
    next hrefused hthrown => exact .other hterminated hrefused hthrown

/-- A string that was thrown is reported as it is from inside two calls, and a number with both. -/
example :
    ((inside [("f", .none), ("g", .none)] (.at (.thrown (.string "boom")) .none)).failure,
      (inside [("f", .none), ("g", .none)] (.at (.thrown (.int 7)) .none)).failure) =
    (.runtime "boom",
      .runtime "Runtime error: 7\nin call to function 'f'\nin call to function 'g'") := by
  decide +kernel

end Error

end Script

/-! ### What the host is told and what is kept -/

/-- A diagnostic says of a failure what the host is told. -/
structure Failure.Agrees (f : Failure) (d : Diagnostic) : Prop where
  message : d.message = f.message
  kind : d.kind = f.kind
  phase : d.phase = .compile ↔ ∃ text, f = .compile text

theorem Script.ParseError.agrees (e : ParseError) : e.failure.Agrees e.diagnostic where
  message := rfl
  kind := rfl
  phase := ⟨fun _ => ⟨e.text, rfl⟩, fun _ => rfl⟩

/-- An error of a script that runs is none of its text. -/
theorem Script.Error.failure_ne_compile (e : Error) (text : String) : e.failure ≠ .compile text := by
  unfold failure
  split <;> exact nofun

theorem Script.Error.agrees (e : Error) : e.failure.Agrees e.diagnostic where
  message := rfl
  kind := rfl
  phase := by
    refine ⟨fun h => ?_, fun ⟨text, htext⟩ => absurd htext (e.failure_ne_compile text)⟩
    cases h

/-- What the host itself says of a run that was lost, or that got no thread. -/
theorem agrees_internal (text : String) : (Failure.runtime text).Agrees (.internal text) := by
  refine ⟨rfl, rfl, fun h => ?_, fun ⟨text, h⟩ => ?_⟩ <;> cases h

namespace Script

variable {config : Config} {id : RunId} {script : String} {xs : List Exchange} {c : Context}

/-- However a run fails, the diagnostic agrees with the failure. -/
theorem agrees_of_run {f : Failure} {d : Diagnostic}
    (h : (run config id script).Goes xs (.done (.failed f d, c))) : f.Agrees d := by
  obtain ⟨ys, hfinishes, -⟩ := finishes_of_run h nofun
  cases hfinishes with
  | unreadable => exact ParseError.agrees _
  | failed => exact Error.agrees _

/-- A script that ends in an error looks whether it was replaced, and answers by that. -/
theorem run_of_failed {p : Program} {e : Error} (h : parse config.limits script = .ok p)
    (hrun : (p.simplify.run config.limits (.fresh id config.logLimitPerFrame.toNat)).Goes xs
      (.done (.failed e, c))) (replaced : Bool) :
    (run config id script).Goes (xs ++ [⟨.isCancelled, replaced⟩])
      (.done (e.outcome replaced, c)) := by
  unfold run
  rw [h]
  exact (hrun.bind _).append (.ask (.stay _))

end Script

/-- What a computation has answered it answers on these replies always. -/
theorem Thread.Goes.answer_unique {α : Type} {t : Thread α} {xs : List Exchange} {a b : α}
    (h : t.Goes xs (.done a)) (h' : t.Goes xs (.done b)) : a = b := by
  have hrest : (Thread.done a).Goes [] (.done b) := h.rest ((List.append_nil xs).symm ▸ h')
  exact (Thread.done.inj hrest.of_done.2).symm

namespace System

open Script

/-- Nor does the diagnostic of an end that the host takes in say anything else. -/
theorem Reached.agrees {config : Config} {H : List Note} {S : System} {r : RunId} {f : Failure}
    {d : Diagnostic} (hS : Reached config H S) (h : .collected r (.failed f d) ∈ H) :
    f.Agrees d := by
  cases ((hS.ledger.books r).collected _ h).truly with
  | reported hreported =>
      obtain ⟨platform, ms, hms⟩ := hS
      rw [← show ((ofConfig config platform).play ms).2 = H by rw [hms]] at hreported
      obtain ⟨script, xs, c, -, -, hrun, -⟩ := reported_cases hreported
      exact agrees_of_run hrun
  | lost hlost =>
      cases hlost
      exact agrees_internal _
  | refused reason hrefused =>
      cases hrefused
      exact agrees_internal _

/-- What is promised of the report of a failure. -/
structure Candid (config : Config) : Prop where
  /-- A script that cannot be read is reported with the text of what is wrong with it. -/
  unreadable : ∀ id script e, parse config.limits script = .error e →
    ∀ xs o c, (Script.run config id script).Goes xs (.done (o, c)) ↔
      xs = [] ∧ o = .failed (.compile e.text) e.diagnostic ∧
        c = .fresh id config.logLimitPerFrame.toNat
  /-- Every error is a fault inside some calls. -/
  built : ∀ e : Error, ∃ calls fault pos, e = .inside calls (.at fault pos)
  /-- A fault is reported as what it is, inside however many calls, by a run that looks and sees
  that it was not replaced. -/
  alike : ∀ id script p calls fault pos xs c, parse config.limits script = .ok p →
    (p.simplify.run config.limits (.fresh id config.logLimitPerFrame.toNat)).Goes xs
      (.done (.failed (.inside calls (.at fault pos)), c)) →
    ∃ o, (Error.inside calls (.at fault pos)).Reported fault o ∧ ∀ o' c',
      (Script.run config id script).Goes (xs ++ [⟨.isCancelled, false⟩]) (.done (o', c')) ↔
        o' = o ∧ c' = c
  /-- However a run fails, the diagnostic agrees with the failure. -/
  agrees : ∀ id script xs f d c, (Script.run config id script).Goes xs (.done (.failed f d, c)) →
    f.Agrees d
  /-- So does the one of every failure that the host takes in, and the next poll brings the message
  of the diagnostic, once and in front of the farewell. -/
  received : ∀ platform ms r f d A B batch C,
    ((ofConfig config platform).play ms).2 =
      A ++ .collected r (.failed f d) :: (B ++ .handed batch :: C) →
    f.Agrees d ∧ (∀ text, .error text ∉ posted r ((ofConfig config platform).play ms).2) ∧
      heard r ((ofConfig config platform).play ms).2 =
        posted r ((ofConfig config platform).play ms).2 ++ [.error d.message, .done]

/-- **A failure is reported alike at any depth of calls, and the message and the diagnostic of it
agree**, whatever the script is and whatever the host and the threads of all runs do. -/
theorem candid_reports (config : Config) : Candid config where
  unreadable id script e he xs o c := by
    unfold Script.run
    rw [he]
    refine ⟨fun h => ?_, fun ⟨hxs, ho, hc⟩ => hxs ▸ ho ▸ hc ▸ .stay _⟩
    obtain ⟨hxs, hdone⟩ := h.of_done
    cases hdone
    exact ⟨hxs, rfl, rfl⟩
  built := Error.exists_inside
  alike id script p calls fault pos xs c hp hrun := by
    have hfailed := run_of_failed hp hrun false
    have hreported := Error.reported_outcome (.inside calls (.at fault pos))
    rw [Error.fault_inside] at hreported
    refine ⟨_, hreported, fun o' c' => ⟨fun h => ?_, fun ⟨ho, hc⟩ => ho ▸ hc ▸ hfailed⟩⟩
    exact Prod.mk.inj (h.answer_unique hfailed)
  agrees id script xs f d c h := agrees_of_run h
  received platform ms r f d A B batch C h := by
    have hcollected : .collected r (.failed f d) ∈ ((ofConfig config platform).play ms).2 := by
      rw [h]
      exact List.mem_append_right A List.mem_cons_self
    have hagrees := (reached_play config platform ms).agrees hcollected
    obtain ⟨hheard, hnothing⟩ := complete_play h
    refine ⟨hagrees, fun text htext => ?_, ?_⟩
    · have hplain := ((known_play config platform ms).ledger.books r).plain _ htext
      cases hplain
    · have hsplit : ((ofConfig config platform).play ms).2 =
          (A ++ .collected r (.failed f d) :: (B ++ [.handed batch])) ++ C := by
        simpa using h
      calc heard r ((ofConfig config platform).play ms).2
          = heard r (A ++ .collected r (.failed f d) :: (B ++ [.handed batch])) ++ heard r C := by
            rw [hsplit, heard_append]
        _ = posted r ((ofConfig config platform).play ms).2 ++ [.error d.message, .done] := by
            rw [hheard, hnothing, List.append_nil, hagrees.message]
            rfl

end System

end FilterScript
