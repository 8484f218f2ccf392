/-
What the host says, on the wire.

A message names its kind, so the decoder is sent to the right case before it looks at a value.  The
value of a widget does not: it is told by its form alone, a truth value, a number or a string, and
no two kinds have one form.  Both come back as they were, or not at all: the only document in which
something is lost is that of a number that is not finite, and it is refused.

Of numbers that are finite it is assumed that their texts are read back.
-/
import FilterScript.Interpreter.Session
import FilterScript.Proofs.Message

namespace FilterScript

open Json

/-! ### Values -/

namespace Widget.Value

/-- The numbers of a value. -/
def singles : Value → List Single
  | slider x => [x]
  | _ => []

variable {v : Value}

theorem readable_toJson (h : ∀ x ∈ v.singles, x.isFinite = true → ReadsBack x) :
    Readable v.toJson := by
  cases v with
  | checkbox b => trivial
  | slider x => exact readable_single (h x (by simp [singles]))
  | radio s => trivial

/-- **A value is decoded from its own document.** -/
theorem ofJson_reread (h : ∀ x ∈ v.singles, ReadsBack x) : ofJson (reread v.toJson) = .ok v := by
  cases v with
  | checkbox b => rfl
  | slider x =>
      have hread := h x (by simp [singles])
      have hhold : hold deepestBuffer (reread (single x)) = .ok () := hold_single fun _ => hread
      obtain ⟨n, hn⟩ := number_of_asSingle hread.asSingle
      have hsingle := hread.asSingle
      simp only [ofJson, toJson, hhold, ok_bind]
      rw [hn] at hsingle ⊢
      simp only [hsingle, ok_bind]
      rfl
  | radio s => rfl

/-- A number that is not finite is written as nothing, which is no value. -/
theorem ofJson_reread_infinite {x : Single} (h : ¬ x.isFinite) :
    ofJson (reread (slider x).toJson) = .error .mismatch := by
  rw [toJson, single, if_neg h]
  rfl

/-- **A value is decoded from its own text to itself**, kind and all, unless its number is not
finite. -/
theorem decode_render_iff (h : ∀ x ∈ v.singles, x.isFinite = true → ReadsBack x) {w : Value} :
    decode ofJson v.toJson.render = .ok w ↔ w = v ∧ ∀ x ∈ v.singles, x.isFinite = true := by
  refine Json.decode_render_iff (readable_toJson h)
    (fun hfinite => ofJson_reread fun x hx => h x hx (hfinite x hx)) fun hinfinite => ?_
  cases v with
  | slider x => exact ⟨_, ofJson_reread_infinite (by simpa [singles] using hinfinite)⟩
  | _ => simp [singles] at hinfinite

/-- The string of a truth value stays an option, and the string of a number too. -/
example : ["true", "0.5", "null"].map (fun s => (decode ofJson (radio s).toJson.render).toOption) =
    [some (radio "true"), some (radio "0.5"), some (radio "null")] := by
  decide +kernel

end Widget.Value

/-! ### Messages -/

namespace HostMessage

/-- The numbers of a message. -/
def singles : HostMessage → List Single
  | slider _ value => [value]
  | _ => []

/-- The message that reports a value for a widget. -/
def report (name : String) : Widget.Value → HostMessage
  | .checkbox b => checkbox name b
  | .slider x => slider name x
  | .radio s => radio name s

/-- A message carries an update just if it is the report of it. -/
theorem update?_eq_some_iff {m : HostMessage} {name : String} {v : Widget.Value} :
    m.update? = some (name, v) ↔ m = report name v := by
  cases m <;> cases v <;> simp [update?, report]

theorem singles_report (name : String) (v : Widget.Value) : (report name v).singles = v.singles := by
  cases v <;> rfl

section Reports

variable {α : Type} {value : Json → Decoded α} {make : String → α → HostMessage} {name : String}
  {j : Json}

/-- The content of a report, in the order in which it is written. -/
theorem asReport_named {a : α} (h : value j = .ok a) :
    (do let m ← asObject [("name", checking asString), ("value", checking value)] skip
          (.record [("name", .string name), ("value", j)])
        return make (← m.get "name" asString) (← m.get "value" value) : Decoded HostMessage) =
      .ok (make name a) := by
  have hobject := asObject_record
    [("name", checking asString), ("value", checking value)] skip
    [("name", .string name), ("value", j)]
    (scan_field rfl rfl rfl (scan_field rfl rfl (checking_ok h) rfl))
  simp [hobject, ok_bind, asString, h]

theorem asReport_refused {e : Fault} (h : checking value j = .error e) :
    (do let m ← asObject [("name", checking asString), ("value", checking value)] skip
          (.record [("name", .string name), ("value", j)])
        return make (← m.get "name" asString) (← m.get "value" value) : Decoded HostMessage) =
      .error e := by
  have hscan : scan [("name", checking asString), ("value", checking value)] skip []
      [("name", .string name), ("value", j)] = .error e :=
    scan_field rfl rfl rfl (scan_refused rfl rfl h)
  simp only [asObject, record, hscan, error_bind]

end Reports

variable {m : HostMessage}

theorem readable_toJson (h : ∀ x ∈ m.singles, x.isFinite = true → ReadsBack x) :
    Readable m.toJson := by
  cases m with
  | slider name value =>
      exact ⟨trivial, ⟨trivial, readable_single (h value (by simp [singles])), trivial⟩, trivial⟩
  | frame => exact ⟨trivial, trivial⟩
  | clearWidgets => exact ⟨trivial, trivial⟩
  | script source => exact ⟨trivial, trivial, trivial⟩
  | checkbox name value => exact ⟨trivial, ⟨trivial, trivial, trivial⟩, trivial⟩
  | radio name value => exact ⟨trivial, ⟨trivial, trivial, trivial⟩, trivial⟩

/-- **A message of the host is decoded from its own document.** -/
theorem ofJson_reread (h : ∀ x ∈ m.singles, ReadsBack x) : ofJson (reread m.toJson) = .ok m := by
  cases m with
  | script source => exact (asTagged_pair (by decide) (k := .script) rfl).trans rfl
  | frame => rfl
  | checkbox name value =>
      refine (asTagged_pair (by decide) (k := .checkbox) rfl).trans ?_
      exact asReport_named (j := .bool value) rfl
  | radio name value =>
      refine (asTagged_pair (by decide) (k := .radio) rfl).trans ?_
      exact asReport_named (j := .string value) rfl
  | slider name value =>
      have hvalue := (h value (by simp [singles])).asSingle
      refine (asTagged_pair (by decide) (k := .slider) rfl).trans ?_
      exact asReport_named hvalue
  | clearWidgets => rfl

/-- A report of a number that is not finite is refused. -/
theorem ofJson_reread_infinite {name : String} {x : Single} (h : ¬ x.isFinite) :
    ofJson (reread (slider name x).toJson) = .error .mismatch := by
  have hnull : checking asSingle (reread (single x)) = .error .mismatch := by
    rw [single, if_neg h]
    rfl
  refine (asTagged_pair (by decide) (k := .slider) rfl).trans ?_
  exact asReport_refused hnull

/-- **A message of the host is decoded from its own text to itself**, unless it reports a number that
is not finite. -/
theorem decode_render_iff (h : ∀ x ∈ m.singles, x.isFinite = true → ReadsBack x)
    {n : HostMessage} :
    decode ofJson m.toJson.render = .ok n ↔ n = m ∧ ∀ x ∈ m.singles, x.isFinite = true := by
  refine Json.decode_render_iff (readable_toJson h)
    (fun hfinite => ofJson_reread fun x hx => h x hx (hfinite x hx)) fun hinfinite => ?_
  cases m with
  | slider name x => exact ⟨_, ofJson_reread_infinite (by simpa [singles] using hinfinite)⟩
  | _ => simp [singles] at hinfinite

end HostMessage

/-- A report is taken in as the change of the registry that it reports. -/
theorem Session.handle_report (s : Session) (name : String) (v : Widget.Value) :
    s.handle (.report name v) = s.onWidgets fun r => r.update name v := by
  cases v <;> rfl

/-- **What the host says survives the wire.**  The text of a message is decoded to the message and to
nothing else, and the text of a value, which bears no mark of its kind, to the value; the only texts
that are refused are those of numbers that are not finite.  Reported for a widget and handled at the
other end, a value changes the registry as it would have without the wire, and nothing besides. -/
theorem HostMessage.survives_wire {m : HostMessage} {v : Widget.Value}
    (hm : ∀ x ∈ m.singles, x.isFinite = true → ReadsBack x)
    (hv : ∀ x ∈ v.singles, x.isFinite = true → ReadsBack x) :
    (∀ n, decode ofJson m.toJson.render = .ok n ↔
        n = m ∧ ∀ x ∈ m.singles, x.isFinite = true) ∧
      (∀ w, decode Widget.Value.ofJson v.toJson.render = .ok w ↔
        w = v ∧ ∀ x ∈ v.singles, x.isFinite = true) ∧
      ∀ name,
        ((∃ n, decode ofJson (report name v).toJson.render = .ok n) ↔
          ∀ x ∈ v.singles, x.isFinite = true) ∧
        ∀ n, decode ofJson (report name v).toJson.render = .ok n →
          n.update? = some (name, v) ∧
            ∀ s : Session, s.handle n = s.onWidgets fun r => r.update name v := by
  refine ⟨fun n => decode_render_iff hm, fun w => Widget.Value.decode_render_iff hv,
    fun name => ?_⟩
  have hreport : ∀ n, decode ofJson (report name v).toJson.render = .ok n ↔
      n = report name v ∧ ∀ x ∈ v.singles, x.isFinite = true := by
    intro n
    rw [← singles_report name v] at hv ⊢
    exact decode_render_iff hv
  refine ⟨?_, fun n hn => ?_⟩
  · simp only [hreport, exists_eq_left]
  · obtain ⟨rfl, -⟩ := (hreport n).mp hn
    exact ⟨update?_eq_some_iff.mpr rfl, fun s => s.handle_report name v⟩

theorem HostMessage.survives_wire_tenth :
    decode ofJson (slider "a\n\"" (.ofRatio false 1 10)).toJson.render =
        .ok (slider "a\n\"" (.ofRatio false 1 10)) ∧
      decode Widget.Value.ofJson (Widget.Value.slider (.ofRatio false 1 2)).toJson.render =
        .ok (.slider (.ofRatio false 1 2)) ∧
      ∃ n, decode ofJson (report "b" (.slider (.ofRatio false 1 2))).toJson.render = .ok n ∧
        ∀ s : Session,
          s.handle n = s.onWidgets fun r => r.update "b" (.slider (.ofRatio false 1 2)) := by
  obtain ⟨hmessage, hvalue, hreport⟩ := survives_wire
    (m := slider "a\n\"" (.ofRatio false 1 10)) (v := .slider (.ofRatio false 1 2))
    (by decide +kernel) (by decide +kernel)
  have hfinite : ∀ x ∈ (Widget.Value.slider (.ofRatio false 1 2)).singles, x.isFinite = true := by
    decide +kernel
  obtain ⟨hsome, hhandled⟩ := hreport "b"
  obtain ⟨n, hn⟩ := hsome.mpr hfinite
  exact ⟨(hmessage _).mpr ⟨rfl, by decide +kernel⟩, (hvalue _).mpr ⟨rfl, hfinite⟩, n, hn,
    (hhandled n hn).2⟩

end FilterScript
