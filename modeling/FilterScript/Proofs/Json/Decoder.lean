/-
Decoders on documents of the right form.

A decoder looks at a document in the order of its text and may refuse it at many places.
On a document that was written for it it does not, and then it comes down to its parts:
a record to its fields, a tagged choice to its content.
-/
import FilterScript.Proofs.Json.Tree

namespace FilterScript.Json

variable {α : Type} {source : Source} {fields : Fields} {other : Json → Decoded Unit}
  {seen : List String} {ms : Members} {result : Decoded Unit} {name : String} {v : Json} {a : α}

theorem ok_bind {β : Type} (a : α) (f : α → Decoded β) : (Except.ok a >>= f) = f a := rfl

theorem error_bind {β : Type} (e : Fault) (f : α → Decoded β) :
    ((Except.error e : Decoded α) >>= f) = .error e := rfl

@[simp] theorem map_ok {β : Type} (f : α → β) (a : α) :
    f <$> (Except.ok a : Decoded α) = .ok (f a) := rfl

@[simp] theorem map_error {β : Type} (f : α → β) (e : Fault) :
    f <$> (Except.error e : Decoded α) = .error e := rfl

/-- A document that is decoded to a value under some condition, and refused without it, is decoded
from its text to that value under that condition, and to no other value. -/
theorem decode_render_iff {decoder : Json → Decoded α} {j : Json} {P : Prop} {b : α} (h : Readable j)
    (hok : P → decoder (reread j) = .ok a) (hno : ¬ P → ∃ e, decoder (reread j) = .error e) :
    decode decoder j.render = .ok b ↔ b = a ∧ P := by
  rw [decode_render decoder h]
  by_cases hP : P
  · rw [hok hP, Except.ok.injEq, eq_comm, and_iff_left hP]
  · obtain ⟨e, he⟩ := hno hP
    simp [he, hP]

/-! ### Parts read back -/

@[simp] theorem reread_string (s : String) : reread (.string s) = .string s := rfl

@[simp] theorem reread_bool (b : Bool) : reread (.bool b) = .bool b := rfl

@[simp] theorem reread_list (js : List Json) : reread (.list js) = .list (rereadItems js) := rfl

@[simp] theorem reread_record (ms : Members) :
    reread (.record ms) = .record (rereadMembers ms) := rfl

theorem toNat_le_largest64 (n : UInt32) : n.toNat ≤ largest64 := by
  have := n.toNat_lt
  simp only [largest64]
  omega

@[simp] theorem reread_word (n : UInt32) : reread (.nat n.toNat) = .nat n.toNat :=
  reread_nat (toNat_le_largest64 n)

theorem readable_word (n : UInt32) : Readable (.nat n.toNat) :=
  readable_nat (toNat_le_largest64 n)

theorem asNat_word (n : UInt32) : asNat largest32 (.nat n.toNat) = .ok n.toNat := by
  have := n.toNat_lt
  exact if_pos (by simp only [largest32]; omega)

theorem asWord32_nat (n : UInt32) : asWord32 (.nat n.toNat) = .ok n := by
  rw [asWord32, asNat_word, ok_bind, UInt32.ofNat_toNat]
  rfl

theorem word64_le (n : UInt64) : n.toNat ≤ largest64 := by
  have := n.toNat_lt
  simp only [largest64]
  omega

@[simp] theorem reread_word64 (n : UInt64) : reread (.nat n.toNat) = .nat n.toNat :=
  reread_nat (word64_le n)

theorem readable_word64 (n : UInt64) : Readable (.nat n.toNat) :=
  readable_nat (word64_le n)

theorem asWord64_nat (n : UInt64) : asWord64 (.nat n.toNat) = .ok n := by
  have hn : asNat largest64 (.nat n.toNat) = .ok n.toNat := if_pos (word64_le n)
  rw [asWord64, hn, ok_bind, UInt64.ofNat_toNat]
  rfl

mutual

/-- Nothing stops a decoder that passes over a value. -/
theorem skip_reread : (j : Json) → Readable j → skip (reread j) = .ok ()
  | .null, _ => rfl
  | .bool _, _ => rfl
  | .number n, h => by
      obtain ⟨m, s, hs, -⟩ := h
      rw [reread, hs]
      rfl
  | .string _, _ => rfl
  | .array items _, h => by
      show (skipItems (rereadItems items) >>= fun _ => atEnd none) = _
      rw [skipItems_reread items h]
      rfl
  | .object members _, h => by
      show (skipMembers (rereadMembers members) >>= fun _ => atEnd none) = _
      rw [skipMembers_reread members h]
      rfl

theorem skipItems_reread : (js : List Json) → ReadableItems js → skipItems (rereadItems js) = .ok ()
  | [], _ => rfl
  | j :: js, h => by
      rw [rereadItems, skipItems, skip_reread j h.1, ok_bind, skipItems_reread js h.2]

theorem skipMembers_reread : (ms : List (String × Json)) → ReadableMembers ms →
    skipMembers (rereadMembers ms) = .ok ()
  | [], _ => rfl
  | (_, j) :: ms, h => by
      rw [rereadMembers, skipMembers, skip_reread j h.1, ok_bind, skipMembers_reread ms h.2]

end

/-! ### Records -/

theorem checking_ok {decode : Json → Decoded α} (h : decode v = .ok a) :
    checking decode v = .ok () := by
  rw [checking, h, ok_bind]
  rfl

/-- A field is checked, and the walk goes on. -/
theorem scan_field {check : Json → Decoded Unit} (hname : fields.lookup name = some check)
    (hseen : seen.contains name = false) (hv : check v = .ok ())
    (hrest : scan fields other (name :: seen) ms = result) :
    scan fields other seen ((name, v) :: ms) = result := by
  rw [scan, hname]
  simp only [hseen, Bool.false_eq_true, if_false, hv, ok_bind, hrest]

/-- A member that is no field is left to `other`. -/
theorem scan_other (hname : fields.lookup name = none) (hv : other v = .ok ())
    (hrest : scan fields other seen ms = result) :
    scan fields other seen ((name, v) :: ms) = result := by
  rw [scan, hname]
  simp only [hv, ok_bind, hrest]

/-- A field whose value is refused ends the walk. -/
theorem scan_refused {check : Json → Decoded Unit} {e : Fault}
    (hname : fields.lookup name = some check) (hseen : seen.contains name = false)
    (hv : check v = .error e) : scan fields other seen ((name, v) :: ms) = .error e := by
  rw [scan, hname]
  simp only [hseen, Bool.false_eq_true, if_false, hv, error_bind]

theorem asObject_record (fields : Fields) (other : Json → Decoded Unit) (ms : Members)
    (h : scan fields other [] ms = .ok ()) :
    asObject fields other (.record ms) = .ok ms := by
  simp only [asObject, record, h, ok_bind]
  rfl

theorem asRecord_record (source : Source) (fields : Fields) (ms : Members)
    (h : scan fields skip [] ms = .ok ()) :
    asRecord source fields (.record ms) = .ok ms := by
  simp only [asRecord, record, h, ok_bind]
  rfl

@[simp] theorem get_self {decode : Json → Decoded α} :
    Members.get ((name, v) :: ms) name decode = decode v := by
  simp [Members.get]

@[simp] theorem get_next {decode : Json → Decoded α} {other : String} (h : name ≠ other) :
    Members.get ((other, v) :: ms) name decode = ms.get name decode := by
  have hne : (name == other) = false := by simpa using h
  simp only [Members.get, List.lookup_cons, hne]

/-! ### Choices -/

theorem asName_string {named : String → Option α} (h : named name = some a) :
    asName source named (.string name) = .ok a := by
  simp only [asName, asChoice, h]

theorem asChoice_choice {bare : String → Decoded α} {tagged : String → Json → Decoded α} :
    asChoice .text bare tagged (.choice name v) = tagged name v := by
  simp only [asChoice, choice, record]
  cases tagged name v <;> rfl

/-- A choice whose content stands behind its name. -/
theorem asTagged_pair {κ : Type} {tag content : String} {kind : Json → Decoded κ}
    {body : κ → Source → Option Json → Decoded α} {k : κ} (hne : content ≠ tag)
    (hkind : kind (.string name) = .ok k) :
    asTagged tag content kind body (.record [(tag, .string name), (content, v)]) =
      body k .text (some v) := by
  simp only [asTagged, record, nextOf, hkind, hne, ok_bind, pure, Except.pure, true_or, or_true,
    if_true, if_false]
  cases body k .text (some v) <;> rfl

end FilterScript.Json
