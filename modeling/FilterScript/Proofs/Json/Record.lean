/-
Records with fields left out.

A record is read from an object in two walks: the first checks each member under its name and
refuses a field that is given twice, the second looks up the fields one by one.  `Slots` says what
the object gives, field by field: a value, or nothing.  An object fills the slots in any order and
with other members between the fields; for either walk this is all that counts, so what is left out
comes out as its default and what is given as its value, whichever fields these are.
-/
import FilterScript.Proofs.Json.Decoder
import Mathlib.Data.List.Forall2
import Mathlib.Data.List.Nodup

namespace FilterScript.Json

/-- The fields of a record, each with the value that is given for it, if one is. -/
abbrev Slots := List (String × Option Json)

/-- The members of an object give the fields of a record as its slots say. -/
structure Fills (slots : Slots) (ms : Members) : Prop where
  /-- A field has the value of its slot, or is left out. -/
  given : ∀ slot ∈ slots, ms.lookup slot.1 = slot.2
  /-- No field is given twice. -/
  once : ∀ slot ∈ slots, (ms.map Prod.fst).count slot.1 ≤ 1
  /-- Members of other names are whole. -/
  others : ∀ m ∈ ms, (∀ slot ∈ slots, slot.1 ≠ m.1) → skip m.2 = .ok ()

variable {α : Type} {slots : Slots} {fields : Fields} {other : Json → Decoded Unit}
  {seen : List String} {ms : Members} {name : String} {v : Json}

/-! ### The first walk -/

/-- A member whose name stands nowhere else is what is found under the name. -/
theorem lookup_of_count_le_one (h : (ms.map Prod.fst).count name ≤ 1) (hm : (name, v) ∈ ms) :
    ms.lookup name = some v := by
  induction ms with
  | nil => cases hm
  | cons m ms ih =>
      obtain ⟨k, w⟩ := m
      rcases List.mem_cons.mp hm with heq | hrest
      · cases heq
        exact List.lookup_cons_self
      · have hmem : name ∈ ms.map Prod.fst := List.mem_map_of_mem hrest
        have hpos := List.count_pos_iff.mpr hmem
        by_cases hk : k = name
        · subst hk
          rw [List.map_cons, List.count_cons_self] at h
          omega
        · rw [List.map_cons, List.count_cons_of_ne hk] at h
          rw [List.lookup_cons, beq_false_of_ne (Ne.symm hk)]
          exact ih h hrest

/-- The walk gets through if no field stands twice and every member passes its own check. -/
theorem scan_of_count_le_one
    (honce : ∀ name check, fields.lookup name = some check →
      (ms.map Prod.fst).count name + seen.count name ≤ 1)
    (hms : ∀ m ∈ ms, (fields.lookup m.1).getD other m.2 = .ok ()) :
    scan fields other seen ms = .ok () := by
  induction ms generalizing seen with
  | nil => rfl
  | cons m ms ih =>
      obtain ⟨name, v⟩ := m
      have hv := hms (name, v) List.mem_cons_self
      have hrest (m) (hm : m ∈ ms) := hms m (List.mem_cons_of_mem _ hm)
      cases hname : fields.lookup name with
      | none =>
          rw [hname] at hv
          refine scan_other hname hv (ih (fun k check hk => ?_) hrest)
          have hcount := honce k check hk
          simp only [List.map_cons, List.count_cons] at hcount
          omega
      | some check =>
          rw [hname] at hv
          have hcount := honce name check hname
          rw [List.map_cons, List.count_cons_self] at hcount
          have hseen : seen.contains name = false := by
            simpa using List.count_eq_zero.mp (by omega : seen.count name = 0)
          refine scan_field hname hseen hv (ih (fun k check hk => ?_) hrest)
          have hcount := honce k check hk
          simp only [List.map_cons, List.count_cons] at hcount ⊢
          omega

/-- The check of a field passes the value of its slot. -/
def Admits (field : String × (Json → Decoded Unit)) (slot : String × Option Json) : Prop :=
  field.1 = slot.1 ∧ ∀ v, slot.2 = some v → field.2 v = .ok ()

theorem exists_slot {check : Json → Decoded Unit} (h : List.Forall₂ Admits fields slots)
    (hname : fields.lookup name = some check) : ∃ slot ∈ slots, Admits (name, check) slot := by
  induction h with
  | nil => cases hname
  | @cons field slot fields slots hslot _ ih =>
      rw [List.lookup_cons] at hname
      cases hk : name == field.1 with
      | true =>
          rw [hk] at hname
          cases hname
          rw [eq_of_beq hk]
          exact ⟨slot, List.mem_cons_self, hslot⟩
      | false =>
          rw [hk] at hname
          obtain ⟨slot', hmem, hslot'⟩ := ih hname
          exact ⟨slot', List.mem_cons_of_mem _ hmem, hslot'⟩

theorem slot_ne (h : List.Forall₂ Admits fields slots) (hname : fields.lookup name = none) :
    ∀ slot ∈ slots, slot.1 ≠ name := by
  rw [List.lookup_eq_none_iff] at hname
  induction h with
  | nil => exact fun _ hmem => absurd hmem List.not_mem_nil
  | @cons field slot fields slots hslot _ ih =>
      rw [List.forall_mem_cons] at hname ⊢
      refine ⟨?_, ih hname.2⟩
      rw [← hslot.1]
      exact (bne_iff_ne.mp hname.1).symm

/-- **A record takes every object that fills its slots.** -/
theorem Fills.asRecord {source : Source} (h : Fills slots ms)
    (hfields : List.Forall₂ Admits fields slots) :
    asRecord source fields (.record ms) = .ok ms := by
  refine asRecord_record source fields ms (scan_of_count_le_one ?_ ?_)
  · intro name check hname
    obtain ⟨slot, hmem, rfl, -⟩ := exists_slot hfields hname
    exact h.once slot hmem
  · rintro ⟨name, v⟩ hm
    cases hname : fields.lookup name with
    | none => exact h.others (name, v) hm (slot_ne hfields hname)
    | some check =>
        obtain ⟨slot, hmem, rfl, hcheck⟩ := exists_slot hfields hname
        refine hcheck v ?_
        rw [← h.given slot hmem]
        exact lookup_of_count_le_one (h.once slot hmem) hm

/-! ### The second walk -/

section Values

variable {decode : Json → Decoded α} {encode : α → Json} {default : α} {a? : Option α}

/-- What is written is read back, so a slot passes the check of its field. -/
theorem admits_map (hback : ∀ a, decode (encode a) = .ok a) :
    Admits (name, checking decode) (name, a?.map encode) := by
  refine ⟨rfl, fun v hv => ?_⟩
  obtain ⟨a, -, rfl⟩ := Option.map_eq_some_iff.mp hv
  exact checking_ok (hback a)

theorem get_of_lookup (h : ms.lookup name = some v) : ms.get name decode = decode v := by
  rw [Members.get, h]

/-- **A field that is left out has its default, and one that is given its value.** -/
theorem getD_of_lookup (h : ms.lookup name = a?.map encode)
    (hback : ∀ a, decode (encode a) = .ok a) :
    ms.getD name decode default = .ok (a?.getD default) := by
  rw [Members.getD, h]
  cases a? with
  | none => rfl
  | some a => exact hback a

end Values

/-! ### An object for all slots -/

/-- The members that give the slots in order. -/
def Slots.members (slots : Slots) : Members :=
  slots.filterMap fun slot => slot.2.map fun v => (slot.1, v)

theorem Slots.names_sublist (slots : Slots) :
    (slots.members.map Prod.fst).Sublist (slots.map Prod.fst) := by
  induction slots with
  | nil => exact .slnil
  | cons slot slots ih =>
      obtain ⟨name, v?⟩ := slot
      cases v? with
      | none => exact ih.cons name
      | some v => exact ih.cons_cons name

/-- **The members of distinct slots fill them.** -/
theorem Slots.fills_members (slots : Slots) (h : (slots.map Prod.fst).Nodup) :
    Fills slots slots.members := by
  have hsub := slots.names_sublist
  have honce (name : String) : (slots.members.map Prod.fst).count name ≤ 1 :=
    List.nodup_iff_count_le_one.mp (h.sublist hsub) name
  refine ⟨fun slot hslot => ?_, fun slot _ => honce slot.1, fun m hm hne => ?_⟩
  · cases hv : slot.2 with
    | none =>
        refine List.lookup_eq_none_iff.mpr fun m hm => bne_iff_ne.mpr fun hname => ?_
        obtain ⟨slot', hslot', hgiven⟩ := List.mem_filterMap.mp hm
        obtain ⟨v, hv', rfl⟩ := Option.map_eq_some_iff.mp hgiven
        rw [List.inj_on_of_nodup_map h hslot hslot' hname, hv'] at hv
        cases hv
    | some v =>
        exact lookup_of_count_le_one (honce slot.1)
          (List.mem_filterMap.mpr ⟨slot, hslot, by rw [hv]; rfl⟩)
  · obtain ⟨slot, hslot, hname⟩ := List.mem_map.mp (hsub.subset (List.mem_map_of_mem hm))
    exact absurd hname (hne slot hslot)

end FilterScript.Json
