/-
What the registry says of each name.

The registry is a list of entries, but everything is about the entry of one name.  So
each operation is described by what it does to `entry?`, and from that to the value of
a widget and to the run that declared it last.

Pruning goes through the whole list.  What it does to one name follows only where each
name has one entry, and whether something is lost only where each entry has been
reported or declared; `Proper` says both, and every operation keeps it.
-/
import FilterScript.Widget.Registry

namespace FilterScript.Widget.Registry

variable {name name' : String} {run : Nat} {r : Registry} {value : Value}

/-- The run that declared a widget last. -/
def declaredIn? (r : Registry) (name : String) : Option Nat :=
  (r.entry? name).bind (·.declaredIn)

/-! ### Reports and declarations -/

theorem lookup_adjust (f : Entry → Entry) (es : List (String × Entry)) :
    (adjust name f es).lookup name' =
      if name' = name then some (f ((es.lookup name).getD ⟨none, none⟩)) else es.lookup name' := by
  induction es with
  | nil =>
      by_cases hn : name' = name
      · simp [adjust, hn]
      · simp [adjust, hn]
  | cons x rest ih =>
      obtain ⟨n, e⟩ := x
      by_cases hx : n = name
      · by_cases hn : name' = name
        · simp [adjust, hx, hn]
        · have hn' : (name' == name) = false := by simpa using hn
          simp [adjust, hx, hn, List.lookup_cons, hn']
      · have hx' : (name == n) = false := by simpa using Ne.symm hx
        by_cases hn : name' = name
        · subst hn
          simp [adjust, hx, List.lookup_cons, hx', ih]
        · simp [adjust, hx, List.lookup_cons, ih, hn]

/-- A declaration leaves all values alone. -/
theorem value?_declare : (r.declare name run).value? name' = r.value? name' := by
  simp only [value?, entry?, declare, lookup_adjust]
  split
  next hn =>
    subst hn
    cases r.entries.lookup name' <;> rfl
  · rfl

theorem declaredIn?_declare :
    (r.declare name run).declaredIn? name' =
      if name' = name then some run else r.declaredIn? name' := by
  simp only [declaredIn?, entry?, declare, lookup_adjust]
  split <;> rfl

theorem value?_update :
    (r.update name value).value? name' = if name' = name then some value else r.value? name' := by
  simp only [value?, entry?, update, lookup_adjust]
  split <;> rfl

/-- A report leaves all declarations alone. -/
theorem declaredIn?_update : (r.update name value).declaredIn? name' = r.declaredIn? name' := by
  simp only [declaredIn?, entry?, update, lookup_adjust]
  split
  next hn =>
    subst hn
    cases r.entries.lookup name' <;> rfl
  · rfl

theorem declaredIn?_empty : empty.declaredIn? name = none := rfl

/-- A declaration changes nothing exactly if it repeats the last one. -/
theorem declare_eq_self_iff : r.declare name run = r ↔ r.declaredIn? name = some run := by
  constructor
  · intro h
    rw [← h, declaredIn?_declare, if_pos rfl]
  · intro h
    have hentries : ∀ es : List (String × Entry),
        (es.lookup name).bind (·.declaredIn) = some run →
          adjust name (fun e => { e with declaredIn := some run }) es = es := by
      intro es hes
      induction es with
      | nil => cases hes
      | cons x rest ih =>
          obtain ⟨n, e⟩ := x
          by_cases hx : n = name
          · have he : e.declaredIn = some run := by simpa [List.lookup_cons, hx] using hes
            simp only [adjust, hx, if_true]
            rw [← he]
          · have hx' : (name == n) = false := by simpa using Ne.symm hx
            simp only [adjust, hx, if_false]
            rw [ih (by simpa [List.lookup_cons, hx'] using hes)]
    exact congrArg Registry.mk (hentries r.entries h)

/-- A widget that some other run declared last is an orphan. -/
theorem mem_orphans_of_declaredIn? {run' : Nat} (h : r.declaredIn? name = some run)
    (hne : run ≠ run') : name ∈ r.orphans run' := by
  obtain ⟨e, he, hrun⟩ := Option.bind_eq_some_iff.mp h
  have hmem : (name, e) ∈ r.entries := by
    obtain ⟨es, es', hl, -⟩ := List.lookup_eq_some_iff.mp he
    simp [hl]
  simp only [orphans, List.mem_mergeSort, List.mem_map]
  refine ⟨(name, e), List.mem_filter.mpr ⟨hmem, ?_⟩, rfl⟩
  simp [isOrphan, hrun, hne]

/-! ### Proper registries -/

/-- Each name has one entry, and each entry was reported or declared. -/
structure Proper (r : Registry) : Prop where
  distinct : (r.entries.map (·.1)).Nodup
  known : ∀ name, r.entry? name ≠ none → r.value? name ≠ none ∨ r.declaredIn? name ≠ none

theorem map_fst_adjust (f : Entry → Entry) (es : List (String × Entry)) :
    (adjust name f es).map (·.1) =
      if name ∈ es.map (·.1) then es.map (·.1) else es.map (·.1) ++ [name] := by
  induction es with
  | nil => rfl
  | cons x rest ih =>
      obtain ⟨n, e⟩ := x
      by_cases hx : n = name
      · simp [adjust, hx]
      · have hx' : ¬ name = n := fun h => hx h.symm
        simp only [adjust, hx, if_false, List.map_cons, ih, List.mem_cons, hx', false_or]
        split <;> rfl

theorem nodup_adjust {f : Entry → Entry} {es : List (String × Entry)}
    (h : (es.map (·.1)).Nodup) : ((adjust name f es).map (·.1)).Nodup := by
  rw [map_fst_adjust]
  split
  · exact h
  next hn => exact List.nodup_append.mpr ⟨h, by simp, fun a ha b hb => by
      rw [List.mem_singleton.mp hb]
      rintro rfl
      exact hn ha⟩

theorem proper_empty : empty.Proper := ⟨.nil, fun _ h => absurd rfl h⟩

theorem Proper.update (h : r.Proper) : (r.update name value).Proper := by
  refine ⟨nodup_adjust h.distinct, fun name' hentry => ?_⟩
  rw [value?_update, declaredIn?_update]
  by_cases hn : name' = name
  · simp [hn]
  · rw [if_neg hn]
    refine h.known name' ?_
    simpa only [Registry.update, entry?, lookup_adjust, if_neg hn] using hentry

theorem Proper.declare (h : r.Proper) : (r.declare name run).Proper := by
  refine ⟨nodup_adjust h.distinct, fun name' hentry => ?_⟩
  rw [value?_declare, declaredIn?_declare]
  by_cases hn : name' = name
  · simp [hn]
  · rw [if_neg hn]
    refine h.known name' ?_
    simpa only [Registry.declare, entry?, lookup_adjust, if_neg hn] using hentry

/-! ### Orphans and pruning -/

theorem mem_of_lookup {es : List (String × Entry)} {e : Entry} (h : es.lookup name = some e) :
    (name, e) ∈ es := by
  obtain ⟨es₁, es₂, rfl, -⟩ := List.lookup_eq_some_iff.mp h
  simp

theorem lookup_of_mem {es : List (String × Entry)} {e : Entry} (h : (es.map (·.1)).Nodup)
    (he : (name, e) ∈ es) : es.lookup name = some e := by
  induction es with
  | nil => cases he
  | cons x rest ih =>
      obtain ⟨n, e'⟩ := x
      simp only [List.map_cons, List.nodup_cons] at h
      rcases List.mem_cons.mp he with heq | hrest
      · cases heq
        exact List.lookup_cons_self
      · have hne : (name == n) = false := by
          simp only [beq_eq_false_iff_ne]
          rintro rfl
          exact h.1 (List.mem_map_of_mem hrest)
        rw [List.lookup_cons, hne]
        exact ih h.2 hrest

/-- An orphan is a name whose entry was not declared last by the run. -/
theorem Proper.mem_orphans_iff (h : r.Proper) :
    name ∈ r.orphans run ↔ r.entry? name ≠ none ∧ r.declaredIn? name ≠ some run := by
  simp only [orphans, List.mem_mergeSort, List.mem_map, List.mem_filter]
  constructor
  · rintro ⟨⟨n, e⟩, ⟨hmem, horphan⟩, rfl⟩
    have hentry : r.entry? n = some e := lookup_of_mem h.distinct hmem
    refine ⟨by simp [hentry], ?_⟩
    rw [declaredIn?, hentry]
    simpa [isOrphan] using horphan
  · rintro ⟨hentry, hdeclared⟩
    obtain ⟨e, he⟩ := Option.ne_none_iff_exists'.mp hentry
    refine ⟨(name, e), ⟨mem_of_lookup he, ?_⟩, rfl⟩
    rw [declaredIn?, he] at hdeclared
    simpa [isOrphan] using hdeclared

/-- Pruning forgets the orphans and leaves every other name alone. -/
theorem Proper.entry?_prune (h : r.Proper) :
    Registry.entry? (r.prune run) name = if name ∈ r.orphans run then none else r.entry? name := by
  have hdistinct : (((r.prune run).entries).map (·.1)).Nodup :=
    (List.filter_sublist.map _).nodup h.distinct
  cases he : Registry.entry? (r.prune run) name with
  | some e =>
      obtain ⟨hmem, hkept⟩ := List.mem_filter.mp (mem_of_lookup he)
      have hentry : r.entry? name = some e := lookup_of_mem h.distinct hmem
      have hkeeps : e.declaredIn = some run := by simpa [isOrphan] using hkept
      rw [if_neg, hentry]
      rw [h.mem_orphans_iff, declaredIn?, hentry]
      simp [hkeeps]
  | none =>
      split
      · rfl
      next hnot =>
        cases hentry : r.entry? name with
        | none => rfl
        | some e =>
            rw [h.mem_orphans_iff, declaredIn?, hentry] at hnot
            have hkept : (name, e) ∈ (r.prune run).entries := by
              refine List.mem_filter.mpr ⟨mem_of_lookup hentry, ?_⟩
              simpa [isOrphan] using hnot
            have hstays : Registry.entry? (r.prune run) name = some e :=
              lookup_of_mem hdistinct hkept
            rw [hstays] at he
            cases he

theorem Proper.value?_prune (h : r.Proper) :
    (r.prune run).value? name = if name ∈ r.orphans run then none else r.value? name := by
  rw [value?, h.entry?_prune]
  split <;> rfl

theorem Proper.declaredIn?_prune (h : r.Proper) :
    (r.prune run).declaredIn? name = if name ∈ r.orphans run then none else r.declaredIn? name := by
  rw [declaredIn?, h.entry?_prune]
  split <;> rfl

theorem Proper.prune (h : r.Proper) : (r.prune run).Proper := by
  refine ⟨(List.filter_sublist.map _).nodup h.distinct, fun name hentry => ?_⟩
  rw [h.entry?_prune] at hentry
  rw [h.value?_prune, h.declaredIn?_prune]
  by_cases horphan : name ∈ r.orphans run
  · exact absurd (if_pos horphan) hentry
  · rw [if_neg horphan] at hentry
    rw [if_neg horphan, if_neg horphan]
    exact h.known name hentry

end FilterScript.Widget.Registry
