/-
The path of the record and the path of the transcript.

The record has the name of the transcript with another extension, in the same directory.  Its name
is never that of the transcript, whatever that is, for one reason: the extension that it gets has a
point of its own, so that it cannot be what stands behind the last point of a name.
-/
import FilterScript.Job.Basic

namespace FilterScript.Path

variable {before name path other done part cs : List Char}

/-! ### Parts -/

theorem parts_of_not_mem (h : '/' ∉ cs) : parts done part cs = [(done, part ++ cs)] := by
  induction cs generalizing part with
  | nil => simp [parts]
  | cons c cs ih =>
      rw [List.mem_cons, not_or] at h
      rw [parts, if_neg (Ne.symm h.1), ih h.2, List.append_assoc, List.singleton_append]

theorem parts_append_slash (cs rest : List Char) :
    parts done part (cs ++ '/' :: rest) =
      parts done part cs ++ parts (done ++ part ++ cs ++ ['/']) [] rest := by
  induction cs generalizing done part with
  | nil => simp [parts]
  | cons c cs ih =>
      rw [List.cons_append, parts, parts]
      split
      next h =>
        subst h
        rw [ih, List.cons_append]
        simp
      next =>
        rw [ih]
        simp

/-- A part has no slash. -/
theorem not_mem_of_mem_parts (hpart : '/' ∉ part) (h : (before, name) ∈ parts done part cs) :
    '/' ∉ name := by
  induction cs generalizing done part with
  | nil =>
      obtain ⟨rfl, rfl⟩ : before = done ∧ name = part := by simpa [parts] using h
      exact hpart
  | cons c cs ih =>
      rw [parts] at h
      split at h
      next =>
        obtain hfirst | hrest := List.mem_cons.mp h
        · obtain ⟨rfl, rfl⟩ := Prod.mk.inj hfirst
          exact hpart
        · exact ih (by simp) hrest
      next hc =>
        exact ih (by simp [hpart, Ne.symm hc]) h

/-- **The parts in front of a part are those of the text in front of it**, which ends in a slash. -/
theorem parts_before {earlier later : List (List Char × List Char)}
    (h : parts done part cs = earlier ++ (before, name) :: later) :
    earlier = [] ∧ before = done ∨
      ∃ b, before = done ++ part ++ b ++ ['/'] ∧ earlier = parts done part b := by
  induction cs generalizing done part earlier with
  | nil =>
      rw [parts] at h
      cases earlier with
      | nil =>
          obtain ⟨hfirst, -⟩ := List.cons.inj h
          exact .inl ⟨rfl, (Prod.mk.inj hfirst).1.symm⟩
      | cons _ _ => simp at h
  | cons c cs ih =>
      rw [parts] at h
      split at h
      next hc =>
        subst hc
        cases earlier with
        | nil =>
            obtain ⟨hfirst, -⟩ := List.cons.inj h
            exact .inl ⟨rfl, (Prod.mk.inj hfirst).1.symm⟩
        | cons first earlier =>
            obtain ⟨rfl, hrest⟩ := List.cons.inj h
            obtain ⟨rfl, rfl⟩ | ⟨b, rfl, rfl⟩ := ih hrest
            · exact .inr ⟨[], by simp, rfl⟩
            · exact .inr ⟨'/' :: b, by simp, by simp [parts]⟩
      next hc =>
        obtain hnone | ⟨b, rfl, rfl⟩ := ih h
        · exact .inl hnone
        · exact .inr ⟨c :: b, by simp, by rw [parts, if_neg hc]⟩

/-! ### The last name of a path -/

/-- What a name is that a path may end in. -/
structure IsName (name : List Char) : Prop where
  whole : '/' ∉ name
  names : isSkipped name = false
  proper : name ≠ ['.', '.']

/-- A long part without a slash is a name. -/
theorem IsName.of_two_lt_length (hwhole : '/' ∉ name) (h : 2 < name.length) : IsName name where
  whole := hwhole
  names := by
    rw [isSkipped, Bool.or_eq_false_iff]
    constructor <;>
      · rw [decide_eq_false_iff_not]
        rintro rfl
        simp at h
  proper := by
    rintro rfl
    simp at h

/-- What may stand in front of the last name of a path. -/
def Leads (before : List Char) : Prop := before = [] ∨ ∃ b, before = b ++ ['/']

/-- **What a path with a last name is made of**: the name, what leads to it, and parts behind it
that are skipped. -/
theorem fileName?_eq_some (h : fileName? path = some (before, name)) :
    IsName name ∧ Leads before ∧ ∃ earlier later,
      parts [] [] path = earlier ++ (before, name) :: later ∧
        ∀ x ∈ later, isSkipped x.2 = true := by
  unfold fileName? at h
  split at h
  next hfind =>
    split at h
    · cases h
    next hproper =>
      cases h
      obtain ⟨hnames, later, earlier, hparts, hlater⟩ := List.find?_eq_some_iff_append.mp hfind
      have hsplit : parts [] [] path = earlier.reverse ++ (before, name) :: later.reverse := by
        rw [← List.reverse_reverse (parts [] [] path), hparts]
        simp
      refine ⟨⟨?_, by simpa using hnames, hproper⟩, ?_, _, _, hsplit, ?_⟩
      · exact not_mem_of_mem_parts (by simp) (hsplit ▸ List.mem_append_right _ List.mem_cons_self)
      · obtain ⟨-, rfl⟩ | ⟨b, rfl, -⟩ := parts_before hsplit
        · exact .inl rfl
        · exact .inr ⟨b, by simp⟩
      · intro x hx
        simpa using hlater x (List.mem_reverse.mp hx)
  next => cases h

/-- **The parts in front of the last name are the same for all paths that agree in front of it.** -/
theorem exists_earlier (before : List Char) :
    ∃ earlier, ∀ path name, fileName? path = some (before, name) → ∃ later,
      parts [] [] path = earlier ++ (before, name) :: later ∧
        ∀ x ∈ later, isSkipped x.2 = true := by
  by_cases hbefore : before = []
  · refine ⟨[], fun path name h => ?_⟩
    obtain ⟨-, -, earlier, later, hparts, hlater⟩ := fileName?_eq_some h
    obtain ⟨rfl, -⟩ | ⟨b, hb, -⟩ := parts_before hparts
    · exact ⟨later, hparts, hlater⟩
    · simp [hbefore] at hb
  · refine ⟨parts [] [] before.dropLast, fun path name h => ?_⟩
    obtain ⟨-, -, earlier, later, hparts, hlater⟩ := fileName?_eq_some h
    obtain ⟨-, hnil⟩ | ⟨b, rfl, rfl⟩ := parts_before hparts
    · exact absurd hnil hbefore
    · exact ⟨later, by simpa using hparts, hlater⟩

theorem Leads.parts_append (hbefore : Leads before) (hwhole : '/' ∉ name) :
    ∃ earlier, parts [] [] (before ++ name) = earlier ++ [(before, name)] := by
  obtain rfl | ⟨b, rfl⟩ := hbefore
  · exact ⟨[], by simp [parts_of_not_mem hwhole]⟩
  · refine ⟨parts [] [] b, ?_⟩
    rw [List.append_assoc, List.singleton_append, parts_append_slash, parts_of_not_mem hwhole]
    simp

/-- **A name behind a directory is the last name of the path that they make.** -/
theorem IsName.fileName?_append (h : IsName name) (hbefore : Leads before) :
    fileName? (before ++ name) = some (before, name) := by
  obtain ⟨earlier, hparts⟩ := hbefore.parts_append h.whole
  simp [fileName?, hparts, h.names, h.proper]

/-! ### Stems -/

/-- **A name without an extension is its own stem; any other is its stem, a point and something
without a point.** -/
theorem stem_cases (name : List Char) :
    stem name = name ∨ ∃ after, '.' ∉ after ∧ name = stem name ++ '.' :: after := by
  cases name with
  | nil => exact .inl rfl
  | cons c rest =>
      by_cases hpoint : '.' ∈ rest
      · obtain ⟨after, front, hrest, hafter⟩ :=
          List.eq_append_cons_of_mem (List.mem_reverse.mpr hpoint)
        have hdrop : rest.reverse.dropWhile (· ≠ '.') = '.' :: front := by
          rw [hrest, List.dropWhile_append_of_pos fun x hx => by
            simpa using fun h : x = '.' => hafter (h ▸ hx)]
          simp
        refine .inr ⟨after.reverse, by simpa using hafter, ?_⟩
        rw [stem, if_pos (by simpa using hpoint), hdrop, ← List.reverse_reverse rest, hrest]
        simp
      · exact .inl (by simp [stem, hpoint])

theorem stem_prefix_self (name : List Char) : stem name <+: name := by
  obtain h | ⟨after, -, h⟩ := stem_cases name
  · exact ⟨[], by rw [h, List.append_nil]⟩
  · exact ⟨'.' :: after, h.symm⟩

theorem stem_ne_nil (h : name ≠ []) : stem name ≠ [] := by
  cases name with
  | nil => exact absurd rfl h
  | cons c rest =>
      rw [stem]
      split <;> simp

/-- **An extension with a point of its own makes another name.** -/
theorem stem_append_ne {extension : List Char} (h : '.' ∈ extension) (name : List Char) :
    stem name ++ '.' :: extension ≠ name := by
  intro hsame
  obtain hwhole | ⟨after, hafter, hcut⟩ := stem_cases name
  · have := congrArg List.length hsame
    simp [hwhole] at this
  · have : '.' :: extension = '.' :: after := List.append_cancel_left (hsame.trans hcut)
    exact hafter ((List.cons.inj this).2 ▸ h)

/-! ### Paths beside each other -/

/-- Two paths end in different names in the same directory. -/
def Siblings (p q : String) : Prop :=
  ∃ before name other, fileName? p.toList = some (before, name) ∧
    fileName? q.toList = some (before, other) ∧ name ≠ other

theorem Siblings.ne {p q : String} (h : Siblings p q) : p ≠ q := by
  rintro rfl
  obtain ⟨before, name, other, hp, hq, hne⟩ := h
  rw [hp] at hq
  exact hne (Prod.mk.inj (Option.some.inj hq)).2

/-- **A path and the path with another extension are beside each other**, if that extension has a
point of its own. -/
theorem siblings_withExtension {p extension : String} (hpoint : '.' ∈ extension.toList)
    (hwhole : '/' ∉ extension.toList) (h : (fileName? p.toList).isSome) :
    Siblings p (withExtension p extension) := by
  obtain ⟨⟨before, name⟩, hname⟩ := Option.isSome_iff_exists.mp h
  obtain ⟨hisName, hbefore, -⟩ := fileName?_eq_some hname
  have hnonempty : name ≠ [] := by
    rintro rfl
    exact absurd hisName.names (by decide)
  have hother : IsName (stem name ++ '.' :: extension.toList) := by
    refine .of_two_lt_length ?_ ?_
    · simp only [List.mem_append, List.mem_cons, not_or]
      exact ⟨fun hmem => hisName.whole ((stem_prefix_self name).subset hmem), by decide, hwhole⟩
    · have hstem := List.length_pos_iff.mpr (stem_ne_nil hnonempty)
      have hextension := List.length_pos_of_mem hpoint
      simp only [List.length_append, List.length_cons]
      omega
  refine ⟨before, name, _, hname, ?_, (stem_append_ne hpoint name).symm⟩
  simpa [withExtension, hname] using hother.fileName?_append hbefore

end FilterScript.Path

namespace FilterScript.Job

/-- **The record lies beside the transcript.** -/
theorem siblings_recordPath {job : Job} {path : String} (hpath : job.outputPath = some path)
    (hname : (Path.fileName? path.toList).isSome) : Path.Siblings path job.recordPath := by
  rw [recordPath, hpath]
  exact Path.siblings_withExtension (by decide) (by decide) hname

end FilterScript.Job
