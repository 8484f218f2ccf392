/-
What the registry knows, read off what was done to it.

A registry starts empty and is changed in four ways.  Two of them speak of one widget, a report of its
value and a declaration of it; the other two remove widgets, all of them or the orphans of a run.  What
was said of a widget counts until it is removed, so everything is read off the changes since its last
removal: `Since` cuts the history there.  The last removal of one widget is none of another, because
pruning looks at each entry on its own.

The line that carries the proof is `entry?_after`: the entry of a widget is what was last said of it
since then, and there is none if nothing was.
-/
import FilterScript.Proofs.Widget.Registry
import Mathlib.Data.List.Induction

namespace FilterScript.Widget

/-- A change of the registry. -/
inductive Change where
  | update (name : String) (value : Value)
  | declare (name : String) (run : Nat)
  | prune (run : Nat)
  | clear

namespace Change

variable (name : String)

/-- The value that a change reports for a widget. -/
def value? : Change → Option Value
  | update name' value => if name' = name then some value else none
  | _ => none

/-- The run for which a change declares a widget. -/
def run? : Change → Option Nat
  | declare name' run => if name' = name then some run else none
  | _ => none

/-- Whether a change speaks of a widget. -/
def isAbout (c : Change) : Bool := (c.value? name).isSome || (c.run? name).isSome

/-- The value that some changes reported last for a widget. -/
def lastValue (cs : List Change) : Option Value := (cs.filterMap (value? name)).getLast?

/-- The run for which some changes declared a widget last. -/
def lastRun (cs : List Change) : Option Nat := (cs.filterMap (run? name)).getLast?

/-- What is known of a widget of which some changes spoke. -/
def said (cs : List Change) : Option Entry :=
  if cs.any (isAbout name) then some ⟨lastValue name cs, lastRun name cs⟩ else none

end Change

namespace Registry

variable {name name' : String} {run : Nat} {r : Registry} {value : Value} {c : Change}
  {cs during : List Change}

/-- The names that the registry holds. -/
def names (r : Registry) : List String := r.entries.map (·.1)

/-- The registry behind a change. -/
def change (r : Registry) : Change → Registry
  | .update name value => r.update name value
  | .declare name run => r.declare name run
  | .prune run => (r.takeOrphans run).2
  | .clear => empty

/-- The registry behind some changes. -/
def after (cs : List Change) : Registry := cs.foldl change empty

@[simp] theorem after_append_singleton : after (cs ++ [c]) = (after cs).change c := by
  simp [after]

/-- Whether a change removes a widget. -/
def removes (r : Registry) (name : String) : Change → Bool
  | .prune run => name ∈ (r.takeOrphans run).1
  | .clear => true
  | _ => false

/-! ### Taking the orphans out -/

theorem foldl_erase (names : List String) (r : Registry) :
    names.foldl erase r = ⟨r.entries.filter fun x => x.1 ∉ names⟩ := by
  induction names generalizing r with
  | nil =>
      have hall : r.entries.filter (fun x => x.1 ∉ ([] : List String)) = r.entries :=
        List.filter_eq_self.mpr fun x _ => by simp
      rw [List.foldl_nil, hall]
  | cons n rest ih =>
      rw [List.foldl_cons, ih, erase, List.filter_filter]
      congr 1
      refine List.filter_congr fun x _ => ?_
      by_cases hx : x.1 = n <;> simp [hx]

/-- Taking the orphans out one after the other leaves what pruning leaves. -/
theorem Proper.takeOrphans_eq (h : r.Proper) (run : Nat) :
    r.takeOrphans run = (r.orphans run, r.prune run) := by
  have hregistry : (r.orphans run).foldl erase r = r.prune run := by
    rw [foldl_erase]
    refine congrArg Registry.mk (List.filter_congr ?_)
    intro x hx
    have hentry : r.entry? x.1 = some x.2 := lookup_of_mem h.distinct hx
    have horphan : x.1 ∈ r.orphans run ↔ isOrphan run x.2 = true := by
      rw [h.mem_orphans_iff, declaredIn?, hentry]
      simp [isOrphan]
    simp [horphan]
  rw [takeOrphans, hregistry]

theorem Proper.change (h : r.Proper) (c : Change) : (r.change c).Proper := by
  cases c with
  | update name value => exact h.update
  | declare name run => exact h.declare
  | prune run =>
      rw [Registry.change, h.takeOrphans_eq]
      exact h.prune
  | clear => exact proper_empty

theorem proper_after (cs : List Change) : (after cs).Proper := by
  induction cs using List.reverseRecOn with
  | nil => exact proper_empty
  | append_singleton cs c ih =>
      rw [after_append_singleton]
      exact ih.change c

/-! ### What a change does to one widget -/

theorem mem_names_iff : name ∈ r.names ↔ r.entry? name ≠ none := by
  simp [names, entry?, List.lookup_eq_none_iff]

/-- A change that removes a widget leaves no entry of it. -/
theorem Proper.entry?_removed (h : r.Proper) (hc : r.removes name c = true) :
    Registry.entry? (r.change c) name = none := by
  cases c with
  | prune run =>
      have hmem : name ∈ (r.takeOrphans run).1 := of_decide_eq_true hc
      rw [h.takeOrphans_eq] at hmem
      rw [Registry.change, h.takeOrphans_eq, h.entry?_prune, if_pos hmem]
  | clear => rfl
  | _ => cases hc

/-- Another change leaves the entry alone, or puts into it what it says. -/
theorem Proper.entry?_kept (h : r.Proper) (hc : r.removes name c = false) :
    Registry.entry? (r.change c) name =
      if c.isAbout name then
        some ⟨(c.value? name).or (r.value? name), (c.run? name).or (r.declaredIn? name)⟩
      else r.entry? name := by
  cases c with
  | update name' value =>
      rw [Registry.change, Registry.update, entry?, lookup_adjust]
      by_cases hn : name = name'
      · subst hn
        cases hentry : r.entries.lookup name <;>
          simp [Change.isAbout, Change.value?, Change.run?, declaredIn?, entry?, hentry]
      · simp [Change.isAbout, Change.value?, Change.run?, hn, Ne.symm hn, entry?]
  | declare name' run =>
      rw [Registry.change, Registry.declare, entry?, lookup_adjust]
      by_cases hn : name = name'
      · subst hn
        cases hentry : r.entries.lookup name <;>
          simp [Change.isAbout, Change.value?, Change.run?, Registry.value?, entry?, hentry]
      · simp [Change.isAbout, Change.value?, Change.run?, hn, Ne.symm hn, entry?]
  | prune run =>
      have hnot : name ∉ (r.takeOrphans run).1 := of_decide_eq_false hc
      rw [h.takeOrphans_eq] at hnot
      rw [Registry.change, h.takeOrphans_eq, h.entry?_prune, if_neg hnot]
      rfl
  | clear => cases hc

/-! ### Since the last removal -/

/-- Whether none of some changes removes a widget. -/
def keeps (r : Registry) (name : String) : List Change → Bool
  | [] => true
  | c :: cs => !r.removes name c && (r.change c).keeps name cs

theorem keeps_append_singleton : r.keeps name (cs ++ [c]) =
    (r.keeps name cs && !(cs.foldl Registry.change r).removes name c) := by
  induction cs generalizing r with
  | nil => simp [keeps]
  | cons c' cs ih => simp [keeps, ih, Bool.and_assoc]

/-- The changes `during` are those since a widget was last removed, or all of them if it never was. -/
structure Since (name : String) (cs during : List Change) : Prop where
  split : ∃ before, cs = before ++ during ∧ (after before).keeps name during = true ∧
    (before = [] ∨ ∃ earlier c, before = earlier ++ [c] ∧ (after earlier).removes name c = true)

/-- A history with one change more begins anew behind a removal, and goes on otherwise. -/
theorem since_append_singleton : Since name (cs ++ [c]) during ↔
    (after cs).removes name c = true ∧ during = [] ∨
      (after cs).removes name c = false ∧ ∃ during', during = during' ++ [c] ∧ Since name cs during' := by
  constructor
  · rintro ⟨before, hsplit, hkeeps, hstart⟩
    rcases List.eq_nil_or_concat during with rfl | ⟨during, c', rfl⟩
    · rw [List.append_nil] at hsplit
      subst hsplit
      rcases hstart with hnil | ⟨earlier, c', heq, hremoves⟩
      · simp at hnil
      · obtain ⟨rfl, hc⟩ := List.append_inj' heq rfl
        cases hc
        exact .inl ⟨hremoves, rfl⟩
    · rw [List.concat_eq_append] at hsplit hkeeps ⊢
      rw [← List.append_assoc] at hsplit
      obtain ⟨rfl, hc⟩ := List.append_inj' hsplit rfl
      cases hc
      rw [keeps_append_singleton, Bool.and_eq_true, Bool.not_eq_true'] at hkeeps
      have hlast : (after (before ++ during)).removes name c = false := by
        simpa [after] using hkeeps.2
      exact .inr ⟨hlast, during, rfl, ⟨before, rfl, hkeeps.1, hstart⟩⟩
  · rintro (⟨hremoves, rfl⟩ | ⟨hkept, during', rfl, before, rfl, hkeeps, hstart⟩)
    · exact ⟨cs ++ [c], by simp, rfl, .inr ⟨cs, c, rfl, hremoves⟩⟩
    · refine ⟨before, by simp, ?_, hstart⟩
      rw [keeps_append_singleton, hkeeps, Bool.true_and, Bool.not_eq_true']
      simpa [after] using hkept

/-- Every history can be cut at the last removal of a widget. -/
theorem exists_since (name : String) (cs : List Change) : ∃ during, Since name cs during := by
  induction cs using List.reverseRecOn with
  | nil => exact ⟨[], [], rfl, rfl, .inl rfl⟩
  | append_singleton cs c ih =>
      obtain ⟨during, hduring⟩ := ih
      by_cases hc : (after cs).removes name c = true
      · exact ⟨[], since_append_singleton.mpr (.inl ⟨hc, rfl⟩)⟩
      · rw [Bool.not_eq_true] at hc
        exact ⟨during ++ [c], since_append_singleton.mpr (.inr ⟨hc, during, rfl, hduring⟩)⟩

theorem lastValue_append_singleton :
    Change.lastValue name (cs ++ [c]) = (c.value? name).or (Change.lastValue name cs) := by
  unfold Change.lastValue
  cases hc : c.value? name <;> simp [hc]

theorem lastRun_append_singleton :
    Change.lastRun name (cs ++ [c]) = (c.run? name).or (Change.lastRun name cs) := by
  unfold Change.lastRun
  cases hc : c.run? name <;> simp [hc]

/-- What was said of a widget of which nobody spoke. -/
theorem said_of_not_any (h : during.any (Change.isAbout name) = false) :
    Change.lastValue name during = none ∧ Change.lastRun name during = none := by
  have hnone : ∀ c ∈ during, c.value? name = none ∧ c.run? name = none := by
    intro c hc
    have hnot := List.any_eq_false.mp h c hc
    simpa [Change.isAbout] using hnot
  unfold Change.lastValue Change.lastRun
  rw [List.filterMap_eq_nil_iff.mpr fun c hc => (hnone c hc).1,
    List.filterMap_eq_nil_iff.mpr fun c hc => (hnone c hc).2]
  exact ⟨rfl, rfl⟩

/-- A registry whose entry is what was said knows the value and the run that were said last. -/
theorem known_of_said (h : Registry.entry? r name = Change.said name during) :
    r.value? name = Change.lastValue name during ∧
      r.declaredIn? name = Change.lastRun name during := by
  rw [Registry.value?, declaredIn?, h, Change.said]
  by_cases hany : during.any (Change.isAbout name) = true
  · rw [if_pos hany]
    exact ⟨rfl, rfl⟩
  · obtain ⟨hvalue, hrun⟩ := said_of_not_any (by simpa using hany)
    rw [if_neg hany, hvalue, hrun]
    exact ⟨rfl, rfl⟩

/-- **The entry of a widget is what was last said of it since it was removed.** -/
theorem entry?_after (h : Since name cs during) :
    Registry.entry? (after cs) name = Change.said name during := by
  induction cs using List.reverseRecOn generalizing during with
  | nil =>
      obtain ⟨before, hsplit, -, -⟩ := h
      obtain ⟨rfl, rfl⟩ := List.append_eq_nil_iff.mp hsplit.symm
      rfl
  | append_singleton cs c ih =>
      rw [after_append_singleton]
      rcases since_append_singleton.mp h with ⟨hremoves, rfl⟩ | ⟨hkept, during', rfl, hduring⟩
      · rw [(proper_after cs).entry?_removed hremoves]
        rfl
      · have hbefore := ih hduring
        rw [(proper_after cs).entry?_kept hkept]
        by_cases hc : c.isAbout name = true
        · obtain ⟨hvalue, hrun⟩ := known_of_said hbefore
          rw [if_pos hc, hvalue, hrun, Change.said, if_pos (by simp [hc]),
            lastValue_append_singleton, lastRun_append_singleton]
        · rw [if_neg hc, hbefore]
          rw [Bool.not_eq_true] at hc
          obtain ⟨hvalue, hrun⟩ : c.value? name = none ∧ c.run? name = none := by
            simpa [Change.isAbout] using hc
          simp [Change.said, hc, lastValue_append_singleton, lastRun_append_singleton, hvalue, hrun]

/-! ### The order of the names -/

theorem pairwise_orphans (r : Registry) (run : Nat) : (r.orphans run).Pairwise (· ≤ ·) := by
  have htrans (a b c : String) (hab : decide (a ≤ b) = true) (hbc : decide (b ≤ c) = true) :
      decide (a ≤ c) = true :=
    decide_eq_true (String.le_trans (of_decide_eq_true hab) (of_decide_eq_true hbc))
  have htotal (a b : String) : (decide (a ≤ b) || decide (b ≤ a)) = true := by
    simpa using String.le_total a b
  exact (List.pairwise_mergeSort htrans htotal _).imp of_decide_eq_true

/-- The orphans stand in order, each of them once. -/
theorem Proper.sorted_orphans (h : r.Proper) (run : Nat) : (r.orphans run).Pairwise (· < ·) := by
  have hdistinct : (r.orphans run).Nodup :=
    (List.mergeSort_perm _ _).nodup_iff.mpr ((List.filter_sublist.map _).nodup h.distinct)
  refine ((pairwise_orphans r run).and hdistinct).imp ?_
  rintro a b ⟨hle, hne⟩
  exact String.not_le.mp fun hge => hne (String.le_antisymm hle hge)

/-- The order in which the entries stand makes no difference. -/
theorem orphans_of_perm {r' : Registry} (h : r'.entries.Perm r.entries) (run : Nat) :
    r'.orphans run = r.orphans run := by
  have hperm : (r'.orphans run).Perm (r.orphans run) :=
    (List.mergeSort_perm _ _).trans
      (((h.filter _).map _).trans (List.mergeSort_perm _ _).symm)
  exact hperm.eq_of_pairwise (fun a b _ _ => String.le_antisymm) (pairwise_orphans r' run)
    (pairwise_orphans r run)

/-! ### Every history -/

/-- What a registry answers behind some changes. -/
structure FollowsHistory (cs : List Change) : Prop where
  /-- For each widget the history can be cut where it was last removed. -/
  since : ∀ name, ∃ during, Since name cs during
  /-- The registry holds the widgets of which was spoken since, each of them once. -/
  held : ∀ name during, Since name cs during →
    (name ∈ (after cs).names ↔ ∃ c ∈ during, c.isAbout name = true)
  distinct : (after cs).names.Nodup
  /-- The orphans of a run are those that were not declared for it last. -/
  orphaned : ∀ run name during, Since name cs during →
    (name ∈ (after cs).orphans run ↔
      (∃ c ∈ during, c.isAbout name = true) ∧ Change.lastRun name during ≠ some run)
  /-- They are answered in order and without repetition, in whatever order the entries stand. -/
  sorted : ∀ run, ((after cs).orphans run).Pairwise (· < ·)
  unordered : ∀ (run : Nat) (r : Registry), r.entries.Perm (after cs).entries →
    r.orphans run = (after cs).orphans run
  /-- Pruning answers the orphans and removes them. -/
  answered : ∀ run, ((after cs).takeOrphans run).1 = (after cs).orphans run
  removed : ∀ run name, name ∈ ((after cs).takeOrphans run).2.names ↔
    name ∈ (after cs).names ∧ name ∉ (after cs).orphans run
  /-- It leaves alone what is known of all others. -/
  kept : ∀ run name, name ∉ (after cs).orphans run →
    ((after cs).takeOrphans run).2.value? name = (after cs).value? name ∧
      ((after cs).takeOrphans run).2.declaredIn? name = (after cs).declaredIn? name
  /-- Who prunes twice finds nothing the second time. -/
  twice : ∀ run, ((after cs).takeOrphans run).2.takeOrphans run = ([], ((after cs).takeOrphans run).2)

/-- Behind pruning there is no orphan, and pruning again removes nothing. -/
theorem takeOrphans_prune (h : r.Proper) (run : Nat) :
    (r.prune run).takeOrphans run = ([], r.prune run) := by
  have hnone : (r.prune run).orphans run = [] := by
    refine List.eq_nil_iff_forall_not_mem.mpr fun name hname => ?_
    obtain ⟨hentry, hdeclared⟩ := h.prune.mem_orphans_iff.mp hname
    rw [h.entry?_prune] at hentry
    rw [h.declaredIn?_prune] at hdeclared
    by_cases horphan : name ∈ r.orphans run
    · exact hentry (if_pos horphan)
    · rw [if_neg horphan] at hentry hdeclared
      exact horphan (h.mem_orphans_iff.mpr ⟨hentry, hdeclared⟩)
  rw [takeOrphans, hnone]
  rfl

/-- **Orphans and pruning follow the last declaration.** -/
theorem follows_history (cs : List Change) : FollowsHistory cs := by
  have hproper := proper_after cs
  refine
    { since := fun name => exists_since name cs
      held := ?_
      distinct := hproper.distinct
      orphaned := ?_
      sorted := hproper.sorted_orphans
      unordered := fun run r hperm => orphans_of_perm hperm run
      answered := fun run => rfl
      removed := ?_
      kept := ?_
      twice := ?_ }
  · intro name during hsince
    rw [mem_names_iff, entry?_after hsince, Change.said]
    simp
  · intro run name during hsince
    have hentry := entry?_after hsince
    rw [hproper.mem_orphans_iff, (known_of_said hentry).2, hentry, Change.said]
    simp
  · intro run name
    rw [hproper.takeOrphans_eq, mem_names_iff, mem_names_iff, hproper.entry?_prune]
    by_cases horphan : name ∈ (after cs).orphans run <;> simp [horphan]
  · intro run name hname
    rw [hproper.takeOrphans_eq, hproper.value?_prune, hproper.declaredIn?_prune, if_neg hname,
      if_neg hname]
    exact ⟨rfl, rfl⟩
  · intro run
    rw [hproper.takeOrphans_eq]
    exact takeOrphans_prune hproper run

end Registry

end FilterScript.Widget
