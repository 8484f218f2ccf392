/-
The imagined files are a lawful machine.

A path leads to an entry only if every directory on its way is there already.  So writing an entry
opens no directory, a path leads to the same place before and after, and two paths that end in
different names in the same directory lead to different entries.
-/
import FilterScript.CommandLine.Files
import FilterScript.Proofs.CommandLine.Machine

namespace FilterScript

namespace Files

variable {f g : Files} {name other text kept path : String} {dir rest : List String}

/-! ### Entries -/

/-- What ends in a slash and starts a text starts what ends in the last slash of that text. -/
theorem prefix_of_not_mem {d front part : List Char} (hpart : '/' ∉ part)
    (h : d ++ ['/'] <+: front ++ '/' :: part) : d ++ ['/'] <+: front ++ ['/'] := by
  obtain ⟨back, hback⟩ := h
  have hsplit : d ++ ['/'] ++ back = front ++ ['/'] ++ part := by simpa using hback
  obtain ⟨more, hfront, -⟩ | ⟨more, hd, hmore⟩ := List.append_eq_append_iff.mp hsplit
  · exact ⟨more, hfront.symm⟩
  obtain rfl | ⟨m, c, rfl⟩ := List.eq_nil_or_concat more
  · exact ⟨[], by simpa using hd⟩
  · rw [List.concat_eq_append, ← List.append_assoc] at hd
    obtain rfl : '/' = c := by simpa using (List.append_inj' hd rfl).2
    exact absurd (by simp [hmore]) hpart

theorem text?_set_self : (f.set name text).text? name = some text := by
  have hnone : (f.entries.filter fun e => e.1 ≠ name).lookup name = none := by
    rw [List.lookup_eq_none_iff]
    intro e he
    have hne : e.1 ≠ name := by simpa using (List.mem_filter.mp he).2
    simp [hne.symm]
  rw [text?, set, List.lookup_append, hnone]
  simp

theorem text?_set_of_ne (h : name ≠ other) : (f.set other text).text? name = f.text? name := by
  have hfilter (entries : List (String × String)) :
      (entries.filter fun e => e.1 ≠ other).lookup name = entries.lookup name := by
    induction entries with
    | nil => rfl
    | cons e entries ih =>
        obtain ⟨n, t⟩ := e
        by_cases hn : n = other
        · rw [List.filter_cons_of_neg (by simpa using hn), ih, List.lookup_cons,
            beq_false_of_ne (hn ▸ h)]
        · rw [List.filter_cons_of_pos (by simpa using hn), List.lookup_cons, List.lookup_cons, ih]
  rw [text?, set, List.lookup_append, hfilter, List.lookup_cons, beq_false_of_ne h]
  simp [text?]

theorem hasDirectory_iff : f.hasDirectory name = true ↔
    ∃ e ∈ f.entries, name.toList ++ ['/'] <+: e.1.toList := by
  simp [hasDirectory, List.isPrefixOf_iff_prefix]

/-- Every directory that an entry would lie in is there. -/
def Opens (f : Files) (name : String) : Prop :=
  ∀ d : String, d.toList ++ ['/'] <+: name.toList → f.hasDirectory d = true

/-- **Writing opens no directory**, if all that the entry lies in are open. -/
theorem hasDirectory_set (h : f.Opens name) (d : String) :
    (f.set name text).hasDirectory d = f.hasDirectory d := by
  rw [Bool.eq_iff_iff]
  constructor
  · intro hset
    obtain ⟨e, he, hprefix⟩ := hasDirectory_iff.mp hset
    obtain hold | hnew := List.mem_append.mp he
    · exact hasDirectory_iff.mpr ⟨e, (List.mem_filter.mp hold).1, hprefix⟩
    · obtain rfl := List.mem_singleton.mp hnew
      exact h d hprefix
  · intro hthere
    obtain ⟨e, he, hprefix⟩ := hasDirectory_iff.mp hthere
    by_cases hname : e.1 = name
    · exact hasDirectory_iff.mpr ⟨(name, text), by simp [set], hname ▸ hprefix⟩
    · exact hasDirectory_iff.mpr ⟨e, by simp [set, he, hname], hprefix⟩

/-! ### Names of entries -/

theorem toList_joined_concat (h : dir ≠ []) (part : String) :
    (joined (dir ++ [part])).toList = (joined dir).toList ++ '/' :: part.toList := by
  rw [joined, String.intercalate_append_of_ne_nil h (by simp)]
  simp [joined]

theorem joined_concat_inj {part : String}
    (h : joined (dir ++ [part]) = joined (dir ++ [other])) : part = other := by
  by_cases hdir : dir = []
  · simpa [hdir, joined] using h
  · have := congrArg String.toList h
    rw [toList_joined_concat hdir, toList_joined_concat hdir] at this
    exact String.toList_inj.mp (List.cons.inj (List.append_cancel_left this)).2

/-- A directory stands: it is the working directory, or something is in it. -/
def Stands (f : Files) (dir : List String) : Prop := dir = [] ∨ f.hasDirectory (joined dir) = true

theorem Stands.dropLast (h : f.Stands dir) : f.Stands dir.dropLast := by
  obtain rfl | hthere := h
  · exact .inl rfl
  obtain rfl | ⟨d, part, rfl⟩ := List.eq_nil_or_concat dir
  · exact .inl rfl
  rw [List.concat_eq_append] at hthere ⊢
  rw [List.dropLast_concat]
  by_cases hd : d = []
  · exact .inl hd
  · obtain ⟨e, he, hprefix⟩ := hasDirectory_iff.mp hthere
    refine .inr (hasDirectory_iff.mpr ⟨e, he, List.IsPrefix.trans ?_ hprefix⟩)
    rw [toList_joined_concat hd]
    exact ⟨part.toList ++ ['/'], by simp⟩

/-- **An entry of a directory that stands lies in no other.** -/
theorem Stands.opens (h : f.Stands dir) {part : String} (hpart : '/' ∉ part.toList) :
    f.Opens (joined (dir ++ [part])) := by
  intro d hd
  by_cases hdir : dir = []
  · have hmem : '/' ∈ part.toList := by
      simpa [hdir, joined] using hd.subset (List.mem_append_right _ (List.mem_singleton_self _))
    exact absurd hmem hpart
  · obtain ⟨e, he, hprefix⟩ := hasDirectory_iff.mp (h.resolve_left hdir)
    refine hasDirectory_iff.mpr ⟨e, he, List.IsPrefix.trans ?_ hprefix⟩
    rw [toList_joined_concat hdir] at hd
    exact prefix_of_not_mem hpart hd

/-! ### Ways -/

/-- What one character does to the parts so far and to the part that it may belong to, the last of
either first. -/
def cut (acc : List String × List Char) (c : Char) : List String × List Char :=
  if c = '/' then (String.ofList acc.2.reverse :: acc.1, []) else (acc.1, c :: acc.2)

theorem foldl_cut (cs : List Char) (done : List String) (part before : List Char) :
    (String.ofList (cs.foldl cut (done, part)).2.reverse ::
        (cs.foldl cut (done, part)).1).reverse =
      done.reverse ++ (Path.parts before part.reverse cs).map fun x => String.ofList x.2 := by
  induction cs generalizing done part before with
  | nil => simp [Path.parts]
  | cons c cs ih =>
      rw [List.foldl_cons, Path.parts, cut]
      split
      next => rw [ih _ _ (before ++ part.reverse ++ [c])]; simp
      next => rw [ih _ _ before]; simp

/-- **Either way of splitting a path gives the same parts.** -/
theorem parts_eq (path : String) :
    parts path = (Path.parts [] [] path.toList).map fun x => String.ofList x.2 :=
  foldl_cut path.toList [] [] []

theorem slash_not_mem_part {part : String} (h : part ∈ parts path) : '/' ∉ part.toList := by
  rw [parts_eq] at h
  obtain ⟨⟨before, name⟩, hmem, rfl⟩ := List.mem_map.mp h
  rw [String.toList_ofList]
  exact Path.not_mem_of_mem_parts (by simp) hmem

/-- What names nothing. -/
abbrev Skips (part : String) : Prop := part = "" ∨ part = "."

/-- What names something in a directory. -/
abbrev Enters (part : String) : Prop := ¬ Skips part ∧ part ≠ ".."

variable {part : String}

theorem walk_skip (hskips : Skips part) : f.walk dir (part :: rest) = f.walk dir rest := by
  rw [walk, if_pos hskips]

theorem walk_up (hdir : dir ≠ []) : f.walk dir (".." :: rest) = f.walk dir.dropLast rest := by
  rw [walk, if_neg (by decide), if_pos rfl, if_neg (by simpa using hdir)]

theorem walk_into (hpart : Enters part) (hthere : f.hasDirectory (joined (dir ++ [part])) = true) :
    f.walk dir (part :: rest) = f.walk (dir ++ [part]) rest := by
  rw [walk, if_neg hpart.1, if_neg hpart.2]
  simp [hthere]

theorem walk_entry (hpart : Enters part)
    (hthere : f.hasDirectory (joined (dir ++ [part])) = false) :
    f.walk dir [part] = .ok (.entry (joined (dir ++ [part]))) := by
  rw [walk, if_neg hpart.1, if_neg hpart.2]
  simp [hthere]

/-- How parts lead from a directory to a place. -/
inductive Way (f : Files) : List String → List String → Place → Prop where
  | arrived {dir : List String} : Way f dir [] .directory
  | skip {dir rest : List String} {part : String} {place : Place} (hskips : Skips part)
      (hrest : Way f dir rest place) : Way f dir (part :: rest) place
  | up {dir rest : List String} {place : Place} (hdir : dir ≠ [])
      (hrest : Way f dir.dropLast rest place) : Way f dir (".." :: rest) place
  | into {dir rest : List String} {part : String} {place : Place} (hpart : Enters part)
      (hthere : f.hasDirectory (joined (dir ++ [part])) = true)
      (hrest : Way f (dir ++ [part]) rest place) : Way f dir (part :: rest) place
  | entry {dir : List String} {part : String} (hpart : Enters part)
      (hthere : f.hasDirectory (joined (dir ++ [part])) = false) :
      Way f dir [part] (.entry (joined (dir ++ [part])))

/-- **A walk that succeeds follows a way.** -/
theorem walk_eq_ok_iff {place : Place} : f.walk dir rest = .ok place ↔ f.Way dir rest place := by
  constructor
  · intro h
    induction rest generalizing dir with
    | nil =>
        cases h
        exact .arrived
    | cons part rest ih =>
        rw [walk] at h
        by_cases hskips : Skips part
        · exact .skip hskips (ih (by rwa [if_pos hskips] at h))
        rw [if_neg hskips] at h
        by_cases hup : part = ".."
        · rw [if_pos hup] at h
          subst hup
          split at h
          · cases h
          next hdir => exact .up (by simpa using hdir) (ih h)
        rw [if_neg hup] at h
        cases hthere : f.hasDirectory (joined (dir ++ [part])) with
        | true => exact .into ⟨hskips, hup⟩ hthere (ih (by simpa [hthere] using h))
        | false =>
            cases rest with
            | nil =>
                obtain rfl : Place.entry (joined (dir ++ [part])) = place := by
                  simpa [hthere] using h
                exact .entry ⟨hskips, hup⟩ hthere
            | cons next rest =>
                -- nothing is behind what is no directory
                simp only [hthere, Bool.false_eq_true, if_false, List.isEmpty_cons] at h
                split at h <;> cases h
  · intro h
    induction h with
    | arrived => rfl
    | skip hskips _ ih => rw [walk_skip hskips, ih]
    | up hdir _ ih => rw [walk_up hdir, ih]
    | into hpart hthere _ ih => rw [walk_into hpart hthere, ih]
    | entry hpart hthere => exact walk_entry hpart hthere

namespace Way

variable {place : Place}

/-- **What an entry is written with moves nothing**, if it opens no directory. -/
theorem set (h : f.Way dir rest place) (hopens : f.Opens name) :
    (f.set name text).Way dir rest place := by
  induction h with
  | arrived => exact .arrived
  | skip hskips _ ih => exact .skip hskips ih
  | up hdir _ ih => exact .up hdir ih
  | into hpart hthere _ ih => exact .into hpart (by rwa [hasDirectory_set hopens]) ih
  | entry hpart hthere => exact .entry hpart (by rwa [hasDirectory_set hopens])

/-- **A path leads to entries only that open no directory.** -/
theorem opens (h : f.Way dir rest (.entry name)) (hdir : f.Stands dir)
    (hrest : ∀ part ∈ rest, '/' ∉ part.toList) : f.Opens name := by
  generalize hplace : Place.entry name = place at h
  induction h with
  | arrived => cases hplace
  | skip _ _ ih => exact ih hdir (List.forall_mem_cons.mp hrest).2 hplace
  | up _ _ ih => exact ih hdir.dropLast (List.forall_mem_cons.mp hrest).2 hplace
  | into _ hthere _ ih => exact ih (.inr hthere) (List.forall_mem_cons.mp hrest).2 hplace
  | entry _ _ =>
      cases hplace
      exact hdir.opens (List.forall_mem_cons.mp hrest).1

/-- Parts that are skipped lead nowhere else. -/
theorem eq_directory_of_skips (h : f.Way dir rest place) (hrest : ∀ part ∈ rest, Skips part) :
    place = .directory := by
  induction h with
  | arrived => rfl
  | skip _ _ ih => exact ih (List.forall_mem_cons.mp hrest).2
  | up _ _ _ => exact absurd (List.forall_mem_cons.mp hrest).1 (by decide)
  | into hpart _ _ _ => exact absurd (List.forall_mem_cons.mp hrest).1 hpart.1
  | entry hpart _ => exact absurd (List.forall_mem_cons.mp hrest).1 hpart.1

/-- **Where the parts in front of others lead does not depend on these.** -/
theorem exists_directory {front : List String} (h : f.Way dir (front ++ rest) place)
    (hrest : rest ≠ []) :
    ∃ d, ∀ back, back ≠ [] → f.walk dir (front ++ back) = f.walk d back := by
  induction front generalizing dir with
  | nil => exact ⟨dir, fun _ _ => rfl⟩
  | cons part front ih =>
      generalize hparts : part :: front ++ rest = parts at h
      cases h with
      | arrived => cases hparts
      | skip hskips hway =>
          obtain ⟨rfl, rfl⟩ := List.cons.inj hparts
          obtain ⟨d, hd⟩ := ih hway
          exact ⟨d, fun back hback => (walk_skip hskips).trans (hd back hback)⟩
      | up hdir hway =>
          obtain ⟨rfl, rfl⟩ := List.cons.inj hparts
          obtain ⟨d, hd⟩ := ih hway
          exact ⟨d, fun back hback => (walk_up hdir).trans (hd back hback)⟩
      | into hpart hthere hway =>
          obtain ⟨rfl, rfl⟩ := List.cons.inj hparts
          obtain ⟨d, hd⟩ := ih hway
          exact ⟨d, fun back hback => (walk_into hpart hthere).trans (hd back hback)⟩
      | entry _ _ =>
          have hnil := (List.cons.inj hparts).2
          exact absurd (List.append_eq_nil_iff.mp hnil).2 hrest

/-- **A name with nothing behind it but what is skipped leads to its entry.** -/
theorem entry_of_name (h : f.Way dir (part :: rest) (.entry name)) (hpart : Enters part)
    (hrest : ∀ p ∈ rest, Skips p) : name = joined (dir ++ [part]) := by
  cases h with
  | skip hskips _ => exact absurd hskips hpart.1
  | up _ _ => exact absurd rfl hpart.2
  | into _ _ hway => cases hway.eq_directory_of_skips hrest
  | entry _ _ => rfl

end Way

/-! ### Reading and writing -/

theorem way_of_place (h : f.place path = .ok (.entry name)) :
    f.Way [] (parts path) (.entry name) := by
  unfold place at h
  split at h
  · cases h
  · split at h <;> cases h
  · exact walk_eq_ok_iff.mp h

theorem opens_of_place (h : f.place path = .ok (.entry name)) : f.Opens name :=
  (way_of_place h).opens (.inl rfl) fun _ => slash_not_mem_part

theorem place_set {p : Place} (hopens : f.Opens name) (h : f.place path = .ok p) :
    (f.set name text).place path = .ok p := by
  revert h
  unfold place
  split
  · exact id
  · exact id
  · exact fun h => walk_eq_ok_iff.mpr ((walk_eq_ok_iff.mp h).set hopens)

theorem read_eq_ok_iff : f.read path = .ok text ↔
    ∃ name, f.place path = .ok (.entry name) ∧ f.text? name = some text := by
  unfold read
  constructor
  · intro h
    cases hplace : f.place path with
    | error fault =>
        rw [hplace] at h
        cases h
    | ok p =>
        cases p with
        | directory =>
            rw [hplace] at h
            cases h
        | entry name =>
            refine ⟨name, rfl, ?_⟩
            cases htext : f.text? name with
            | none => simp [hplace, htext, bind, Except.bind] at h
            | some t => simpa [hplace, htext, bind, Except.bind] using h
  · rintro ⟨name, hplace, htext⟩
    simp [hplace, htext, bind, Except.bind]

theorem exists_entry_of_write (h : f.write path text = .ok g) :
    ∃ name, f.place path = .ok (.entry name) ∧ g = f.set name text := by
  unfold write at h
  cases hplace : f.place path with
  | error fault =>
      rw [hplace] at h
      cases h
  | ok p =>
      rw [hplace] at h
      cases p with
      | directory => cases h
      | entry name =>
          cases h
          exact ⟨name, rfl, rfl⟩

/-- **What was written is read.** -/
theorem read_write (h : f.write path text = .ok g) : g.read path = .ok text := by
  obtain ⟨name, hplace, rfl⟩ := exists_entry_of_write h
  exact read_eq_ok_iff.mpr ⟨name, place_set (opens_of_place hplace) hplace, text?_set_self⟩

theorem enters_of_isName {cs : List Char} (h : Path.IsName cs) : Enters (String.ofList cs) := by
  have hnames := h.names
  rw [Path.isSkipped, Bool.or_eq_false_iff, decide_eq_false_iff_not, decide_eq_false_iff_not]
    at hnames
  refine ⟨?_, fun hup => h.proper (String.ofList_injective hup)⟩
  rintro (hempty | hpoint)
  · exact hnames.1 (String.ofList_injective hempty)
  · exact hnames.2 (String.ofList_injective hpoint)

theorem skips_of_isSkipped {cs : List Char} (h : Path.isSkipped cs = true) :
    Skips (String.ofList cs) := by
  rw [Path.isSkipped, Bool.or_eq_true, decide_eq_true_eq, decide_eq_true_eq] at h
  obtain rfl | rfl := h
  · exact .inl rfl
  · exact .inr rfl

/-- **Different names in the same directory lead to different entries.** -/
theorem entry_ne_of_siblings {p q : String} (h : Path.Siblings path other)
    (hpath : f.place path = .ok (.entry p)) (hother : f.place other = .ok (.entry q)) : p ≠ q := by
  obtain ⟨before, pcs, qcs, hp, hq, hne⟩ := h
  obtain ⟨earlier, hearlier⟩ := Path.exists_earlier before
  -- both ways go through the parts in front of the names
  have hfront {path : String} {cs : List Char}
      (hname : Path.fileName? path.toList = some (before, cs)) : ∃ back,
        parts path = earlier.map (fun x => String.ofList x.2) ++ String.ofList cs :: back ∧
          ∀ part ∈ back, Skips part := by
    obtain ⟨later, hparts, hlater⟩ := hearlier _ _ hname
    refine ⟨later.map fun x => String.ofList x.2, by simp [parts_eq, hparts], ?_⟩
    rw [List.forall_mem_map]
    exact fun x hx => skips_of_isSkipped (hlater x hx)
  obtain ⟨pback, hpparts, hpback⟩ := hfront hp
  obtain ⟨qback, hqparts, hqback⟩ := hfront hq
  have hpway := way_of_place hpath
  have hqway := way_of_place hother
  rw [hpparts] at hpway
  rw [hqparts] at hqway
  obtain ⟨d, hd⟩ := hpway.exists_directory (List.cons_ne_nil _ _)
  rw [← walk_eq_ok_iff, hd _ (List.cons_ne_nil _ _), walk_eq_ok_iff] at hpway hqway
  rw [hpway.entry_of_name (enters_of_isName (Path.fileName?_eq_some hp).1) hpback,
    hqway.entry_of_name (enters_of_isName (Path.fileName?_eq_some hq).1) hqback]
  exact fun hsame => hne (String.ofList_injective (joined_concat_inj hsame))

/-- **A file stays as it is while another one of its directory is written.** -/
theorem read_write_sibling (h : Path.Siblings path other) (hwrite : f.write other text = .ok g)
    (hread : f.read path = .ok kept) : g.read path = .ok kept := by
  obtain ⟨q, hother, rfl⟩ := exists_entry_of_write hwrite
  obtain ⟨p, hpath, htext⟩ := read_eq_ok_iff.mp hread
  refine read_eq_ok_iff.mpr ⟨p, place_set (opens_of_place hother) hpath, ?_⟩
  rw [text?_set_of_ne (entry_ne_of_siblings h hpath hother), htext]

end Files

/-! ### The machine -/

namespace Desk

/-- Imagined files as a machine, at a moment that does not pass. -/
def machine (now : Timestamp) : Shell.Machine Desk where
  answer
    | .look path, d => (d.files.present path, d)
    | .read path, d => (d.files.read path, d)
    | .write path text, d =>
      match d.files.write path text with
      | .ok files => (.ok (), { d with files })
      | .error fault => (.error fault, d)
    | .print text, d => ((), { d with output := d.output ++ text })
    | .time, d => (now, d)

variable {now : Timestamp} {d : Desk} {path text : String}

theorem answer_write_ok {files : Files} (h : d.files.write path text = .ok files) :
    (machine now).answer (.write path text) d = (.ok (), { d with files }) := by
  simp [machine, h]

theorem answer_write_error {fault : FileFault} (h : d.files.write path text = .error fault) :
    (machine now).answer (.write path text) d = (.error fault, d) := by
  simp [machine, h]

/-- **A computation that runs on imagined files runs on their machine.** -/
theorem runOn_eq_runWith {α : Type} (now : Timestamp) (p : Shell α) (d : Desk) :
    p.runOn now d = p.runWith (machine now) d := by
  induction p generalizing d with
  | done a => rfl
  | ask r k ih =>
      cases r with
      | look path => exact ih _ d
      | read path => exact ih _ d
      | write path text =>
          rw [Shell.runOn, Shell.runWith]
          cases hwrite : d.files.write path text with
          | ok files =>
              rw [answer_write_ok hwrite]
              exact ih _ _
          | error fault =>
              rw [answer_write_error hwrite]
              exact ih _ d
      | print text => exact ih _ _
      | time => exact ih _ d

/-- **The imagined files are apart from each other.** -/
theorem lawful_machine (now : Timestamp) : (machine now).Lawful where
  written := by
    intro d path text h
    cases hwrite : d.files.write path text with
    | ok files =>
        rw [answer_write_ok hwrite]
        exact Files.read_write hwrite
    | error fault =>
        rw [answer_write_error hwrite] at h
        cases h
  timeless _ _ := rfl
  apart := by
    intro d path other text kept hsiblings hkept
    cases hwrite : d.files.write other text with
    | ok files =>
        rw [answer_write_ok hwrite]
        exact Files.read_write_sibling hsiblings hwrite hkept
    | error fault =>
        rw [answer_write_error hwrite]
        exact hkept

end Desk

end FilterScript
