/-
What the host hears of the widgets of a run.

A run remembers for each name the shape that it announced last, and announces a shape only where it
differs from that.  So the shapes that it announces for a name are those of its calls for that name
without immediate repetitions: `List.destutter`.  Calls for other names do not show in it.  That is the
one fact here (`CarriesOut.announced_eq`); it is found by going along the course of the run, and the
invariant beside it is that what the run remembers is what it announced last.

Shapes are compared as the host compares them, numbers as numbers.  On the shapes that a script can ask
for this is an equivalence, because their numbers are finite.  Without immediate repetitions is not
without repetitions: a shape that was left for another one is announced again when it is taken up again.
-/
import FilterScript.Proofs.Filter.Build
import FilterScript.Proofs.Interpreter.Course
import FilterScript.Proofs.Number.Whole
import FilterScript.Proofs.Script.Notices
import Mathlib.Data.List.Destutter

namespace FilterScript

/-! ### Equal shapes -/

namespace Widget.Shape

variable {s t u : Shape}

/-- Whether the numbers of a shape are finite. -/
def IsFinite : Shape → Prop
  | slider low high step initial => low.isFinite = true ∧ high.isFinite = true ∧
      step.isFinite = true ∧ initial.isFinite = true
  | _ => True

theorem same_comm (s t : Shape) : s.same t = t.same s := by
  cases s <;> cases t <;> simp only [same]
  · simp only [eq_comm]
  · simp only [Single.beq_comm]

theorem same_trans (hst : s.same t = true) (htu : t.same u = true) : s.same u = true := by
  cases s <;> cases t <;> cases u <;>
    simp only [same, Bool.and_eq_true, decide_eq_true_eq, Bool.false_eq_true] at *
  · exact hst.trans htu
  · obtain ⟨⟨⟨hlow, hhigh⟩, hstep⟩, hinitial⟩ := hst
    obtain ⟨⟨⟨hlow', hhigh'⟩, hstep'⟩, hinitial'⟩ := htu
    exact ⟨⟨⟨Single.beq_trans hlow hlow', Single.beq_trans hhigh hhigh'⟩,
      Single.beq_trans hstep hstep'⟩, Single.beq_trans hinitial hinitial'⟩

/-- Shapes that are the same are the same as the same others. -/
theorem same_congr (h : s.same t = true) (u : Shape) : s.same u = t.same u := by
  rw [Bool.eq_iff_iff]
  exact ⟨same_trans (same_comm s t ▸ h), same_trans h⟩

theorem same_self (h : s.IsFinite) : s.same s = true := by
  cases s with
  | slider low high step initial =>
      obtain ⟨hlow, hhigh, hstep, hinitial⟩ := h
      simp [same, Single.beq_self, *]
  | _ => simp [same]

end Widget.Shape

/-! ### Shapes that scripts ask for -/

/-- The shapes that a script can ask for are finite. -/
theorem Command.IsMade.isFinite {command : Command} {name : String} {shape : Widget.Shape}
    (h : command.IsMade) (hw : command.widget? = some (name, shape)) : shape.IsFinite := by
  have hsound : command.IsSound := by
    rcases h with ⟨level, text, rfl⟩ | ⟨limit, name, args, hselect⟩
    · trivial
    · exact (Primitive.select_ok hselect).isSound
  cases command <;> cases hw
  · trivial
  · trivial
  · simpa [Command.IsSound, Widget.Shape.IsFinite] using hsound

/-- Whether a shape is another one than the host knows. -/
def Widget.Shape.Differs (known shape : Widget.Shape) : Prop := known.same shape = false

instance : DecidableRel Widget.Shape.Differs := fun _ _ => inferInstanceAs (Decidable (_ = false))

/-- The host knows what a shape does not differ from. -/
theorem Widget.Shape.exists_same {o : Option Widget.Shape} {shape : Widget.Shape}
    (h : ¬ o.all (Differs · shape) = true) : ∃ known, o = some known ∧ known.same shape = true := by
  cases o with
  | none => exact absurd rfl h
  | some known =>
      have hsame : ¬ known.Differs shape := by simpa using h
      exact ⟨known, rfl, Bool.of_not_eq_false hsame⟩

/-! ### Lists and their last items -/

section Destutter

variable {α : Type} {R : α → α → Prop} [DecidableRel R] {a b z : α} {l : List α}

/-- The last item of a part stands earlier in a list, or it is the last one of that. -/
theorem sublist_append_singleton {part : List α} (h : (part ++ [a]).Sublist (l ++ [b])) :
    (part ++ [a]).Sublist l ∨ part.Sublist l ∧ a = b := by
  obtain ⟨before, last, hsplit, hbefore, hlast⟩ := List.sublist_append_iff.mp h
  rcases List.sublist_singleton.mp hlast with rfl | rfl
  · rw [List.append_nil] at hsplit
    exact .inl (hsplit ▸ hbefore)
  · obtain ⟨rfl, heq⟩ := List.append_inj' hsplit rfl
    cases heq
    exact .inr ⟨hbefore, rfl⟩

theorem destutter'_append_singleton (h : (l.destutter' R b).getLast? = some z) :
    (l ++ [a]).destutter' R b = l.destutter' R b ++ if R z a then [a] else [] := by
  induction l generalizing b with
  | nil =>
      obtain rfl : b = z := by simpa using h
      by_cases ha : R b a <;> simp [ha]
  | cons x l ih =>
      by_cases hx : R b x
      · rw [List.destutter'_cons_pos _ hx] at h ⊢
        rw [List.getLast?_cons_of_ne_nil (List.destutter'_ne_nil _ R)] at h
        rw [List.cons_append, List.destutter'_cons_pos _ hx, ih h, List.cons_append]
      · rw [List.destutter'_cons_neg _ hx] at h ⊢
        rw [List.cons_append, List.destutter'_cons_neg _ hx, ih h]

/-- The last item is kept if it differs from the one that was kept before. -/
theorem destutter_append_singleton (l : List α) (a : α) : (l ++ [a]).destutter R =
    l.destutter R ++ if (l.destutter R).getLast?.all (R · a) then [a] else [] := by
  cases l with
  | nil => simp
  | cons b l =>
      obtain ⟨z, hz⟩ : ∃ z, (l.destutter' R b).getLast? = some z :=
        ⟨_, List.getLast?_eq_some_getLast (List.destutter'_ne_nil _ R)⟩
      rw [List.cons_append, List.destutter_cons', List.destutter_cons',
        destutter'_append_singleton hz, hz]
      simp

end Destutter

/-! ### Calls and announcements -/

/-- The shape in which a command asks for a widget. -/
def Command.shape? (name : String) (command : Command) : Option Widget.Shape :=
  command.widget?.bind fun w => if w.1 = name then some w.2 else none

/-- The shapes in which some commands ask for a widget. -/
def shapes (name : String) (commands : List Command) : List Widget.Shape :=
  commands.filterMap (Command.shape? name)

/-- The shape in which a widget is announced. -/
def Notice.shape? (name : String) : Notice → Option Widget.Shape
  | widget name' shape => if name' = name then some shape else none
  | record _ => none

/-- The shapes in which some exchanges announce a widget. -/
def announced (name : String) (xs : List Exchange) : List Widget.Shape :=
  (notices xs).filterMap (Notice.shape? name)

variable {name : String} {command : Command} {commands : List Command} {start c c' : Context}
  {xs ys : List Exchange}

theorem Context.knows_eq (c : Context) (name : String) (shape : Widget.Shape) :
    c.knows name shape = !(c.declared.lookup name).all (Widget.Shape.Differs · shape) := by
  unfold knows
  cases c.declared.lookup name with
  | none => rfl
  | some known => cases hsame : known.same shape <;> simp [Widget.Shape.Differs, hsame]

/-- A command announces the shape that it asks for, unless the host knows it. -/
theorem Command.filterMap_notices (command : Command) (c : Context) (name : String) :
    (command.notices c).filterMap (Notice.shape? name) =
      match command.shape? name with
      | some shape => if c.knows name shape then [] else [shape]
      | none => [] := by
  unfold notices shape?
  cases hw : command.widget? with
  | none => cases hm : command.message? <;> simp [Notice.shape?]
  | some w =>
      obtain ⟨name', shape⟩ := w
      by_cases hn : name' = name
      · subst hn
        cases hknown : c.knows name' shape <;> simp [hknown, Notice.shape?]
      · cases hknown : c.knows name' shape <;> simp [hknown, hn, Notice.shape?]

theorem Context.lookup_declaring (c : Context) (name' : String) (shape : Widget.Shape) :
    (c.declaring name' shape).declared.lookup name =
      if name' = name then some shape else c.declared.lookup name := by
  by_cases hn : name' = name
  · simp [declaring, hn]
  · have hother : (name == name') = false := by simpa using Ne.symm hn
    rw [if_neg hn, declaring, List.lookup_cons, hother]
    induction c.declared with
    | nil => rfl
    | cons d rest ih =>
        obtain ⟨name'', shape'⟩ := d
        by_cases hd : name'' = name'
        · subst hd
          simpa [List.lookup_cons, hother] using ih
        · cases hfirst : name == name'' with
          | true => simp [hd, List.lookup_cons, hfirst]
          | false => simpa [hd, List.lookup_cons, hfirst] using ih

/-- Behind it that is the shape that the host knows. -/
theorem Command.Leaves.lookup (h : command.Leaves c c') : c'.declared.lookup name =
    match command.shape? name with
    | some shape => if c.knows name shape then c.declared.lookup name else some shape
    | none => c.declared.lookup name := by
  rw [h.declared]
  unfold shape?
  cases hw : command.widget? with
  | none => rfl
  | some w =>
      obtain ⟨name', shape⟩ := w
      by_cases hn : name' = name
      · subst hn
        cases hknown : c.knows name' shape <;> simp [hknown, Context.lookup_declaring]
      · cases hknown : c.knows name' shape <;> simp [hknown, hn, Context.lookup_declaring]

/-- A command more that told of everything. -/
theorem announced_step (hknows : c.declared.lookup name = (announced name xs).getLast?)
    (heq : announced name xs = (shapes name commands).destutter Widget.Shape.Differs)
    (hnotices : notices ys = notices xs ++ command.notices c) :
    announced name ys = (shapes name (commands ++ [command])).destutter Widget.Shape.Differs := by
  rw [announced, hnotices, List.filterMap_append, ← announced,
    command.filterMap_notices c name, shapes, List.filterMap_append, ← shapes]
  cases hshape : command.shape? name with
  | none => simpa [hshape] using heq
  | some shape =>
      have hlast : [command].filterMap (Command.shape? name) = [shape] := by simp [hshape]
      rw [hlast, destutter_append_singleton, ← heq, ← hknows, heq]
      have hshows := c.knows_eq name shape
      cases hall : (c.declared.lookup name).all (Widget.Shape.Differs · shape) <;>
        simp [hshows, hall]

/-- **A run announces the shapes of its calls for a widget without immediate repetitions**, and it
remembers the last of them. -/
theorem CarriesOut.announced_eq (h : CarriesOut start commands xs c) (hstart : start.declared = [])
    (name : String) : announced name xs = (shapes name commands).destutter Widget.Shape.Differs ∧
      c.declared.lookup name = (announced name xs).getLast? := by
  induction h with
  | nil => exact ⟨rfl, by rw [hstart]; rfl⟩
  | @snoc commands command xs ys c c' v _ hdone ih =>
      obtain ⟨heq, hlookup⟩ := ih
      obtain ⟨hnotices, hleaves⟩ := Command.ends_of_goes hdone
      refine ⟨announced_step hlookup heq (by rw [notices_append, hnotices]), ?_⟩
      rw [announced, notices_append, List.filterMap_append, ← announced, hnotices,
        command.filterMap_notices c name, hleaves.lookup]
      cases hshape : command.shape? name with
      | none => simpa using hlookup
      | some shape => cases hknown : c.knows name shape <;> simp [hknown, hlookup]

/-- So it is at every moment; a call counts from when its widget is announced. -/
theorem Accounted.announced_eq (h : Accounted start xs) (hstart : start.declared = []) :
    ∃ commands, (∀ command ∈ commands, command.IsMade) ∧ ∀ name,
      announced name xs = (shapes name commands).destutter Widget.Shape.Differs := by
  obtain ⟨commands, command, ys, c, hmade, hcourse, htold⟩ := h.notices
  obtain ⟨hcommand, hcommands⟩ := List.forall_mem_cons.mp hmade
  rcases htold with hsame | hmore
  · refine ⟨commands, hcommands, fun name => ?_⟩
    rw [announced, hsame]
    exact (hcourse.announced_eq hstart name).1
  · refine ⟨commands ++ [command], by simpa [or_imp, forall_and] using ⟨hcommands, hcommand⟩,
      fun name => ?_⟩
    obtain ⟨heq, hlookup⟩ := hcourse.announced_eq hstart name
    exact announced_step hlookup heq hmore

/-! ### The calls of a run -/

theorem isFinite_of_mem_shapes {shape : Widget.Shape} (hmade : ∀ command ∈ commands, command.IsMade)
    (h : shape ∈ shapes name commands) : shape.IsFinite := by
  obtain ⟨command, hcommand, hshape⟩ := List.mem_filterMap.mp h
  obtain ⟨⟨name', shape'⟩, hw, heq⟩ := Option.bind_eq_some_iff.mp hshape
  by_cases hn : name' = name
  · rw [if_pos hn] at heq
    cases heq
    exact (hmade command hcommand).isFinite hw
  · rw [if_neg hn] at heq
    cases heq

/-- What is kept last is the same as what came last. -/
theorem same_getLast_destutter {l : List Widget.Shape} {shape : Widget.Shape}
    (hfinite : ∀ s ∈ l, s.IsFinite) (h : l.getLast? = some shape) :
    ∃ known, (l.destutter Widget.Shape.Differs).getLast? = some known ∧ known.same shape = true := by
  obtain ⟨rest, rfl⟩ := List.getLast?_eq_some_iff.mp h
  rw [destutter_append_singleton]
  by_cases hall : (rest.destutter Widget.Shape.Differs).getLast?.all (Widget.Shape.Differs · shape)
  · rw [if_pos hall, List.getLast?_concat]
    exact ⟨shape, rfl, Widget.Shape.same_self (hfinite shape (by simp))⟩
  · rw [if_neg hall, List.append_nil]
    exact Widget.Shape.exists_same hall

/-- What the host knows of a widget is what the last call for it asked for. -/
theorem CarriesOut.same_of_lookup (h : CarriesOut start commands xs c) (hstart : start.declared = [])
    (hmade : ∀ command ∈ commands, command.IsMade) {shape : Widget.Shape}
    (hlast : (shapes name commands).getLast? = some shape) :
    ∃ known, (announced name xs).getLast? = some known ∧ known.same shape = true := by
  rw [(h.announced_eq hstart name).1]
  exact same_getLast_destutter (fun s hs => isFinite_of_mem_shapes hmade hs) hlast

theorem CarriesOut.knows_eq (h : CarriesOut start commands xs c) (hstart : start.declared = [])
    (hmade : ∀ command ∈ commands, command.IsMade) (shape : Widget.Shape) :
    c.knows name shape = (shapes name commands).getLast?.any (·.same shape) := by
  have hlookup := (h.announced_eq hstart name).2
  cases hlast : (shapes name commands).getLast? with
  | none =>
      have hnone : announced name xs = [] := by
        rw [(h.announced_eq hstart name).1, List.getLast?_eq_none_iff.mp hlast]
        rfl
      rw [hnone] at hlookup
      unfold Context.knows
      rw [hlookup]
      rfl
  | some last =>
      obtain ⟨known, hknown, hsame⟩ := h.same_of_lookup hstart hmade hlast
      unfold Context.knows
      rw [hlookup, hknown, Option.any_some]
      exact Widget.Shape.same_congr hsame shape

/-- A call for a widget can be made wherever a run stands. -/
theorem exists_perform_widget {w : String × Widget.Shape} (hw : command.widget? = some w)
    (c : Context) : ∃ ys v c', ((Primitive.perform command).run.run c).Goes ys (.done (.ok v, c')) := by
  have hread {α : Type} (name : String) (shape : Widget.Shape) (f : Option Widget.Value → α)
      (c : Context) : ∃ ys y c', ((do Action.declareWidget name shape
                                      return f (← Action.request (.widgetValue name)) :
          Action α).run.run c).Goes ys (.done (.ok y, c')) := by
    have hdeclare : ∃ ys c', ((Action.declareWidget name shape).run.run c).Goes ys
        (.done (.ok (), c')) := by
      show ∃ ys c', ((if c.knows name shape then pure () else _ : Action Unit).run.run c).Goes ys _
      cases c.knows name shape with
      | true => exact ⟨[], c, .stay _⟩
      | false =>
          exact ⟨[⟨.declare name, ()⟩, ⟨.isCancelled, false⟩, ⟨.post (.widget name shape), true⟩],
            c.declaring name shape, .ask (.ask (.ask (.stay _)))⟩
    obtain ⟨ys, c', h⟩ := hdeclare
    have hask : (Thread.ask (.widgetValue name) fun x => Thread.done
        ((.ok (f x), c') : Except Cancelled α × Context)).Goes [⟨.widgetValue name, none⟩]
        (.done (.ok (f none), c')) := .ask (.stay _)
    exact ⟨_, f none, c', (h.bind _).append hask⟩
  cases command <;> cases hw
  case checkbox name =>
    obtain ⟨ys, y, c', h⟩ := hread name .checkbox
      (fun x => (Action.registryOf name x).checkbox name) c
    exact ⟨ys, .ok (.bool y), c', h.bind _⟩
  case radio name options =>
    obtain ⟨ys, y, c', h⟩ := hread name (.radio options)
      (fun x => ((Action.registryOf name x).radio name options).getD "") c
    exact ⟨⟨.pause (Primitive.copyTime options), ()⟩ :: ys, .ok (.string y), c', .ask (h.bind _)⟩
  case slider name low high step initial =>
    obtain ⟨ys, y, c', h⟩ := hread name (.slider low high step initial)
      (fun x => (Action.registryOf name x).slider name initial) c
    exact ⟨ys, .ok (.float y), c', h.bind _⟩

/-- What the host of a run hears of its widgets. -/
structure HearsWidgets (config : Config) (r : RunId) (start : Context) : Prop where
  /-- Behind every call for a widget the shape of that call is the one that was announced last. -/
  latest : ∀ {commands xs c name shape}, CarriesOut start commands xs c →
    (∀ command ∈ commands, command.IsMade) → (shapes name commands).getLast? = some shape →
      ∃ known, (announced name xs).getLast? = some known ∧ known.same shape = true
  /-- A call announces its widget if the call before it for the same widget asked for another shape, or
  if there was none.  It announces nothing else, and a call that was given up no more. -/
  called : ∀ {commands xs c command name shape ys t}, CarriesOut start commands xs c →
    (∀ command ∈ commands, command.IsMade) → command.widget? = some (name, shape) →
      ((Primitive.perform command).run.run c).Goes ys t →
        let expected := if (shapes name commands).getLast?.any (·.same shape) then []
          else [Notice.widget name shape]
        notices ys <+: expected ∧ ∀ v c', t = .done (.ok v, c') → notices ys = expected
  /-- Other commands announce nothing. -/
  silent : ∀ {c command ys t}, command.widget? = none →
    ((Primitive.perform command).run.run c).Goes ys t → ∀ name, announced name ys = []
  /-- Widgets can be called in every order, with all shapes that are accepted. -/
  callable : ∀ commands, (∀ command ∈ commands, command.widget?.isSome) →
    ∃ xs c, CarriesOut start commands xs c
  /-- What a run exchanges in a history is what its commands account for. -/
  runs : ∀ platform ms script, System.Begun config platform ms r script →
    Accounted start ((System.ofConfig config platform).exchanges r ms)

/-- **The host knows the shape of every widget that a run asks for.** -/
theorem hears_widgets (config : Config) (r : RunId) :
    HearsWidgets config r (.fresh r config.logLimitPerFrame.toNat) := by
  refine
    { latest := fun h hmade hlast => h.same_of_lookup rfl hmade hlast
      called := ?_
      silent := ?_
      callable := ?_
      runs := fun platform ms script h => h.accounted }
  · intro commands xs c command name shape ys t h hmade hw hgoes
    have hexpected : command.notices c = if (shapes name commands).getLast?.any (·.same shape) then []
        else [Notice.widget name shape] := by
      rw [← h.knows_eq rfl hmade]
      simp [Command.notices, hw]
    refine ⟨hexpected ▸ Command.notices_prefix hgoes, ?_⟩
    rintro v c' rfl
    exact (Command.ends_of_goes hgoes).1.trans hexpected
  · intro c command ys t hw hgoes name
    have hnone : (command.notices c).filterMap (Notice.shape? name) = [] := by
      rw [command.filterMap_notices c name]
      simp [Command.shape?, hw]
    have hpart := (Command.notices_prefix hgoes).filterMap (Notice.shape? name)
    rw [hnone] at hpart
    exact List.prefix_nil.mp hpart
  · intro commands hcalls
    induction commands using List.reverseRecOn with
    | nil => exact ⟨[], _, .nil⟩
    | append_singleton commands command ih =>
        obtain ⟨xs, c, h⟩ := ih fun command hcommand => hcalls command (by simp [hcommand])
        obtain ⟨w, hw⟩ := Option.isSome_iff_exists.mp (hcalls command (by simp))
        obtain ⟨ys, v, c', hdone⟩ := exists_perform_widget hw c
        exact ⟨xs ++ ys, c', h.snoc hdone⟩

/-! ### Shapes that are taken up again -/

section Again

open Widget.Shape (Differs)

variable {l : List Widget.Shape} {s t u shape : Widget.Shape}

/-- What was asked for is kept, or something that is the same. -/
theorem exists_same_of_mem (hfinite : ∀ s ∈ l, s.IsFinite) (hs : s ∈ l) :
    ∃ known ∈ l.destutter Differs, known.same s = true := by
  induction l using List.reverseRecOn with
  | nil => cases hs
  | append_singleton l a ih =>
      rcases List.mem_append.mp hs with hs | hs
      · obtain ⟨known, hknown, hsame⟩ := ih (fun s hs => hfinite s (by simp [hs])) hs
        rw [destutter_append_singleton]
        exact ⟨known, List.mem_append_left _ hknown, hsame⟩
      · cases List.mem_singleton.mp hs
        obtain ⟨known, hknown, hsame⟩ := same_getLast_destutter hfinite List.getLast?_concat
        exact ⟨known, List.mem_of_getLast? hknown, hsame⟩

/-- What is not kept is the same as what came before it. -/
theorem exists_before_of_not_kept {a : Widget.Shape} (hfinite : ∀ s ∈ l, s.IsFinite)
    (h : ¬ (l.destutter Differs).getLast?.all (Differs · a) = true) :
    ∃ rest b, l = rest ++ [b] ∧ b.same a = true := by
  cases hl : l.getLast? with
  | none =>
      rw [List.getLast?_eq_none_iff.mp hl] at h
      exact absurd rfl h
  | some b =>
      obtain ⟨rest, hrest⟩ := List.getLast?_eq_some_iff.mp hl
      obtain ⟨known, hknown, hsame⟩ := same_getLast_destutter hfinite hl
      obtain ⟨known', hknown', hsame'⟩ := Widget.Shape.exists_same h
      cases hknown.symm.trans hknown'
      exact ⟨rest, b, hrest, (Widget.Shape.same_congr hsame a).symm.trans hsame'⟩

/-- A shape that is left and taken up again is kept twice. -/
theorem two_le_countP_destutter (hfinite : ∀ s ∈ l, s.IsFinite) (h : [s, t, u].Sublist l)
    (hs : s.same shape = true) (ht : t.same shape = false) (hu : u.same shape = true) :
    2 ≤ (l.destutter Differs).countP (·.same shape) := by
  induction l using List.reverseRecOn generalizing u with
  | nil => cases h
  | append_singleton l a ih =>
      have hrest : ∀ s ∈ l, s.IsFinite := fun s hs => hfinite s (by simp [hs])
      have hall : ([s, t] ++ [u]).Sublist (l ++ [a]) := h
      rw [destutter_append_singleton, List.countP_append]
      rcases sublist_append_singleton hall with hearlier | ⟨hbefore, rfl⟩
      · have htwice := ih hrest hearlier hu
        omega
      · by_cases hnew : (l.destutter Differs).getLast?.all (Differs · u) = true
        · -- The shape is kept now, and the first time that it was asked for something of it was.
          obtain ⟨known, hknown, hsame⟩ :=
            exists_same_of_mem hrest (hbefore.subset List.mem_cons_self)
          have honce : 0 < (l.destutter Differs).countP (·.same shape) :=
            List.countP_pos_iff.mpr ⟨known, hknown, (Widget.Shape.same_congr hsame shape).trans hs⟩
          rw [if_pos hnew, List.countP_singleton, if_pos hu]
          omega
        · -- The shape that came before is the same, and it was taken up again already.
          obtain ⟨rest, b, rfl, hsame⟩ := exists_before_of_not_kept hrest hnew
          have hb : b.same shape = true := (Widget.Shape.same_congr hsame shape).trans hu
          have hpair : ([s] ++ [t]).Sublist (rest ++ [b]) := hbefore
          have hagain : [s, t, b].Sublist (rest ++ [b]) := by
            rcases sublist_append_singleton hpair with hearlier | ⟨-, rfl⟩
            · exact hearlier.append (List.Sublist.refl [b])
            · rw [ht] at hb
              cases hb
          have htwice := ih hrest hagain hb
          omega

/-- Where neighbours differ, between two that are the same there is one that is not. -/
theorem exists_between (h : l.IsChain Differs) (hcount : 2 ≤ l.countP (·.same shape)) :
    ∃ s t u, [s, t, u].Sublist l ∧ s.same shape = true ∧ t.same shape = false ∧
      u.same shape = true := by
  induction l with
  | nil => simp at hcount
  | cons s l ih =>
      cases hs : s.same shape with
      | false =>
          obtain ⟨s', t, u, hsublist, hshapes⟩ := ih h.of_cons (by simpa [hs] using hcount)
          exact ⟨s', t, u, hsublist.cons s, hshapes⟩
      | true =>
          cases l with
          | nil => simp [hs] at hcount
          | cons t l =>
              have hdiffers : s.same t = false := (List.isChain_cons_cons.mp h).1
              have ht : t.same shape = false := by
                rw [Widget.Shape.same_congr hs, Widget.Shape.same_comm] at hdiffers
                exact hdiffers
              obtain ⟨u, hmem, hu⟩ : ∃ u ∈ l, u.same shape = true := by
                refine List.countP_pos_iff.mp ?_
                simp only [List.countP_cons, hs, ht] at hcount
                simpa using hcount
              exact ⟨s, t, u, ((List.singleton_sublist.mpr hmem).cons_cons t).cons_cons s, hs, ht, hu⟩

end Again

/-- How often the shapes of a widget are announced. -/
structure AnnouncesChanges (config : Config) (r : RunId) (start : Context) : Prop where
  /-- The calls for a widget are announced without immediate repetitions. -/
  carried : ∀ {commands xs c}, CarriesOut start commands xs c → ∀ name,
    announced name xs = (shapes name commands).destutter Widget.Shape.Differs
  /-- So it is at every moment of every history. -/
  changes : ∀ platform ms script, System.Begun config platform ms r script → ∃ commands,
    (∀ command ∈ commands, command.IsMade) ∧ ∀ name,
      announced name ((System.ofConfig config platform).exchanges r ms) =
        (shapes name commands).destutter Widget.Shape.Differs
  /-- Two announcements of a widget that follow each other have different shapes. -/
  apart : ∀ platform ms script, System.Begun config platform ms r script → ∀ name,
    (announced name ((System.ofConfig config platform).exchanges r ms)).IsChain Widget.Shape.Differs
  /-- Every shape that was asked for is announced. -/
  heard : ∀ {commands xs c name shape}, CarriesOut start commands xs c →
    (∀ command ∈ commands, command.IsMade) → shape ∈ shapes name commands →
      ∃ known ∈ announced name xs, known.same shape = true
  /-- It is announced once only exactly if it is never left for another one and taken up again. -/
  once : ∀ {commands xs c name}, CarriesOut start commands xs c →
    (∀ command ∈ commands, command.IsMade) → ∀ shape,
      ((announced name xs).countP (·.same shape) ≤ 1 ↔
        ∀ s t u, [s, t, u].Sublist (shapes name commands) → s.same shape = true →
          u.same shape = true → t.same shape = true)

/-- **A shape is announced once for each time that it is taken up.** -/
theorem announces_changes (config : Config) (r : RunId) :
    AnnouncesChanges config r (.fresh r config.logLimitPerFrame.toNat) := by
  have hchanges (platform : Platform) (ms : List Move) (script : String)
      (h : System.Begun config platform ms r script) :=
    h.accounted.announced_eq rfl
  refine
    { carried := fun h name => (h.announced_eq rfl name).1
      changes := hchanges
      apart := ?_
      heard := ?_
      once := ?_ }
  · intro platform ms script h name
    obtain ⟨commands, -, heq⟩ := hchanges platform ms script h
    rw [heq name]
    exact List.isChain_destutter _ _
  · intro commands xs c name shape h hmade hshape
    rw [(h.announced_eq rfl name).1]
    exact exists_same_of_mem (fun s hs => isFinite_of_mem_shapes hmade hs) hshape
  · intro commands xs c name h hmade shape
    rw [(h.announced_eq rfl name).1]
    constructor
    · intro hcount s t u hsublist hs hu
      by_contra ht
      have htwice := two_le_countP_destutter (fun s hs => isFinite_of_mem_shapes hmade hs) hsublist
        hs (Bool.not_eq_true _ ▸ ht) hu
      omega
    · intro hnever
      by_contra hcount
      obtain ⟨s, t, u, hsublist, hs, ht, hu⟩ := exists_between (List.isChain_destutter _ _)
        (Nat.lt_of_not_le hcount)
      have hsame := hnever s t u (hsublist.trans (List.destutter_sublist _ _)) hs hu
      rw [ht] at hsame
      cases hsame

/-- A run that asks for a checkbox, for a radio of the same name, and for the checkbox again. -/
def alternating : List Move :=
  [.call (.start "checkbox(\"a\"); radio(\"a\", [\"x\"]); checkbox(\"a\");" 0), .host, .host] ++
    List.replicate 30 (.thread 1)

/-- The checkbox is announced twice. -/
theorem alternating_announced :
    announced "a" ((System.ofConfig .standard .usual).exchanges 1 alternating) =
        [.checkbox, .radio ["x"], .checkbox] ∧
      ¬ (announced "a" ((System.ofConfig .standard .usual).exchanges 1 alternating)).countP
        (·.same .checkbox) ≤ 1 := by
  have hannounced : announced "a" ((System.ofConfig .standard .usual).exchanges 1 alternating) =
      [.checkbox, .radio ["x"], .checkbox] := by
    decide +kernel
  rw [hannounced]
  exact ⟨rfl, by decide⟩

end FilterScript
