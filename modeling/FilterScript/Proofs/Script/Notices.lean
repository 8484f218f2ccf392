/-
What commands announce and what they write to the log.

A command tells of at most one thing beside the filter: the widget that it asks for, unless the host
knows it, or what the budget of the log lets through of a message.  What that is depends on the context
in which the command is carried out, and on no reply: `Command.notices`.  What the context knows of
widgets and of the budget afterwards does not depend on replies either: `Command.Leaves`.

The protocol that carries the proof remembers the notices of a run, and it allows those requests with
which they stay a beginning of what is expected.  So a command that was given up on its way has told of
a part of that, and one that was carried out of all of it.
-/
import FilterScript.Proofs.Script.Command

namespace FilterScript

/-- What a run tells of: a widget that it announces, or a record in the log. -/
inductive Notice where
  | widget (name : String) (shape : Widget.Shape)
  | record (r : LogRecord)
deriving DecidableEq

/-- What a request tells of, if it is received. -/
def Request.notice? : Request → Option Notice
  | post (.widget name shape) => some (.widget name shape)
  | log r => some (.record r)
  | _ => none

/-- What an exchange tells of.  A message that nobody receives tells nothing. -/
def Exchange.notice? : Exchange → Option Notice
  | ⟨.post m, true⟩ => (Request.post m).notice?
  | ⟨.post _, false⟩ => none
  | ⟨r, _⟩ => r.notice?

/-- What some exchanges tell of. -/
def notices (xs : List Exchange) : List Notice := xs.filterMap Exchange.notice?

theorem notices_append (xs ys : List Exchange) : notices (xs ++ ys) = notices xs ++ notices ys :=
  List.filterMap_append

theorem Exchange.notice?_eq_some {x : Exchange} {n : Notice} (h : x.notice? = some n) :
    x.request.notice? = some n := by
  obtain ⟨r, y⟩ := x
  cases r with
  | post m =>
      cases y with
      | true => exact h
      | false => cases h
  | _ => exact h

/-! ### The protocol of what is expected -/

/-- A run that tells of nothing but the beginning of what is expected. -/
def Protocol.noticing (expected : List Notice) : Protocol (List Notice) where
  Allows u r := ∀ n, r.notice? = some n → u ++ [n] <+: expected
  after u r x := u ++ (Exchange.mk r x).notice?.toList
  MayStop _ := True

namespace Thread.Follows

variable {α : Type} {expected u : List Notice} {Q : List Notice → α → Prop} {t t' : Thread α}
  {xs : List Exchange}

/-- Along a branch the memory holds the notices of the exchanges. -/
theorem noticed (h : t.Follows (.noticing expected) Q u) (hu : u <+: expected)
    (hgoes : t.Goes xs t') :
    u ++ notices xs <+: expected ∧ t'.Follows (.noticing expected) Q (u ++ notices xs) := by
  induction hgoes generalizing u with
  | stay t =>
      rw [notices, List.filterMap_nil, List.append_nil]
      exact ⟨hu, h⟩
  | @ask r k x xs t' _ ih =>
      obtain ⟨hallowed, hrest⟩ := h.of_ask
      have hnext : u ++ (Exchange.mk r x).notice?.toList <+: expected := by
        cases hn : (Exchange.mk r x).notice? with
        | none => simpa using hu
        | some n => exact hallowed n (Exchange.notice?_eq_some hn)
      have hsplit : notices (⟨r, x⟩ :: xs) = (Exchange.mk r x).notice?.toList ++ notices xs := by
        cases hn : (Exchange.mk r x).notice? <;> simp [notices, hn]
      rw [hsplit, ← List.append_assoc]
      exact ih (hrest x) hnext

end Thread.Follows

/-- What an action tells of shows along its branches. -/
theorem Action.Takes.goes {α : Type} {a : Action α} {c : Context} {expected : List Notice}
    {A : List Notice → Context → Prop} {C : α → List Notice → Context → Prop}
    {xs : List Exchange} {t : Thread (Except Cancelled α × Context)}
    (h : Takes (.noticing expected) A C a) (hA : A [] c) (hgoes : (a.run.run c).Goes xs t) :
    notices xs <+: expected ∧ ∀ y c', t = .done (.ok y, c') → C y (notices xs) c' := by
  obtain ⟨hpart, hrest⟩ := (h [] c hA).noticed List.nil_prefix hgoes
  refine ⟨hpart, ?_⟩
  rintro y c' rfl
  cases hrest with
  | done hC => exact hC

namespace Command

/-- What a command tells of. -/
def notices (command : Command) (c : Context) : List Notice :=
  match command.widget?, command.message? with
  | some (name, shape), _ => if c.knows name shape then [] else [.widget name shape]
  | none, some (level, text) => (c.logger.log level text).2.1.map .record
  | none, none => []

/-- What a context knows of widgets and of the budget behind a command. -/
structure Leaves (command : Command) (c c' : Context) : Prop where
  declared : c'.declared = match command.widget? with
    | some (name, shape) => if c.knows name shape then c.declared else (c.declaring name shape).declared
    | none => c.declared
  logger : c'.logger = match command.message? with
    | some (level, text) => (c.logger.log level text).2.2
    | none => if command.resumes then c.logger.resetFrame else c.logger

variable {command : Command} {c : Context} {expected : List Notice}

/-! ### The walk -/

/-- A request that tells of nothing may always be made, and leaves the memory alone. -/
theorem noticing_silent (u : List Notice) {r : Request} (h : r.notice? = none) :
    (Protocol.noticing expected).Allows u r ∧ ∀ x, (Protocol.noticing expected).after u r x = u := by
  refine ⟨fun n hn => ?_, fun x => ?_⟩
  · rw [h] at hn
    cases hn
  · have hnone : (Exchange.mk r x).notice? = none := by
      refine Option.eq_none_iff_forall_ne_some.mpr fun n hn => ?_
      rw [Exchange.notice?_eq_some hn] at h
      cases h
    show u ++ (Exchange.mk r x).notice?.toList = u
    rw [hnone, Option.toList_none, List.append_nil]

theorem notice?_of_isPlain {r : Request} (h : r.isPlain = true) : r.notice? = none := by
  cases r <;> first | rfl | cases h

theorem notice?_of_posts {m : WorkerMessage} (h : command.Posts c m) :
    (Request.post m).notice? = none := by
  cases command with
  | reboot => rw [h]; rfl
  | direct d =>
      rw [h]
      cases d <;> rfl
  | render => rw [h]; rfl
  | _ => exact h.elim

/-- Records are remembered in the order in which they are written. -/
theorem noticing_writes (records : List LogRecord) {u : List Notice}
    (h : u ++ records.map .record <+: expected) :
    (Protocol.noticing expected).Writes records u (u ++ records.map .record) := by
  induction records generalizing u with
  | nil => simp [Protocol.Writes]
  | cons r rest ih =>
      rw [List.map_cons, List.append_cons] at h ⊢
      refine ⟨?_, ih h⟩
      rintro n ⟨⟩
      exact (List.prefix_append _ _).trans h

theorem takes_plain (u : List Notice) {r : Request} (h : r.isPlain = true) :
    (Protocol.noticing expected).Allows u r ∧ ∀ x, (Protocol.noticing expected).after u r x = u :=
  noticing_silent u (notice?_of_isPlain h)

section Kinds

variable (c₀ : Context)

/-- What holds when a command begins, and when it was carried out. -/
def Begins (u : List Notice) (c : Context) : Prop := u = [] ∧ c = c₀

def Ends (command : Command) (c₀ : Context) (u : List Notice) (c : Context) : Prop :=
  u = command.notices c₀ ∧ command.Leaves c₀ c

/-- A widget is announced unless the host knows it. -/
theorem tells_notices {name : String} {shape : Widget.Shape}
    (h : command.widget? = some (name, shape)) :
    Action.Tells (.noticing (command.notices c₀)) (Begins c₀) (command.Ends c₀) name shape := by
  have hothers : command.message? = none ∧ command.resumes = false := by
    cases command <;> first | exact ⟨rfl, rfl⟩ | cases h
  have hread (u : List Notice) : (Protocol.noticing (command.notices c₀)).Allows u (.widgetValue name) ∧
      ∀ x, (Protocol.noticing (command.notices c₀)).after u (.widgetValue name) x = u :=
    noticing_silent u rfl
  refine ⟨?_, ?_⟩
  · rintro u c ⟨rfl, rfl⟩ hknown
    refine ⟨(hread []).1, fun x => ⟨?_, ?_, ?_⟩⟩
    · rw [(hread []).2 x]
      simp [notices, h, hknown]
    · simp [h, hknown]
    · simp [hothers.1, hothers.2]
  · rintro u c ⟨rfl, rfl⟩ hknown
    have hexpected : command.notices c = [.widget name shape] := by simp [notices, h, hknown]
    refine ⟨(noticing_silent _ rfl).1, ?_, (hread _).1, fun x => ⟨?_, ?_, ?_⟩⟩
    · rintro n ⟨⟩
      rw [hexpected]
      exact List.prefix_refl _
    · rw [(hread _).2 x, hexpected]
      rfl
    · simp [h, hknown]
    · simp [hothers.1, hothers.2, Context.declaring]

/-- **A command tells of what is expected of it**, whatever its requests are answered with. -/
theorem takes_notices (command : Command) (c₀ : Context) :
    Action.Takes (.noticing (command.notices c₀)) (Begins c₀) (fun _ => command.Ends c₀)
      (Primitive.perform command) := by
  cases hw : command.widget? with
  | some w =>
      have htells := tells_notices c₀ hw
      cases command <;> cases hw
      · exact .map (Action.widget_takes takes_plain htells)
      · exact .bind (Action.request_takes takes_plain rfl fun _ => .pure fun _ _ h => h) fun _ =>
          .map (Action.widget_takes takes_plain htells)
      · exact .map (Action.widget_takes takes_plain htells)
  | none =>
      cases hm : command.message? with
      | some m =>
          cases command <;> cases hm
          refine .map (Action.log_takes (C := fun _ => _) ?_)
          rintro u c ⟨rfl, rfl⟩
          exact ⟨_, noticing_writes _ (List.prefix_refl _), rfl, rfl, rfl⟩
      | none =>
          have hnotices : command.notices c₀ = [] := by simp [notices, hw, hm]
          cases hr : command.resumes with
          | true =>
              have hresumed (u : List Notice) (c : Context) (h : Begins c₀ u c) :
                  command.Ends c₀ u { c with logger := c.logger.resetFrame } := by
                obtain ⟨rfl, rfl⟩ := h
                exact ⟨hnotices.symm, by simp [hw], by simp [hm, hr]⟩
              cases command <;> cases hr
              · refine .map (.bind (.get fun c => Action.post_takes takes_plain
                  (B := Begins c₀) ?_) fun _ => Action.awaitFrame_takes takes_plain hresumed)
                rintro u c' ⟨hu, rfl⟩
                obtain ⟨hallowed, hafter⟩ := noticing_silent u
                  (r := .post (.render c'.filter)) rfl
                exact ⟨hallowed, (hafter true).symm ▸ hu⟩
              · exact .map (Action.awaitFrame_takes takes_plain hresumed)
          | false =>
              have hspares : command.Spares (.noticing (command.notices c₀)) (command.Ends c₀) := by
                refine
                  { plain := takes_plain
                    stop := fun _ {_ _} _ => trivial
                    random := fun _ h => ⟨h.1, h.2.declared, h.2.logger⟩
                    edit := fun {_} _ {_ _} h => ⟨h.1, h.2.declared, h.2.logger⟩
                    post := fun {u _ _} hm h => ?_
                    resume := fun h => ?_
                    log := fun {_ _} h => ?_
                    widget := fun {_ _} h => ?_ }
                · obtain ⟨hallowed, hafter⟩ := noticing_silent u (notice?_of_posts hm)
                  exact ⟨hallowed, (hafter true).symm ▸ h⟩
                · cases hr.symm.trans h
                · cases hm.symm.trans h
                · cases hw.symm.trans h
              refine hspares.perform_takes.mono ?_
              rintro u c ⟨rfl, rfl⟩
              exact ⟨hnotices.symm, by simp [hw], by simp [hm, hr]⟩

end Kinds

variable {xs : List Exchange} {c' : Context}

/-- A command that was given up has told of a part. -/
theorem notices_prefix {t : Thread (Except Cancelled Primitive.Result × Context)}
    (h : ((Primitive.perform command).run.run c).Goes xs t) :
    FilterScript.notices xs <+: command.notices c :=
  ((takes_notices command c).goes ⟨rfl, rfl⟩ h).1

/-- A command tells of at most one thing. -/
theorem length_notices_le (command : Command) (c : Context) : (command.notices c).length ≤ 1 := by
  unfold notices
  split
  · split <;> simp
  next level text _ _ =>
    rw [List.length_map]
    unfold Logger.log
    dsimp only
    split
    · simp
    · split <;> simp
  · simp

/-- So it has told of nothing or of everything, wherever it was given up. -/
theorem notices_eq_or {t : Thread (Except Cancelled Primitive.Result × Context)}
    (h : ((Primitive.perform command).run.run c).Goes xs t) :
    FilterScript.notices xs = [] ∨ FilterScript.notices xs = command.notices c := by
  have hpart := notices_prefix h
  have hone := command.length_notices_le c
  by_cases hnothing : (FilterScript.notices xs).length = 0
  · exact .inl (List.length_eq_zero_iff.mp hnothing)
  · exact .inr (hpart.eq_of_length_le (by omega))

/-- A command that was carried out has told of everything. -/
theorem ends_of_goes {v : Primitive.Result}
    (h : ((Primitive.perform command).run.run c).Goes xs (.done (.ok v, c'))) :
    command.Ends c (FilterScript.notices xs) c' :=
  ((takes_notices command c).goes ⟨rfl, rfl⟩ h).2 v c' rfl

end Command

end FilterScript
