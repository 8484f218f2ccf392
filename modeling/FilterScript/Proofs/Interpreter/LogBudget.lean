/-
The log has an exact budget in each frame.

The budget counts the messages of a frame, and it notes whether it gave the warning.  Its counter stops
at the largest number of thirty-two bits, where it can no longer tell how many messages there were; no
limit is larger than that, so by then all are dropped.  `Logger.Spent` says what the counter and the note
are behind any number of messages, and that is the invariant: one message spends one more
(`Spent.log`), and a resumption starts anew whatever came before (`Spent.resetFrame`).

A run is cut into frames where it was resumed, and in each frame the messages within the limit are
written as they are, behind them one warning if there are more.
-/
import FilterScript.Proofs.Interpreter.Course
import FilterScript.Proofs.Interpreter.Orphans
import FilterScript.Proofs.Script.Notices

namespace FilterScript

namespace Logger

variable {l : Logger} {limit n : Nat} {level : LogLevel} {text : String}

/-- A budget of which `n` messages of a frame were counted. -/
structure Spent (l : Logger) (limit n : Nat) : Prop where
  bound : l.limit = limit
  /-- The counter stops at its largest number. -/
  count : l.count = min n largestCount
  /-- The warning was given if one message was too many. -/
  warned : l.warned = decide (limit < n)

theorem spent_ofLimit (limit : Nat) : (ofLimit limit).Spent limit 0 :=
  ⟨rfl, rfl, by simp [ofLimit]⟩

theorem Spent.resetFrame (h : l.Spent limit n) : l.resetFrame.Spent limit 0 := by
  rw [Logger.resetFrame, h.bound]
  exact spent_ofLimit limit

/-- What is written of the message that comes behind `n` others. -/
def written (limit n : Nat) (r : LogRecord) : List LogRecord :=
  if n < limit then [r] else if n = limit then [(ofLimit limit).overrun] else []

/-- A message is accepted exactly as long as the limit is not reached, however many there were. -/
theorem Spent.log (h : l.Spent limit n) (hlimit : limit ≤ largestCount) (level : LogLevel)
    (text : String) : (l.log level text).1 = decide (n < limit) ∧
      (l.log level text).2.1 = written limit n ⟨level, text⟩ ∧
      (l.log level text).2.2.Spent limit (n + 1) := by
  have hcount : min (l.count + 1) largestCount = min (n + 1) largestCount := by
    rw [h.count]
    omega
  have haccepted : (l.count < l.limit) ↔ n < limit := by
    rw [h.count, h.bound]
    omega
  unfold Logger.log accept
  by_cases hn : n < limit
  · have hnot : ¬ limit < n := by omega
    simp only [haccepted.mpr hn, decide_true, if_true, written, hn]
    exact ⟨trivial, trivial, h.bound, hcount, by rw [h.warned]; simp; omega⟩
  · have hrefused : ¬ l.count < l.limit := fun hc => hn (haccepted.mp hc)
    simp only [hrefused, decide_false, Bool.false_eq_true, if_false, h.warned, written, hn]
    by_cases hover : limit < n
    · have hne : ¬ n = limit := by omega
      simp only [hover, decide_true, if_true, hne, if_false]
      exact ⟨trivial, trivial, h.bound, hcount, by simp; omega⟩
    · have heq : n = limit := by omega
      simp only [heq, Nat.lt_irrefl, decide_false, Bool.false_eq_true, if_false, if_true]
      exact ⟨trivial, by rw [overrun, h.bound]; rfl, h.bound, heq ▸ hcount, by simp⟩

/-- What is written of the messages of a frame: those within the limit, and one warning if there are
more. -/
def budget (limit : Nat) (rs : List LogRecord) : List LogRecord :=
  rs.take limit ++ if limit < rs.length then [(ofLimit limit).overrun] else []

theorem budget_append_singleton (limit : Nat) (rs : List LogRecord) (r : LogRecord) :
    budget limit (rs ++ [r]) = budget limit rs ++ written limit rs.length r := by
  unfold budget written
  rw [List.length_append, List.length_singleton]
  by_cases hn : rs.length < limit
  · have hall : (rs ++ [r]).length ≤ limit := by
      rw [List.length_append, List.length_singleton]
      omega
    rw [List.take_of_length_le hall, List.take_of_length_le (Nat.le_of_lt hn), if_neg (by omega),
      if_neg (by omega), if_pos hn]
    simp
  · rw [List.take_append_of_le_length (by omega), if_pos (by omega), if_neg hn]
    by_cases hover : limit < rs.length
    · rw [if_pos hover, if_neg (by omega), List.append_nil]
    · rw [if_neg hover, if_pos (by omega), List.append_nil]

end Logger

/-! ### What a run logs -/

/-- The record of which a notice tells. -/
def Notice.record? : Notice → Option LogRecord
  | widget _ _ => none
  | record r => some r

@[simp] theorem filterMap_record_map (rs : List LogRecord) :
    (rs.map Notice.record).filterMap Notice.record? = rs := by
  rw [List.filterMap_map]
  exact List.filterMap_some

/-- What some exchanges write to the log. -/
def logged (xs : List Exchange) : List LogRecord := (notices xs).filterMap Notice.record?

/-- The message that a command logs, as it is written. -/
def Command.record? (command : Command) : Option LogRecord :=
  command.message?.map fun m => ⟨m.1, m.2⟩

/-- The messages that some commands log. -/
def messages (commands : List Command) : List LogRecord := commands.filterMap Command.record?

/-- The frames of a run: its commands, cut where it was resumed. -/
def frames (commands : List Command) : List (List Command) := commands.splitOnP Command.resumes

/-- What is written of all frames. -/
def writtenOf (limit : Nat) (commands : List Command) : List LogRecord :=
  (frames commands).flatMap fun frame => Logger.budget limit (messages frame)

theorem writtenOf_frame {limit : Nat} {frame : List Command}
    (h : ∀ command ∈ frame, command.resumes = false) :
    writtenOf limit frame = Logger.budget limit (messages frame) := by
  rw [writtenOf, frames, List.splitOnP_eq_singleton h, List.flatMap_singleton]

/-- What is written of a frame, and behind the resumption of all others. -/
theorem writtenOf_append_cons {limit : Nat} {frame rest : List Command} {command : Command}
    (h : ∀ command ∈ frame, command.resumes = false) (hresumes : command.resumes = true) :
    writtenOf limit (frame ++ command :: rest) =
      Logger.budget limit (messages frame) ++ writtenOf limit rest := by
  rw [writtenOf, frames, List.splitOnP_append_cons_of_forall_mem h _ hresumes, List.flatMap_cons]
  rfl

variable {limit n : Nat} {command : Command} {commands during : List Command} {start c c' : Context}
  {xs ys : List Exchange} {t : Thread (Except Cancelled Script.Value × Context)}

theorem logged_append (xs ys : List Exchange) : logged (xs ++ ys) = logged xs ++ logged ys := by
  simp [logged, notices]

theorem messages_append_singleton (commands : List Command) (command : Command) :
    messages (commands ++ [command]) = messages commands ++ command.record?.toList := by
  cases hrecord : command.record? <;> simp [messages, hrecord]

/-- What a command writes is what the budget answers. -/
theorem Command.filterMap_record (command : Command) (c : Context) :
    (command.notices c).filterMap Notice.record? =
      match command.record? with
      | some r => (c.logger.log r.level r.text).2.1
      | none => [] := by
  unfold notices record?
  cases hw : command.widget? with
  | some w =>
      have hm : command.message? = none := by
        cases command <;> first | rfl | cases hw
      obtain ⟨name, shape⟩ := w
      rw [hm]
      cases hknown : c.knows name shape <;> simp [hknown, Notice.record?]
  | none =>
      cases hm : command.message? with
      | none => rfl
      | some m => exact filterMap_record_map _

theorem Command.record_notices (command : Command) (h : c.logger.Spent limit n)
    (hlimit : limit ≤ Logger.largestCount) : (command.notices c).filterMap Notice.record? =
      match command.record? with
      | some r => Logger.written limit n r
      | none => [] := by
  rw [command.filterMap_record c]
  cases command.record? with
  | none => rfl
  | some r => exact (h.log hlimit r.level r.text).2.1

/-- A message spends one more of the budget, and a resumption starts anew. -/
theorem Command.Leaves.spent (hleaves : command.Leaves c c') (h : c.logger.Spent limit n)
    (hlimit : limit ≤ Logger.largestCount) : c'.logger.Spent limit
      (match command.record? with
      | some _ => n + 1
      | none => if command.resumes then 0 else n) := by
  rw [hleaves.logger]
  unfold record?
  cases hm : command.message? with
  | some m => exact (h.log hlimit m.1 m.2).2.2
  | none =>
      cases hr : command.resumes with
      | true => exact h.resetFrame
      | false => exact h

/-- **Within a frame** the messages are written that the budget lets through. -/
theorem CarriesOut.frame (h : CarriesOut c during xs c') (hspent : c.logger.Spent limit 0)
    (hlimit : limit ≤ Logger.largestCount) (hduring : ∀ command ∈ during, command.resumes = false) :
    logged xs = Logger.budget limit (messages during) ∧
      c'.logger.Spent limit (messages during).length := by
  induction h with
  | nil => exact ⟨by simp [messages, logged, notices, Logger.budget], hspent⟩
  | @snoc during command xs ys c₁ c' v _ hdone ih =>
      obtain ⟨hlogged, hspent₁⟩ := ih fun command h => hduring command (by simp [h])
      obtain ⟨hnotices, hleaves⟩ := Command.ends_of_goes hdone
      have hwritten := command.record_notices hspent₁ hlimit
      have hspent' := hleaves.spent hspent₁ hlimit
      rw [hduring command (by simp)] at hspent'
      rw [logged_append, hlogged, logged, hnotices, hwritten, messages_append_singleton]
      cases hrecord : command.record? with
      | some r =>
          rw [hrecord] at hspent'
          rw [Option.toList_some, Logger.budget_append_singleton, List.length_append]
          exact ⟨rfl, hspent'⟩
      | none =>
          rw [hrecord] at hspent'
          rw [Option.toList_none, List.append_nil, List.append_nil]
          exact ⟨rfl, hspent'⟩

theorem Command.record?_of_resumes (h : command.resumes = true) : command.record? = none := by
  cases command <;> first | rfl | cases h

/-- A command that waits for a frame writes nothing, and the budget starts anew behind it. -/
theorem CarriesOut.resumption (h : CarriesOut c [command] xs c') (hspent : c.logger.Spent limit n)
    (hlimit : limit ≤ Logger.largestCount) (hresumes : command.resumes = true) :
    logged xs = [] ∧ c'.logger.Spent limit 0 := by
  obtain ⟨v, hdone⟩ := h.of_singleton
  obtain ⟨hnotices, hleaves⟩ := Command.ends_of_goes hdone
  have hwritten := command.record_notices hspent hlimit
  have hspent' := hleaves.spent hspent hlimit
  rw [Command.record?_of_resumes hresumes] at hwritten hspent'
  rw [hresumes] at hspent'
  exact ⟨by rw [logged, hnotices, hwritten], hspent'⟩

/-- **So it is in each frame of a run.** -/
theorem CarriesOut.logged_eq (h : CarriesOut c commands xs c') (hspent : c.logger.Spent limit 0)
    (hlimit : limit ≤ Logger.largestCount) : logged xs = writtenOf limit commands := by
  -- The frames are gone through one after the other, so the induction is on what is left.
  induction hlength : commands.length using Nat.strongRecOn generalizing commands c xs with
  | _ k ih =>
      cases hfirst : commands.find? Command.resumes with
      | none =>
          have hnone : ∀ command ∈ commands, command.resumes = false := by
            intro command hcommand
            simpa using List.find?_eq_none.mp hfirst command hcommand
          rw [(h.frame hspent hlimit hnone).1, writtenOf_frame hnone]
      | some command =>
          obtain ⟨hresumes, during, rest, rfl, hbefore⟩ := List.find?_eq_some_iff_append.mp hfirst
          have hduring : ∀ command ∈ during, command.resumes = false := by
            intro command hcommand
            simpa using hbefore command hcommand
          obtain ⟨ys, zs, c₁, rfl, hframe, hafter⟩ := h.of_append
          have hcut : CarriesOut c₁ ([command] ++ rest) zs c' := hafter
          obtain ⟨ws, ws', c₂, rfl, hresumption, hrest⟩ := hcut.of_append
          obtain ⟨hlogged, hspent₁⟩ := hframe.frame hspent hlimit hduring
          obtain ⟨hnothing, hspent₂⟩ := hresumption.resumption hspent₁ hlimit hresumes
          have hlater := ih rest.length (by simp at hlength; omega) hrest hspent₂ rfl
          rw [logged_append, logged_append, hlogged, hnothing, hlater, List.nil_append,
            writtenOf_append_cons hduring hresumes]

/-! ### Wherever a run stands -/

/-- The budget of a run is spent in part, and never in another way. -/
theorem CarriesOut.spent (h : CarriesOut c commands xs c') (hspent : c.logger.Spent limit n)
    (hlimit : limit ≤ Logger.largestCount) : ∃ n, c'.logger.Spent limit n := by
  induction h with
  | nil => exact ⟨n, hspent⟩
  | snoc _ hdone ih =>
      obtain ⟨n', hspent'⟩ := ih
      exact ⟨_, (Command.ends_of_goes hdone).2.spent hspent' hlimit⟩

/-- Behind a resumption, or at the beginning, it is spent by the messages since then. -/
theorem CarriesOut.spent_since {before : List Command} (h : CarriesOut start (before ++ during) xs c)
    (hspent : start.logger.Spent limit 0) (hlimit : limit ≤ Logger.largestCount)
    (hbefore : ∀ last ∈ before.getLast?, last.resumes = true)
    (hduring : ∀ command ∈ during, command.resumes = false) :
    c.logger.Spent limit (messages during).length := by
  obtain ⟨ys, zs, c₁, rfl, hfirst, hframe⟩ := h.of_append
  suffices c₁.logger.Spent limit 0 from (hframe.frame this hlimit hduring).2
  rcases List.eq_nil_or_concat before with rfl | ⟨earlier, last, rfl⟩
  · obtain ⟨-, rfl⟩ := hfirst.of_nil
    exact hspent
  · rw [List.concat_eq_append] at hfirst hbefore
    obtain ⟨ws, ws', c₂, rfl, hearlier, hlast⟩ := hfirst.of_append
    obtain ⟨n, hn⟩ := hearlier.spent hspent hlimit
    exact (hlast.resumption hn hlimit (hbefore last (by simp))).2

/-! ### Calls of the log -/

/-- A message can be logged wherever a run stands. -/
theorem exists_log (level : LogLevel) (text : String) (c : Context) :
    ∃ ys b c', ((Action.log level text).run.run c).Goes ys (.done (.ok b, c')) := by
  have hwrite (records : List LogRecord) (c : Context) : ∃ ys,
      ((records.forM fun r => do let _ ← Action.request (.log r) : Action Unit).run.run c).Goes ys
        (.done (.ok (), c)) := by
    induction records with
    | nil => exact ⟨[], .stay _⟩
    | cons r rest ih =>
        obtain ⟨ys, h⟩ := ih
        exact ⟨⟨.log r, ()⟩ :: ys, .ask h⟩
  obtain ⟨ys, h⟩ := hwrite (c.logger.log level text).2.1
    { c with logger := (c.logger.log level text).2.2 }
  exact ⟨ys, (c.logger.log level text).1, _, h.bind _⟩

/-- A call answers whether its message was accepted, and writes what the budget answers. -/
theorem goes_log {level : LogLevel} {text : String} {b : Bool}
    (h : ((Action.log level text).run.run c).Goes xs (.done (.ok b, c'))) :
    b = (c.logger.log level text).1 ∧ logged xs = (c.logger.log level text).2.1 := by
  have htakes : Action.Takes (.noticing ((c.logger.log level text).2.1.map .record))
      (fun u c' => u = [] ∧ c' = c) (fun b u _ => b = (c.logger.log level text).1 ∧
        u = (c.logger.log level text).2.1.map .record) (Action.log level text) := by
    refine Action.log_takes ?_
    rintro u c' ⟨rfl, rfl⟩
    exact ⟨_, Command.noticing_writes _ (List.prefix_refl _), rfl, rfl⟩
  obtain ⟨hb, hnotices⟩ := (htakes.goes ⟨rfl, rfl⟩ h).2 b c' rfl
  refine ⟨hb, ?_⟩
  rw [logged, hnotices, filterMap_record_map]

/-- **At every moment of a run** the frames have written what they may; a message counts from when it is
written. -/
theorem Accounted.logged_eq (h : Accounted start xs) (hspent : start.logger.Spent limit 0)
    (hlimit : limit ≤ Logger.largestCount) :
    ∃ commands, (∀ command ∈ commands, command.IsMade) ∧ logged xs = writtenOf limit commands := by
  obtain ⟨commands, command, ys, c, hmade, hcourse, htold⟩ := h.notices
  obtain ⟨hcommand, hcommands⟩ := List.forall_mem_cons.mp hmade
  have hlogged := hcourse.logged_eq hspent hlimit
  rcases htold with hsame | hmore
  · exact ⟨commands, hcommands, by rw [logged, hsame]; exact hlogged⟩
  · rw [logged, hmore, List.filterMap_append, ← logged]
    cases hm : command.message? with
    | none =>
        have hnone : (command.notices c).filterMap Notice.record? = [] := by
          rw [command.filterMap_record c, Command.record?, hm]
          rfl
        exact ⟨commands, hcommands, by rw [hnone, List.append_nil, hlogged]⟩
    | some m =>
        -- Nothing keeps a message that was written from being carried out.
        cases command <;> cases hm
        case log.refl level text =>
          obtain ⟨zs, b, c', hdone⟩ := exists_log level text c
          have hperform : ((Primitive.perform (.log level text)).run.run c).Goes zs
              (.done (.ok (.ok .unit), c')) := hdone.bind _
          have hcarried := hcourse.snoc hperform
          refine ⟨commands ++ [.log level text], by
            simpa [or_imp, forall_and] using ⟨hcommands, hcommand⟩, ?_⟩
          rw [← hcarried.logged_eq hspent hlimit, logged_append, (goes_log hdone).2,
            Command.filterMap_record]
          rfl

/-! ### The log of the session -/

theorem log_answer {queued : Continuation → Bool} {q : Request} {l l' : Link}
    {shared shared' : Surroundings} {x : q.Reply}
    (h : q.answer queued l shared = some (x, l', shared')) :
    shared'.log = shared.log ++ logged [⟨q, x⟩] := by
  cases q <;> simp only [Request.answer] at h
  case post m =>
    cases h
    cases hopen : l.isOpen <;> cases m <;>
      simp [logged, notices, Exchange.notice?, Request.notice?, Notice.record?]
  case await =>
    split at h
    · cases h
      exact (List.append_nil _).symm
    · split at h <;> cases h
      exact (List.append_nil _).symm
  case elapsed => split at h <;> cases h; exact (List.append_nil _).symm
  case delta => split at h <;> cases h; exact (List.append_nil _).symm
  all_goals
    cases h
    first | rfl | exact (List.append_nil _).symm

theorem log_advanceRun {s s' : Session} {r : RunId} (h : s.advanceRun r = some s') :
    s'.surroundings.log = s.surroundings.log ++ logged (s.exchange r) := by
  obtain ⟨w, u, l, hw, hstep, -, -⟩ := Session.advanceRun_some h
  rcases Thread.step_cases hstep with ⟨hspin, -, -, hshared⟩ | ⟨q, k, x, hask, -, ha⟩
  · have hnone : s.exchange r = [] := by simp only [Session.exchange, hw, hspin]
    rw [hnone, hshared]
    exact (List.append_nil _).symm
  · rw [Session.exchange_of_answer hw hask ha]
    have hlog := log_answer ha
    exact hlog

namespace System

theorem log_call (s : Session) (c : Call) :
    (call s c).1.session.surroundings.log = s.surroundings.log := by
  cases c with
  | start script moment => simp [call, Session.flag]
  | close => simp [call, Session.flag]
  | _ => rfl

/-- The log of the session holds what the runs write, in the order of their steps. -/
theorem log_step (S : System) (m : Move) : (S.step m).1.session.surroundings.log =
    S.session.surroundings.log ++ match m with
      | .thread r => logged (S.session.exchange r)
      | _ => [] := by
  cases m with
  | call c =>
      rw [List.append_nil, step]
      split
      · exact log_call S.session c
      · rfl
  | host => exact (congrArg Surroundings.log (surroundings_goOn S.session S.phase)).trans (by simp)
  | giveUp =>
      rw [List.append_nil, step]
      split <;> rfl
  | thread r =>
      cases ha : S.session.advanceRun r with
      | some s => simpa [step, ha] using log_advanceRun ha
      | none => simp [step, ha, Session.exchange_of_none ha, logged, notices]
  | wait time => exact (List.append_nil _).symm

end System

/-- How the log of a run is kept within its budget. -/
structure KeepsBudget (config : Config) (r : RunId) (start : Context) (limit : Nat) : Prop where
  /-- In each frame the first messages are written, as many as the limit allows, and one warning if there
  are more. -/
  written : ∀ {commands xs c}, CarriesOut start commands xs c → logged xs =
    (frames commands).flatMap fun frame =>
      (messages frame).take limit ++
        if limit < (messages frame).length then [(Logger.ofLimit limit).overrun] else []
  /-- So it is at every moment of every history. -/
  runs : ∀ platform ms script, System.Begun config platform ms r script → ∃ commands,
    (∀ command ∈ commands, command.IsMade) ∧
      logged ((System.ofConfig config platform).exchanges r ms) = (frames commands).flatMap fun frame =>
        (messages frame).take limit ++
          if limit < (messages frame).length then [(Logger.ofLimit limit).overrun] else []
  /-- A call answers whether its message is written, which depends on how many there were since the run
  was resumed or began.  The first message that is too many is answered by the warning. -/
  answered : ∀ {before during xs c}, CarriesOut start (before ++ during) xs c →
    (∀ last ∈ before.getLast?, last.resumes = true) →
    (∀ command ∈ during, command.resumes = false) → ∀ level text,
      let n := (messages during).length
      (∃ ys b c', ((Action.log level text).run.run c).Goes ys (.done (.ok b, c'))) ∧
        ∀ ys b c', ((Action.log level text).run.run c).Goes ys (.done (.ok b, c')) →
          b = decide (n < limit) ∧
            logged ys = if n < limit then [⟨level, text⟩]
              else if n = limit then [(Logger.ofLimit limit).overrun] else []
  /-- The log of the session holds what the runs write, in the order of their steps. -/
  appended : ∀ (S : System) m, (S.step m).1.session.surroundings.log =
    S.session.surroundings.log ++ match m with
      | .thread r => logged (S.session.exchange r)
      | _ => []

/-- **The budget of the log is exact in every frame**, for every limit and any number of messages. -/
theorem keeps_budget (config : Config) (r : RunId) :
    KeepsBudget config r (.fresh r config.logLimitPerFrame.toNat) config.logLimitPerFrame.toNat := by
  have hspent := Logger.spent_ofLimit config.logLimitPerFrame.toNat
  have hlimit : config.logLimitPerFrame.toNat ≤ Logger.largestCount :=
    Nat.le_sub_one_of_lt config.logLimitPerFrame.toNat_lt
  refine
    { written := fun h => h.logged_eq hspent hlimit
      runs := fun platform ms script h => h.accounted.logged_eq hspent hlimit
      answered := ?_
      appended := System.log_step }
  intro before during xs c h hbefore hduring level text
  have hn := h.spent_since hspent hlimit hbefore hduring
  obtain ⟨haccepted, hwritten, -⟩ := hn.log hlimit level text
  refine ⟨exists_log level text c, fun ys b c' hgoes => ?_⟩
  obtain ⟨hb, hlogged⟩ := goes_log hgoes
  exact ⟨hb.trans haccepted, hlogged.trans hwritten⟩

end FilterScript
