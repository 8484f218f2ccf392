/-
Every choice is a function of the seed and of how much was drawn.

A stream is known by its cursor: the seed it was last restarted from, and the number of draws since.
One step shows that a successful draw uses the next word of that seed's stream, whatever it is for,
and that a choice among nothing leaves the cursor where it is; a history is an induction over its
steps.  So two histories that agree on the last seed and on the number of successful draws since then
cannot be told apart.

What a draw makes of its word is arithmetic.  An index is the upper half of a product of one hundred
and twenty-eight bits, which cannot overflow; and a number from zero up to one has twenty-four bits,
which is what a single-precision mantissa holds, so neither of the two conversions rounds.
-/
import FilterScript.Primitive.Basic
import FilterScript.Proofs.Number.Single

namespace FilterScript

open Script

theorem Generator.output_lt (g : Generator) : g.output < 2 ^ 64 := by
  unfold output
  dsimp only
  omega

theorem Generator.word_lt (s : UInt64) (k : Nat) : Generator.word s k < 2 ^ 64 := by
  unfold word
  exact output_lt _

/-- The states after one step more, counted from the front.  `next` is made a variable first: the
factor that is in it is too large for two states to be compared by computation. -/
theorem Generator.steps_next (k : Nat) (g : Generator) : g.steps (k + 1) = g.next.steps k := by
  delta steps steps._f
  generalize Generator.next = next
  rfl

theorem Generator.steps_succ (k : Nat) (g : Generator) : g.steps (k + 1) = (g.steps k).next := by
  induction k generalizing g with
  | zero => exact steps_next 0 g
  | succ k ih => rw [steps_next, ih, ← steps_next]

namespace Random

variable {α : Type}

/-! ### Operations -/

/-- What is drawn for. -/
inductive Draw (α : Type) where
  | index (n : Nat)
  | choose (items : List α)
  | number

/-- What is done with a stream. -/
inductive Operation (α : Type) where
  | seed (s : UInt64)
  | draw (d : Draw α)

/-- What an operation answers. -/
inductive Answer (α : Type) where
  | restarted
  | index (i : Option Nat)
  | item (x : Option α)
  | number (x : Single)

/-- Does one thing with a stream. -/
def apply (r : Random) : Operation α → Answer α × Random
  | .seed s => (.restarted, .ofSeed s)
  | .draw (.index n) =>
    let (i, r) := r.index n
    (.index i, r)
  | .draw (.choose items) =>
    let (x, r) := r.choose items
    (.item x, r)
  | .draw .number =>
    let (x, r) := r.number
    (.number x, r)

/-- The stream after some operations. -/
def after (r : Random) (history : List (Operation α)) : Random :=
  history.foldl (fun r o => (r.apply o).2) r

/-- Whether there is something to draw from. -/
def Draw.succeeds : Draw α → Bool
  | index n => 0 < n
  | choose items => 0 < items.length
  | number => true

/-- What a draw answers to a word. -/
def Draw.answer (word : Nat) : Draw α → Answer α
  | index n => .index (some (select word n))
  | choose items => .item items[select word items.length]?
  | number => .number (unit word)

/-- What a draw answers that does not succeed. -/
def Draw.nothing : Draw α → Answer α
  | index _ => .index none
  | choose _ => .item none
  | number => .restarted

/-- How many of some draws succeed. -/
def drawn (draws : List (Draw α)) : Nat := draws.countP Draw.succeeds

/-- The stream of a seed after some draws. -/
def ofCursor (s : UInt64) (k : Nat) : Random := ⟨k, (Generator.ofSeed s).steps k⟩

/-! ### The cursor -/

theorem draw_ofCursor (s : UInt64) (k : Nat) :
    (ofCursor s k).draw = (Generator.word s (k + 1), ofCursor s (k + 1)) := by
  unfold draw ofCursor Generator.word
  rw [Generator.steps_succ]

/-- A draw that succeeds uses the next word of the stream, and no other. -/
theorem apply_of_succeeds {d : Draw α} (h : d.succeeds = true) (s : UInt64) (k : Nat) :
    (ofCursor s k).apply (.draw d) = (d.answer (Generator.word s (k + 1)), ofCursor s (k + 1)) := by
  cases d with
  | index n =>
      have hn : n ≠ 0 := by
        rintro rfl
        cases h
      simp only [apply, index, hn, ↓reduceIte, draw_ofCursor, Draw.answer]
  | choose items =>
      have hn : items.length ≠ 0 := by
        intro hn
        simp [Draw.succeeds, hn] at h
      simp only [apply, choose, index, hn, ↓reduceIte, draw_ofCursor, Draw.answer, Option.bind_some]
  | number => simp only [apply, number, draw_ofCursor, Draw.answer]

/-- A stream has nothing to choose from nothing, and draws no word for that. -/
theorem choose_nil (r : Random) : r.choose ([] : List α) = (none, r) := rfl

/-- A choice among nothing answers nothing, and the stream stays. -/
theorem apply_of_fails {d : Draw α} (h : d.succeeds = false) (r : Random) :
    r.apply (.draw d) = (d.nothing, r) := by
  cases d with
  | index n =>
      have hn : n = 0 := by simpa [Draw.succeeds] using h
      simp only [apply, index, hn, ↓reduceIte, Draw.nothing]
  | choose items =>
      have hn : items = [] := by simpa [Draw.succeeds] using h
      simp only [apply, hn, choose_nil, Draw.nothing]
  | number => cases h

/-- After some draws the cursor stands behind those that succeeded. -/
theorem after_draws (s : UInt64) (k : Nat) (draws : List (Draw α)) :
    (ofCursor s k).after (draws.map .draw) = ofCursor s (k + drawn draws) := by
  induction draws generalizing k with
  | nil => rfl
  | cons d rest ih =>
      show ((ofCursor s k).apply (.draw d)).2.after (rest.map .draw) = _
      cases hd : d.succeeds with
      | true =>
          rw [apply_of_succeeds hd, ih]
          unfold drawn
          rw [List.countP_cons_of_pos hd, Nat.add_right_comm, Nat.add_assoc]
      | false =>
          rw [apply_of_fails hd, ih]
          unfold drawn
          rw [List.countP_cons_of_neg (by simp [hd])]

/-- Whatever was done before, a restart leaves nothing of it. -/
theorem after_restart (start : Random) (before : List (Operation α)) (s : UInt64)
    (draws : List (Draw α)) :
    start.after (before ++ .seed s :: draws.map .draw) = ofCursor s (drawn draws) := by
  have restarted : start.after (before ++ .seed s :: draws.map .draw) =
      (ofCursor s 0).after (draws.map .draw) := by
    unfold after
    rw [List.foldl_append]
    rfl
  rw [restarted, after_draws, Nat.zero_add]

/-! ### What is made of a word -/

/-- An index is below the number of things to choose from. -/
theorem select_lt {word n : Nat} (hw : word < 2 ^ 64) (hn : 0 < n) : select word n < n := by
  unfold select
  rw [Nat.div_lt_iff_lt_mul (Nat.two_pow_pos 64), Nat.mul_comm n]
  exact Nat.mul_lt_mul_of_pos_right hw hn

/-- The index is what a machine computes that multiplies at one hundred and twenty-eight bits and keeps
the upper half. -/
theorem select_eq_widening {word : Nat} (hw : word < 2 ^ 64) (n : UInt64) :
    select word n.toNat =
      ((((BitVec.ofNat 128 word) * (n.toBitVec.setWidth 128)) >>> 64).setWidth 64).toNat := by
  have hn : n.toNat < 2 ^ 64 := n.toNat_lt
  have hproduct : word * n.toNat < 2 ^ 128 := by
    calc word * n.toNat < 2 ^ 64 * 2 ^ 64 := Nat.mul_lt_mul'' hw hn
      _ = 2 ^ 128 := by norm_num
  have hhalf : word * n.toNat / 2 ^ 64 < 2 ^ 64 := by omega
  rw [BitVec.toNat_setWidth, BitVec.toNat_ushiftRight, BitVec.toNat_mul, BitVec.toNat_ofNat,
    BitVec.toNat_setWidth, UInt64.toNat_toBitVec, Nat.mod_eq_of_lt (by omega : word < 2 ^ 128),
    Nat.mod_eq_of_lt (by omega : n.toNat < 2 ^ 128), Nat.mod_eq_of_lt hproduct,
    Nat.shiftRight_eq_div_pow, Nat.mod_eq_of_lt hhalf]
  rfl

/-- The top twenty-four bits of a word. -/
theorem top_lt {word : Nat} (hw : word < 2 ^ 64) : word / 2 ^ 40 < 2 ^ 24 := by omega

/-- A number that is drawn is the top of its word, over `2 ^ 24`; nothing is rounded. -/
theorem has_unit {word : Nat} (hw : word < 2 ^ 64) :
    (unit word).Has false (((word / 2 ^ 40 : Nat) : ℚ) / 2 ^ 24) := by
  have h := Single.has_ofRatio_exact false (n := word / 2 ^ 40) (d := 2 ^ 24) (e := -24)
    (Nat.two_pow_pos 24) (top_lt hw) (by omega) (by omega) (by norm_num [div_eq_mul_inv])
  rwa [show ((2 ^ 24 : Nat) : ℚ) = 2 ^ 24 by norm_num] at h

/-- The number is one conversion of the top bits and one division by `2 ^ 24`. -/
theorem unit_eq_div {word : Nat} (hw : word < 2 ^ 64) :
    unit word = Single.ofNat (word / 2 ^ 40) / Single.ofNat (2 ^ 24) := by
  have htop : (Single.ofNat (word / 2 ^ 40)).Has false (((word / 2 ^ 40 : Nat) : ℚ) / 1) :=
    Single.has_ofRatio_exact false Nat.one_pos (e := 0) (top_lt hw) (by omega) (by omega)
      (by norm_num)
  have hscale : (Single.ofNat (2 ^ 24)).Has false ((2 ^ 24 : Nat) / 1) :=
    Single.has_ofRatio_exact false Nat.one_pos (m := 2 ^ 23) (e := 1) (by omega) (by omega)
      (by omega) (by norm_num)
  obtain ⟨n, d, hd, hquotient, hdiv⟩ := Single.div_eq_ofRatio htop hscale (by norm_num)
  have hexact (n' d' : Nat) (hd' : 0 < d')
      (h : (n' : ℚ) / d' = ((word / 2 ^ 40 : Nat) : ℚ) * 2 ^ (-24 : ℤ)) :=
    BinaryFormat.round_exact BinaryFormat.single_proper hd' (top_lt hw) (by decide) (by decide) h
  obtain ⟨r, hr, hv⟩ := hexact (word / 2 ^ 40) (2 ^ 24) (Nat.two_pow_pos 24) (by
    norm_num [div_eq_mul_inv])
  obtain ⟨r', hr', hv'⟩ := hexact n d hd (by
    rw [hquotient]
    norm_num [div_eq_mul_inv])
  rw [hdiv]
  refine Single.ofRatio_congr false (Nat.two_pow_pos 24) hd hr hr' ?_
  rw [hv, hv', hquotient]
  norm_num

/-- One of some items is chosen as soon as there is one. -/
theorem choose_eq {items : List α} (h : items ≠ []) (r : Random) :
    ∃ x ∈ items, r.choose items = (some x, r.draw.2) := by
  have hn : 0 < items.length := List.length_pos_iff.mpr h
  have hword : r.draw.1 < 2 ^ 64 := r.generator.next.output_lt
  have hindex := select_lt hword hn
  refine ⟨items[select r.draw.1 items.length], List.getElem_mem _, ?_⟩
  unfold choose index
  rw [if_neg (by omega)]
  simp only [Option.bind_some, List.getElem?_eq_getElem hindex]

/-! ### Primitives -/

/-- What a command does with the stream of its run. -/
def operation? : Command → Option (Operation Value)
  | .seed n => some (.seed n)
  | .choose items => some (.draw (.choose items))
  | .random => some (.draw .number)
  | _ => none

/-- What a script gets for an answer. -/
def Answer.result : Answer Value → Primitive.Result
  | restarted => .ok .unit
  | index i => .ok (.int (i.getD 0))
  | item x => Primitive.chosen x
  | number x => .ok (.float x)

/-- The primitives `seed`, `choose` and `random` do one thing with the stream of their run and nothing
else. -/
theorem perform_of_operation {c : Command} {o : Operation Value} (h : operation? c = some o)
    (context : Context) : (Primitive.perform c).run.run context =
      .done (.ok (context.random.apply o).1.result,
        { context with random := (context.random.apply o).2 }) := by
  cases c <;> cases h <;> rfl

/-! ### The law of choice -/

/-- What a stream does that was restarted from a seed and drawn from since, whatever was done with it
before. -/
structure Law (start : Random) (before : List (Operation α)) (s : UInt64) (since : List (Draw α)) :
    Prop where
  /-- It counts the draws that succeeded, and stands behind as many words of the seed's stream. -/
  stands : start.after (before ++ .seed s :: since.map .draw) =
    ⟨drawn since, (Generator.ofSeed s).steps (drawn since)⟩
  /-- So does a stream that was made from the seed and never restarted. -/
  fresh : (ofSeed s).after (since.map .draw) = start.after (before ++ .seed s :: since.map .draw)
  /-- The next draw that succeeds uses the next word, whatever it and those before it are for. -/
  succeeds : ∀ d : Draw α, d.succeeds = true →
    (start.after (before ++ .seed s :: since.map .draw)).apply (.draw d) =
      (d.answer (Generator.word s (drawn since + 1)),
        start.after (before ++ .seed s :: (since ++ [d]).map .draw))
  /-- A choice among nothing answers nothing and consumes nothing. -/
  fails : ∀ d : Draw α, d.succeeds = false →
    (start.after (before ++ .seed s :: since.map .draw)).apply (.draw d) =
      (d.nothing, start.after (before ++ .seed s :: since.map .draw))
  /-- An index is the word scaled to the number of things to choose from, and below that number. -/
  index : ∀ k n, 0 < n →
    (.index n : Draw α).answer (Generator.word s k) = .index (some (Generator.word s k * n / 2 ^ 64)) ∧
      Generator.word s k * n / 2 ^ 64 < n
  /-- A machine that multiplies at one hundred and twenty-eight bits loses nothing of it. -/
  widening : ∀ k (n : UInt64), Generator.word s k * n.toNat / 2 ^ 64 =
    (((BitVec.ofNat 128 (Generator.word s k) * n.toBitVec.setWidth 128) >>> 64).setWidth 64).toNat
  /-- The item at that index is chosen. -/
  item : ∀ k (items : List α), items ≠ [] → ∃ h : Generator.word s k * items.length / 2 ^ 64 <
      items.length, (.choose items : Draw α).answer (Generator.word s k) =
        .item (some items[Generator.word s k * items.length / 2 ^ 64])
  /-- A number is the top twenty-four bits of the word over `2 ^ 24`, without rounding. -/
  number : ∀ k, ∃ x, (.number : Draw α).answer (Generator.word s k) = .number x ∧
    x.value? = some (((Generator.word s k / 2 ^ 40 : Nat) : ℚ) / 2 ^ 24) ∧
    x = Single.ofNat (Generator.word s k / 2 ^ 40) / Single.ofNat (2 ^ 24) ∧
    Single.le 0 x = true ∧ Single.lt x 1 = true
  /-- Scripts do these things and no other with the stream of their run. -/
  scripts : ∀ (c : Command) (o : Operation Value), operation? c = some o → ∀ context : Context,
    (Primitive.perform c).run.run context =
      .done (.ok (context.random.apply o).1.result,
        { context with random := (context.random.apply o).2 })

/-- **Every choice is a function of the seed and of how often was drawn since**: the stream of any
history is that of its last restart behind the successful draws since then, the next draw uses the next
word, and what it makes of the word depends on nothing else. -/
theorem choice_law (start : Random) (before : List (Operation α)) (s : UInt64)
    (since : List (Draw α)) : Law start before s since where
  stands := after_restart start before s since
  fresh := by
    rw [after_restart, ← Nat.zero_add (drawn since)]
    exact after_draws s 0 since
  succeeds d hd := by
    rw [after_restart, after_restart, apply_of_succeeds hd]
    unfold drawn
    rw [List.countP_append, List.countP_singleton, if_pos hd]
  fails d hd := apply_of_fails hd _
  index k n hn := ⟨rfl, select_lt (Generator.word_lt s k) hn⟩
  widening k n := select_eq_widening (Generator.word_lt s k) n
  item k items h := by
    have hlt := select_lt (Generator.word_lt s k) (List.length_pos_iff.mpr h)
    exact ⟨hlt, congrArg Answer.item (List.getElem?_eq_getElem hlt)⟩
  number k := by
    have hword := Generator.word_lt s k
    have hunit := has_unit hword
    have htop : ((Generator.word s k / 2 ^ 40 : Nat) : ℚ) < 2 ^ 24 := by exact_mod_cast top_lt hword
    refine ⟨unit (Generator.word s k), rfl, hunit.value?, unit_eq_div hword, ?_, ?_⟩
    · rw [Single.le_iff Single.has_zero hunit]
      exact hunit.nonneg
    · rw [Single.lt_iff hunit Single.has_one]
      show _ / _ < (1 : ℚ)
      rw [div_lt_one (by norm_num)]
      exact htop
  scripts _ _ h context := perform_of_operation h context

end Random

end FilterScript
