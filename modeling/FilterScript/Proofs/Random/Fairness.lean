/-
How evenly the words of a stream choose.

The words that select one index below `n` are an interval: they begin where `i * 2 ^ 64` is reached in
steps of `n`, and end where the next index begins.  Everything is counted on these two ends.  Between
them lie `2 ^ 64 / n` words, rounded down or up, and neither can be had more evenly unless `n` divides
`2 ^ 64`.  No word is left over, because the index behind the last one begins at `2 ^ 64`.
-/
import FilterScript.Proofs.Random
import Mathlib.Algebra.Order.Floor.Div
import Mathlib.Order.Interval.Finset.Nat

namespace FilterScript

/-! ### Every word is drawn -/

/-- The factor by which the state moves back. -/
def Generator.inverse : Nat := 0x7dda22b9397986098abc8b0716eac8d

theorem Generator.inverse_mul : inverse * multiplier % 2 ^ 128 = 1 := by decide +kernel

/-- Every state comes next somewhere, for the factor of a step can be taken back. -/
theorem Generator.exists_next {state : Nat} (h : state < 2 ^ 128) :
    ∃ g : Generator, g.next.state = state := by
  refine ⟨⟨state * inverse, 0⟩, ?_⟩
  show (state * inverse * multiplier + 0) % 2 ^ 128 = state
  rw [Nat.add_zero, Nat.mul_assoc, Nat.mul_mod, inverse_mul, Nat.mul_one, Nat.mod_mod,
    Nat.mod_eq_of_lt h]

/-- A state without an upper half shows itself. -/
theorem Generator.output_of_lt {g : Generator} (h : g.state < 2 ^ 64) : g.output = g.state := by
  unfold output
  have hhigh : g.state / 2 ^ 64 = 0 := Nat.div_eq_of_lt h
  have hturn : g.state / 2 ^ 122 = 0 := Nat.div_eq_of_lt (by omega)
  rw [hhigh, hturn, Nat.mod_eq_of_lt h]
  simp only [Nat.zero_xor, Nat.pow_zero, Nat.div_one, Nat.sub_zero]
  rw [Nat.add_mul_mod_self_right, Nat.mod_eq_of_lt h]

namespace Random

theorem exists_draw {word : Nat} (h : word < 2 ^ 64) : ∃ r : Random, r.draw.1 = word := by
  obtain ⟨g, hg⟩ := Generator.exists_next (h.trans (by norm_num))
  refine ⟨⟨0, g⟩, ?_⟩
  show g.next.output = word
  rw [Generator.output_of_lt (hg ▸ h), hg]

/-! ### The words of an index -/

/-- The words that select an index below `n`. -/
def wordsFor (n i : Nat) : Finset Nat := (Finset.range (2 ^ 64)).filter fun word => select word n = i

/-- The first word that selects an index below `n`. -/
def firstWord (n i : Nat) : Nat := (i * 2 ^ 64) ⌈/⌉ n

variable {n i : Nat}

theorem firstWord_le_iff (hn : 0 < n) {word : Nat} : firstWord n i ≤ word ↔ i ≤ select word n := by
  unfold firstWord select
  rw [ceilDiv_le_iff_le_mul hn, Nat.le_div_iff_mul_le (Nat.two_pow_pos 64), Nat.mul_comm n]

theorem select_mono (n : Nat) : Monotone (select · n) := fun _ _ h =>
  Nat.div_le_div_right (Nat.mul_le_mul_right n h)

theorem firstWord_mono (hn : 0 < n) : Monotone (firstWord n) := fun _ _ h =>
  (firstWord_le_iff hn).mpr (h.trans ((firstWord_le_iff hn).mp le_rfl))

/-- Behind the last index there are no words. -/
theorem firstWord_self (hn : 0 < n) : firstWord n n = 2 ^ 64 := by
  unfold firstWord
  rw [← smul_eq_mul]
  exact smul_ceilDiv hn _

theorem wordsFor_eq (hn : 0 < n) (hi : i < n) :
    wordsFor n i = Finset.Ico (firstWord n i) (firstWord n (i + 1)) := by
  ext word
  have hbegin : firstWord n i ≤ word ↔ i ≤ select word n := firstWord_le_iff hn
  have hend : firstWord n (i + 1) ≤ word ↔ i + 1 ≤ select word n := firstWord_le_iff hn
  have hlast : firstWord n (i + 1) ≤ 2 ^ 64 := by
    rw [← firstWord_self hn]
    exact firstWord_mono hn hi
  simp only [wordsFor, Finset.mem_filter, Finset.mem_range, Finset.mem_Ico]
  omega

/-! ### Their number -/

section Quotients

variable {d : Nat} (hd : 0 < d) (a b : Nat)
include hd

theorem ceilDiv_add_div_le : a ⌈/⌉ d + b / d ≤ (a + b) ⌈/⌉ d := by
  have hsum : a + b ≤ d * ((a + b) ⌈/⌉ d) := le_smul_ceilDiv hd
  have hfloor : d * (b / d) ≤ b := Nat.mul_div_le b d
  have hle : b / d ≤ (a + b) ⌈/⌉ d := Nat.le_of_mul_le_mul_left (by omega) hd
  have hbegin : a ⌈/⌉ d ≤ (a + b) ⌈/⌉ d - b / d := by
    rw [ceilDiv_le_iff_le_mul hd, Nat.mul_sub]
    omega
  omega

theorem add_ceilDiv_le : (a + b) ⌈/⌉ d ≤ a ⌈/⌉ d + b ⌈/⌉ d := by
  rw [ceilDiv_le_iff_le_mul hd, Nat.mul_add]
  exact Nat.add_le_add (le_smul_ceilDiv hd) (le_smul_ceilDiv hd)

theorem ceilDiv_le_succ : a ⌈/⌉ d ≤ a / d + 1 := by
  rw [ceilDiv_le_iff_le_mul hd]
  exact (Nat.lt_mul_div_succ a hd).le

/-- A quotient that is rounded, down or up, is less than one away. -/
theorem abs_sub_lt_of_rounded {k : Nat} (hlow : a / d ≤ k) (hhigh : k ≤ a ⌈/⌉ d) :
    |(k : ℚ) - a / d| < 1 := by
  have hd' : (0 : ℚ) < d := by exact_mod_cast hd
  have habove : a < d * (k + 1) :=
    (Nat.lt_mul_div_succ a hd).trans_le (Nat.mul_le_mul_left d (by omega))
  have hbelow : d * k < a + d := by
    rcases Nat.eq_zero_or_pos k with rfl | hk
    · omega
    · -- One less than the quotient rounded up does not reach.
      have : ¬ a ⌈/⌉ d ≤ k - 1 := by omega
      rw [ceilDiv_le_iff_le_mul hd, Nat.mul_sub] at this
      omega
  have habove' : (a : ℚ) < d * (k + 1) := by exact_mod_cast habove
  have hbelow' : (d : ℚ) * k < a + d := by exact_mod_cast hbelow
  have hquotient : (d : ℚ) * (a / d) = a := by field_simp
  rw [abs_lt]
  constructor <;> nlinarith

end Quotients

/-- An index has as many words as `n` goes into `2 ^ 64`, rounded down at least and up at most. -/
theorem card_wordsFor (hn : 0 < n) (hi : i < n) :
    2 ^ 64 / n ≤ (wordsFor n i).card ∧ (wordsFor n i).card ≤ 2 ^ 64 ⌈/⌉ n := by
  have hlow := ceilDiv_add_div_le hn (i * 2 ^ 64) (2 ^ 64)
  have hhigh := add_ceilDiv_le hn (i * 2 ^ 64) (2 ^ 64)
  rw [wordsFor_eq hn hi, Nat.card_Ico]
  unfold firstWord
  rw [Nat.succ_mul]
  omega

/-- The chance of an index below `n`, when every word is as likely as any other. -/
def chance (n i : Nat) : ℚ := (wordsFor n i).card / 2 ^ 64

theorem abs_chance_sub_lt (hn : 0 < n) (hi : i < n) : |chance n i - 1 / n| < 1 / 2 ^ 64 := by
  obtain ⟨hlow, hhigh⟩ := card_wordsFor hn hi
  have hcard := abs_sub_lt_of_rounded hn (2 ^ 64) hlow hhigh
  have hshare : chance n i - 1 / n = ((wordsFor n i).card - (2 ^ 64 : Nat) / n) / 2 ^ 64 := by
    unfold chance
    rw [Nat.cast_pow, Nat.cast_ofNat, sub_div, div_div, mul_comm, ← div_div, div_self (by norm_num)]
  rw [hshare, abs_div, abs_of_pos (by norm_num : (0 : ℚ) < 2 ^ 64)]
  exact div_lt_div_of_pos_right hcard (by norm_num)

/-- No index goes without words, as long as there are as many words as indices. -/
theorem wordsFor_nonempty (hn : n ≤ 2 ^ 64) (hi : i < n) : (wordsFor n i).Nonempty := by
  have hpos : 0 < n := Nat.zero_lt_of_lt hi
  have hfloor : 0 < 2 ^ 64 / n := Nat.div_pos hn hpos
  exact Finset.card_pos.mp (hfloor.trans_le (card_wordsFor hpos hi).1)

/-! ### The law -/

/-- How fair a choice among `n` things is. -/
structure Fair (n : Nat) : Prop where
  /-- A stream chooses by the word that it draws next. -/
  index : ∀ r : Random, r.index n = (some (select r.draw.1 n), r.draw.2)
  /-- The words that can be drawn are those of sixty-four bits, every one of them. -/
  drawn : ∀ word, (∃ r : Random, r.draw.1 = word) ↔ word < 2 ^ 64
  /-- A larger word does not select a smaller index. -/
  mono : Monotone (select · n)
  below : ∀ word < 2 ^ 64, select word n < n
  reached : ∀ i < n, ∃ word < 2 ^ 64, select word n = i
  /-- The numbers of words of two indices differ by one at most. -/
  count : ∀ i < n, (wordsFor n i).card = 2 ^ 64 / n ∨ (wordsFor n i).card = 2 ^ 64 ⌈/⌉ n
  chance : ∀ i < n, |chance n i - 1 / n| < 1 / 2 ^ 64
  /-- Measured on an even share, the chance is off by less than `n / 2 ^ 64`. -/
  bias : ∀ i < n, |n * Random.chance n i - 1| < n / 2 ^ 64

/-- **A choice is as fair as sixty-four bits allow.** -/
theorem fair (hn : 1 ≤ n) (hlimit : n < 2 ^ 64) : Fair n where
  index r := by
    unfold index
    rw [if_neg (by omega)]
  drawn word := by
    refine ⟨?_, exists_draw⟩
    rintro ⟨r, rfl⟩
    exact r.generator.next.output_lt
  mono := select_mono n
  below word hword := select_lt hword hn
  reached i hi := by
    obtain ⟨word, hword⟩ := wordsFor_nonempty hlimit.le hi
    obtain ⟨hrange, hselect⟩ := Finset.mem_filter.mp hword
    exact ⟨word, Finset.mem_range.mp hrange, hselect⟩
  count i hi := by
    obtain ⟨hlow, hhigh⟩ := card_wordsFor hn hi
    have := ceilDiv_le_succ hn (2 ^ 64)
    omega
  chance i hi := abs_chance_sub_lt hn hi
  bias i hi := by
    have hn' : (0 : ℚ) < n := by exact_mod_cast hn
    calc |n * Random.chance n i - 1| = n * |Random.chance n i - 1 / n| := by
          rw [← abs_of_pos hn', ← abs_mul, abs_of_pos hn', mul_sub, mul_one_div_cancel hn'.ne']
      _ < n * (1 / 2 ^ 64) := mul_lt_mul_of_pos_left (abs_chance_sub_lt hn hi) hn'
      _ = n / 2 ^ 64 := mul_one_div _ _

/-- Just above half of the words: two indices have one word each, and all others have two. -/
theorem fair_above_half : 1 ≤ 2 ^ 63 + 1 ∧ 2 ^ 63 + 1 < 2 ^ 64 ∧ Fair (2 ^ 63 + 1) :=
  ⟨by decide, by decide, fair (by decide) (by decide)⟩

end Random

end FilterScript
