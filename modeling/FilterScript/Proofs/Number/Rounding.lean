/-
What rounding to a binary format answers.

`BinaryFormat.round` works on counts of a unit in the last place, and everything that is to be known of
it is known of rationals: `n / d` lies between two powers of two, the unit is taken so that the count
has as many bits as the format, and a count that is a whole number is not changed.  So a number that
the format holds is answered as it is, a bound by a power of two survives, and the answer is in the one
form in which the format writes a number.
-/
import FilterScript.Number.Rounding
import Mathlib.Algebra.Order.Field.Power
import Mathlib.Tactic.FieldSimp
import Mathlib.Tactic.Linarith
import Mathlib.Tactic.Positivity
import Mathlib.Tactic.Ring

namespace FilterScript

/-- The rational number that a dyadic number is. -/
def Dyadic.value (x : Dyadic) : ℚ := x.mantissa * 2 ^ x.exponent

/-! ### Powers of two -/

theorem two_pow_log2_le {n : Nat} (hn : 0 < n) : (2 : ℚ) ^ (n.log2 : ℤ) ≤ n := by
  rw [zpow_natCast]
  exact_mod_cast Nat.log2_self_le (Nat.ne_of_gt hn)

theorem lt_two_pow_log2 (n : Nat) : (n : ℚ) < 2 ^ ((n.log2 : ℤ) + 1) := by
  have : n < 2 ^ (n.log2 + 1) := Nat.lt_log2_self
  exact_mod_cast this

/-- A quotient against a power of two, as `floorLog2` tests it. -/
theorem shifted_lt_iff {n d : Nat} (hd : 0 < d) (e : ℤ) :
    (if 0 ≤ e then n < d <<< e.toNat else n <<< (-e).toNat < d) ↔ (n : ℚ) / d < 2 ^ e := by
  have hd' : (0 : ℚ) < d := by exact_mod_cast hd
  rw [div_lt_iff₀ hd']
  split
  next h =>
    obtain ⟨k, rfl⟩ := Int.eq_ofNat_of_zero_le h
    rw [Int.toNat_natCast, Nat.shiftLeft_eq, zpow_natCast, mul_comm d]
    exact_mod_cast Iff.rfl
  next h =>
    obtain ⟨k, hk⟩ := Int.eq_ofNat_of_zero_le (a := -e) (by omega)
    obtain rfl : e = -(k : ℤ) := by omega
    rw [neg_neg, Int.toNat_natCast, Nat.shiftLeft_eq, zpow_neg, zpow_natCast, inv_mul_eq_div,
      lt_div_iff₀ (by positivity)]
    exact_mod_cast Iff.rfl

/-- The exponent that `floorLog2` finds is the logarithm of the quotient. -/
theorem floorLog2_spec {n d : Nat} (hn : 0 < n) (hd : 0 < d) :
    (2 : ℚ) ^ floorLog2 n d ≤ (n : ℚ) / d ∧ (n : ℚ) / d < 2 ^ (floorLog2 n d + 1) := by
  have hd' : (0 : ℚ) < d := by exact_mod_cast hd
  set e : ℤ := (n.log2 : ℤ) - (d.log2 : ℤ) with he
  -- The logarithms of both sides leave room for one more.
  have below : (2 : ℚ) ^ (e - 1) ≤ (n : ℚ) / d := by
    rw [le_div_iff₀ hd']
    calc (2 : ℚ) ^ (e - 1) * d ≤ 2 ^ (e - 1) * 2 ^ ((d.log2 : ℤ) + 1) := by
          gcongr
          exact (lt_two_pow_log2 d).le
      _ = 2 ^ (n.log2 : ℤ) := by
          rw [← zpow_add₀ two_ne_zero, he]
          congr 1
          omega
      _ ≤ n := two_pow_log2_le hn
  have above : (n : ℚ) / d < 2 ^ (e + 1) := by
    rw [div_lt_iff₀ hd']
    calc (n : ℚ) < 2 ^ ((n.log2 : ℤ) + 1) := lt_two_pow_log2 n
      _ = 2 ^ (e + 1) * 2 ^ (d.log2 : ℤ) := by
          rw [← zpow_add₀ two_ne_zero, he]
          congr 1
          omega
      _ ≤ 2 ^ (e + 1) * d := by
          gcongr
          exact two_pow_log2_le hd
  have test := shifted_lt_iff (n := n) hd e
  have found : floorLog2 n d =
      if (if 0 ≤ e then n < d <<< e.toNat else n <<< (-e).toNat < d) then e - 1 else e := rfl
  by_cases h : (n : ℚ) / d < 2 ^ e
  · rw [found, if_pos (test.mpr h), sub_add_cancel]
    exact ⟨below, h⟩
  · rw [found, if_neg (mt test.mp h)]
    exact ⟨not_lt.mp h, above⟩

/-- A bound by a power of two bounds the exponent. -/
theorem floorLog2_le {n d : Nat} (hn : 0 < n) (hd : 0 < d) {k : ℤ} (h : (n : ℚ) / d < 2 ^ (k + 1)) :
    floorLog2 n d ≤ k := by
  have : (2 : ℚ) ^ floorLog2 n d < 2 ^ (k + 1) := (floorLog2_spec hn hd).1.trans_lt h
  have := (zpow_lt_zpow_iff_right₀ (one_lt_two (α := ℚ))).mp this
  omega

/-! ### Counting units -/

theorem divRoundEven_le {n d k : Nat} (h : n ≤ k * d) : divRoundEven n d ≤ k := by
  unfold divRoundEven
  have split := Nat.div_add_mod n d
  rcases Nat.eq_zero_or_pos d with rfl | hd
  · simp_all
  have hq : n / d ≤ k := Nat.div_le_of_le_mul (by rwa [Nat.mul_comm])
  rcases hq.lt_or_eq with hlt | heq
  · dsimp only
    split_ifs <;> omega
  · -- The quotient is the bound already, so nothing is left.
    have hr : n % d = 0 := by
      rw [heq, Nat.mul_comm] at split
      omega
    simp [hr, heq, hd]

theorem le_divRoundEven {n d k : Nat} (hd : 0 < d) (h : k * d ≤ n) : k ≤ divRoundEven n d := by
  have hq : k ≤ n / d := (Nat.le_div_iff_mul_le hd).mpr h
  unfold divRoundEven
  dsimp only
  split_ifs <;> omega

namespace BinaryFormat

section Count

variable {unit : ℤ} {n d c : Nat}

/-- Units are counted by dividing, and the quotient is that of the number and the unit. -/
theorem exists_divRoundEven (unit : ℤ) (n : Nat) (hd : 0 < d) : ∃ n' d' : Nat, 0 < d' ∧
    countUnits unit n d = divRoundEven n' d' ∧ (n : ℚ) / d = n' / d' * 2 ^ unit := by
  unfold countUnits
  split
  next hu =>
    obtain ⟨k, rfl⟩ := Int.eq_ofNat_of_zero_le hu
    refine ⟨n, d <<< k, by rw [Nat.shiftLeft_eq]; positivity, rfl, ?_⟩
    rw [Nat.shiftLeft_eq, zpow_natCast]
    push_cast
    field_simp
  next hu =>
    obtain ⟨k, hk⟩ := Int.eq_ofNat_of_zero_le (a := -unit) (by omega)
    obtain rfl : unit = -(k : ℤ) := by omega
    refine ⟨n <<< k, d, hd, by rw [neg_neg, Int.toNat_natCast], ?_⟩
    rw [Nat.shiftLeft_eq, zpow_neg, zpow_natCast]
    push_cast
    field_simp

theorem countUnits_le (hd : 0 < d) (h : (n : ℚ) / d ≤ c * 2 ^ unit) : countUnits unit n d ≤ c := by
  obtain ⟨n', d', hd', hcount, hquotient⟩ := exists_divRoundEven unit n hd
  rw [hquotient, mul_le_mul_iff_of_pos_right (by positivity), div_le_iff₀ (by positivity)] at h
  rw [hcount]
  exact divRoundEven_le (by exact_mod_cast h)

theorem le_countUnits (hd : 0 < d) (h : c * 2 ^ unit ≤ (n : ℚ) / d) : c ≤ countUnits unit n d := by
  obtain ⟨n', d', hd', hcount, hquotient⟩ := exists_divRoundEven unit n hd
  rw [hquotient, mul_le_mul_iff_of_pos_right (by positivity), le_div_iff₀ (by positivity)] at h
  rw [hcount]
  exact le_divRoundEven hd' (by exact_mod_cast h)

/-- A whole number of units is counted exactly. -/
theorem countUnits_eq (hd : 0 < d) (h : (n : ℚ) / d = c * 2 ^ unit) : countUnits unit n d = c :=
  Nat.le_antisymm (countUnits_le hd h.le) (le_countUnits hd h.ge)

end Count

/-- The one form in which a format writes a number: with as many bits as it has, or in its smallest
unit. -/
structure Writes (f : BinaryFormat) (x : Dyadic) : Prop where
  fits : x.mantissa < 2 ^ f.precision
  least : f.leastUnit ≤ x.exponent
  greatest : x.exponent ≤ f.greatestUnit
  full : 2 ^ (f.precision - 1) ≤ x.mantissa ∨ x.exponent = f.leastUnit

/-- A number is written in one way. -/
theorem Writes.eq {f : BinaryFormat} {x y : Dyadic} (hp : 0 < f.precision) (hx : f.Writes x)
    (hy : f.Writes y) (h : x.value = y.value) : x = y := by
  -- A larger unit is not the smallest, so its mantissa is full, and in the other unit it overflows.
  have no_larger {x y : Dyadic} (hx : f.Writes x) (hy : f.Writes y) (h : x.value = y.value) :
      y.exponent ≤ x.exponent := by
    by_contra hlt
    obtain ⟨k, hk⟩ := Int.eq_ofNat_of_zero_le (a := y.exponent - x.exponent - 1) (by omega)
    have hfull : 2 ^ (f.precision - 1) ≤ y.mantissa :=
      hy.full.resolve_right (by have := hx.least; omega)
    have hm : (x.mantissa : ℚ) = y.mantissa * 2 ^ (k + 1) := by
      unfold Dyadic.value at h
      rw [show y.exponent = ((k + 1 : Nat) : ℤ) + x.exponent by omega, zpow_add₀ two_ne_zero,
        ← mul_assoc, zpow_natCast] at h
      exact mul_right_cancel₀ (by positivity) h
    have hm : x.mantissa = y.mantissa * 2 ^ (k + 1) := by exact_mod_cast hm
    have : 2 ^ f.precision ≤ x.mantissa := by
      calc 2 ^ f.precision = 2 ^ (f.precision - 1) * 2 := by
            rw [← Nat.pow_succ, Nat.succ_eq_add_one, Nat.sub_add_cancel hp]
        _ ≤ y.mantissa * 2 ^ (k + 1) :=
            Nat.mul_le_mul hfull (Nat.pow_le_pow_right two_pos (by omega : 1 ≤ k + 1))
        _ = x.mantissa := hm.symm
    exact absurd hx.fits (by omega)
  have he : x.exponent = y.exponent := le_antisymm (no_larger hy hx h.symm) (no_larger hx hy h)
  unfold Dyadic.value at h
  rw [he] at h
  have hm : (x.mantissa : ℚ) = y.mantissa := mul_right_cancel₀ (by positivity) h
  cases x
  cases y
  simp_all

/-- A format with some bits in a mantissa and some units. -/
structure Proper (f : BinaryFormat) : Prop where
  precision : 0 < f.precision
  units : f.leastUnit ≤ f.greatestUnit

theorem single_proper : single.Proper := ⟨by decide, by decide⟩

section Round

variable {f : BinaryFormat} {n d : Nat} {r : Dyadic}

theorem leastUnit_le_unitFor : f.leastUnit ≤ f.unitFor n d := le_max_left _ _

/-- No more units than a mantissa can hold are counted, but for a last one. -/
theorem div_lt_units (hn : 0 < n) (hd : 0 < d) :
    (n : ℚ) / d < ((2 ^ f.precision : Nat) : ℚ) * 2 ^ f.unitFor n d := by
  refine (floorLog2_spec hn hd).2.trans_le ?_
  rw [Nat.cast_pow, Nat.cast_ofNat, ← zpow_natCast, ← zpow_add₀ two_ne_zero]
  have : floorLog2 n d - (f.precision - 1) ≤ f.unitFor n d := le_max_right _ _
  exact zpow_le_zpow_right₀ one_le_two (by omega)

/-- Above the smallest unit a mantissa is full. -/
theorem full_units (hp : f.Proper) (hn : 0 < n) (hd : 0 < d) (h : f.unitFor n d ≠ f.leastUnit) :
    ((2 ^ (f.precision - 1) : Nat) : ℚ) * 2 ^ f.unitFor n d ≤ (n : ℚ) / d := by
  refine le_trans ?_ (floorLog2_spec hn hd).1
  rw [Nat.cast_pow, Nat.cast_ofNat, ← zpow_natCast, ← zpow_add₀ two_ne_zero]
  have := hp.precision
  have : f.unitFor n d = floorLog2 n d - (f.precision - 1) := by
    rcases max_choice f.leastUnit (floorLog2 n d - (f.precision - 1)) with he | he
    · exact absurd he h
    · exact he
  exact zpow_le_zpow_right₀ one_le_two (by omega)

/-- How a number that is not zero is rounded: to a count of units, or to the first one that is too
large for a mantissa. -/
theorem round_cases (hn : 0 < n) (h : f.round n d = some r) :
    r.exponent ≤ f.greatestUnit ∧
      (countUnits (f.unitFor n d) n d = 2 ^ f.precision ∧
          r = ⟨2 ^ (f.precision - 1), f.unitFor n d + 1⟩ ∨
        countUnits (f.unitFor n d) n d ≠ 2 ^ f.precision ∧
          r = ⟨countUnits (f.unitFor n d) n d, f.unitFor n d⟩) := by
  unfold round at h
  rw [if_neg (by omega)] at h
  by_cases hc : countUnits (f.unitFor n d) n d = 2 ^ f.precision
  · simp only [hc, ↓reduceIte, Option.ite_none_right_eq_some, Option.some.injEq] at h
    obtain ⟨hg, rfl⟩ := h
    exact ⟨hg, .inl ⟨hc, rfl⟩⟩
  · simp only [hc, ↓reduceIte, Option.ite_none_right_eq_some, Option.some.injEq] at h
    obtain ⟨hg, rfl⟩ := h
    exact ⟨hg, .inr ⟨hc, rfl⟩⟩

/-- The value of what is answered is the count of units, whichever way it is written. -/
theorem value_of_round (hp : f.Proper) (hn : 0 < n) (h : f.round n d = some r) :
    r.value = countUnits (f.unitFor n d) n d * 2 ^ f.unitFor n d := by
  obtain ⟨-, ⟨hc, rfl⟩ | ⟨-, rfl⟩⟩ := round_cases hn h
  · obtain ⟨p, hp⟩ := Nat.exists_eq_succ_of_ne_zero (Nat.ne_of_gt hp.precision)
    rw [Dyadic.value, hc, hp, Nat.succ_sub_one, zpow_add₀ two_ne_zero, zpow_one, pow_succ]
    push_cast
    ring
  · rfl

/-- **What is answered is written as the format writes numbers.** -/
theorem round_writes (hp : f.Proper) (hd : 0 < d) (h : f.round n d = some r) : f.Writes r := by
  have := hp.units
  have := hp.precision
  have hpow : 2 ^ (f.precision - 1) < 2 ^ f.precision := Nat.pow_lt_pow_right one_lt_two (by omega)
  rcases Nat.eq_zero_or_pos n with rfl | hn
  · obtain rfl : (⟨0, f.leastUnit⟩ : Dyadic) = r := Option.some.inj h
    exact ⟨Nat.two_pow_pos _, le_rfl, hp.units, .inr rfl⟩
  have hunit : f.leastUnit ≤ f.unitFor n d := leastUnit_le_unitFor
  obtain ⟨hg, ⟨-, rfl⟩ | ⟨hc, rfl⟩⟩ := round_cases hn h
  · exact ⟨hpow, show _ ≤ f.unitFor n d + 1 by omega, hg, .inl le_rfl⟩
  · have hle := countUnits_le hd (div_lt_units (f := f) hn hd).le
    refine ⟨lt_of_le_of_ne hle hc, hunit, hg, ?_⟩
    by_cases hleast : f.unitFor n d = f.leastUnit
    · exact .inr hleast
    · exact .inl (le_countUnits hd (full_units hp hn hd hleast))

/-- **A number that the format can hold is answered as it is.** -/
theorem round_exact (hp : f.Proper) (hd : 0 < d) {m : Nat} {e : ℤ} (hm : m < 2 ^ f.precision)
    (hl : f.leastUnit ≤ e) (hg : e ≤ f.greatestUnit) (h : (n : ℚ) / d = m * 2 ^ e) :
    ∃ r, f.round n d = some r ∧ r.value = (n : ℚ) / d := by
  rcases Nat.eq_zero_or_pos n with rfl | hn
  · exact ⟨⟨0, f.leastUnit⟩, rfl, by simp [Dyadic.value]⟩
  have hm' : (m : ℚ) < 2 ^ (f.precision : ℤ) := by exact_mod_cast hm
  have := hp.precision
  -- The unit is not above the one in which the number is whole, so it is whole in that one too.
  have hunit : f.unitFor n d ≤ e := by
    refine max_le hl ?_
    have : floorLog2 n d ≤ f.precision + e - 1 := by
      refine floorLog2_le hn hd ?_
      rw [h, sub_add_cancel, zpow_add₀ two_ne_zero]
      gcongr
    omega
  obtain ⟨k, hk⟩ := Int.eq_ofNat_of_zero_le (sub_nonneg.mpr hunit)
  have hwhole : (n : ℚ) / d = ((m * 2 ^ k : Nat) : ℚ) * 2 ^ f.unitFor n d := by
    rw [h, show e = k + f.unitFor n d by omega, zpow_add₀ two_ne_zero, zpow_natCast]
    push_cast
    ring
  have hcount := countUnits_eq hd hwhole
  have hsmall : m * 2 ^ k < 2 ^ f.precision := by
    have := div_lt_units (f := f) hn hd
    rw [hwhole] at this
    exact_mod_cast lt_of_mul_lt_mul_right this (by positivity)
  refine ⟨⟨m * 2 ^ k, f.unitFor n d⟩, ?_, hwhole.symm⟩
  unfold round
  rw [if_neg (by omega)]
  dsimp only
  rw [hcount, if_neg hsmall.ne, if_pos (hunit.trans hg)]

/-- The unit of a number within a power of two is within it too. -/
theorem unitFor_le (hp : f.Proper) (hn : 0 < n) (hd : 0 < d) {k : ℤ} (hk : f.leastUnit ≤ k)
    (hle : (n : ℚ) / d ≤ 2 ^ k) : f.unitFor n d ≤ k := by
  have := hp.precision
  refine max_le hk ?_
  have : floorLog2 n d ≤ k :=
    floorLog2_le hn hd (hle.trans_lt (zpow_lt_zpow_right₀ one_lt_two (by omega)))
  omega

/-- Rounding does not carry a number beyond a power of two. -/
theorem value_round_le (hp : f.Proper) (hd : 0 < d) (h : f.round n d = some r) {k : ℤ}
    (hk : f.leastUnit ≤ k) (hle : (n : ℚ) / d ≤ 2 ^ k) : r.value ≤ 2 ^ k := by
  rcases Nat.eq_zero_or_pos n with rfl | hn
  · obtain rfl : (⟨0, f.leastUnit⟩ : Dyadic) = r := Option.some.inj h
    simp only [Dyadic.value, Nat.cast_zero, zero_mul]
    positivity
  have hunit := unitFor_le hp hn hd hk hle
  obtain ⟨j, hj⟩ := Int.eq_ofNat_of_zero_le (sub_nonneg.mpr hunit)
  have hpow : (2 : ℚ) ^ k = ((2 ^ j : Nat) : ℚ) * 2 ^ f.unitFor n d := by
    rw [show k = j + f.unitFor n d by omega, zpow_add₀ two_ne_zero, zpow_natCast]
    push_cast
    rfl
  rw [value_of_round hp hn h, hpow]
  have hcount : countUnits (f.unitFor n d) n d ≤ 2 ^ j := countUnits_le hd (hpow ▸ hle)
  gcongr

/-- A number within a power of two that is a unit is answered. -/
theorem round_isSome (hp : f.Proper) (hd : 0 < d) {k : ℤ} (hk : f.leastUnit ≤ k)
    (hg : k < f.greatestUnit) (hle : (n : ℚ) / d ≤ 2 ^ k) : ∃ r, f.round n d = some r := by
  rcases Nat.eq_zero_or_pos n with rfl | hn
  · exact ⟨_, rfl⟩
  have hunit := unitFor_le hp hn hd hk hle
  unfold round
  rw [if_neg (by omega)]
  by_cases hc : countUnits (f.unitFor n d) n d = 2 ^ f.precision
  · refine ⟨⟨2 ^ (f.precision - 1), f.unitFor n d + 1⟩, ?_⟩
    simp only [hc, ↓reduceIte]
    rw [if_pos (by omega)]
  · refine ⟨⟨countUnits (f.unitFor n d) n d, f.unitFor n d⟩, ?_⟩
    simp only [hc, ↓reduceIte]
    rw [if_pos (by omega)]

end Round

end BinaryFormat

end FilterScript
