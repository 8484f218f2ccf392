/-
Numbers on a grid.

Every number of a format is a whole multiple of the unit in its last place, and the larger it is the
coarser that unit.  Rounding brings a number onto the grid of its size, and leaves it on any grid that
it lies on already.  So whoever knows a grid on which a sum lies knows when the sum is not rounded at
all: when it is counted with no more bits than a mantissa has.  This is what makes a subtraction of
close numbers exact, and nothing has to be said of exponents where it is used.
-/
import FilterScript.Proofs.Number.Whole

namespace FilterScript

/-- A whole multiple of a power of two. -/
def OnGrid (u : ℤ) (q : ℚ) : Prop := ∃ k : ℤ, q = k * 2 ^ u

namespace OnGrid

variable {u v : ℤ} {p q : ℚ}

/-- A grid holds every coarser one. -/
theorem mono (h : OnGrid v q) (huv : u ≤ v) : OnGrid u q := by
  obtain ⟨k, rfl⟩ := h
  obtain ⟨j, hj⟩ := Int.eq_ofNat_of_zero_le (sub_nonneg.mpr huv)
  refine ⟨k * 2 ^ j, ?_⟩
  rw [show v = j + u by omega, zpow_add₀ two_ne_zero, zpow_natCast]
  push_cast
  ring

theorem zero (u : ℤ) : OnGrid u 0 := ⟨0, by simp⟩

theorem neg (h : OnGrid u q) : OnGrid u (-q) := by
  obtain ⟨k, rfl⟩ := h
  exact ⟨-k, by push_cast; ring⟩

theorem add (hp : OnGrid u p) (hq : OnGrid u q) : OnGrid u (p + q) := by
  obtain ⟨j, rfl⟩ := hp
  obtain ⟨k, rfl⟩ := hq
  exact ⟨j + k, by push_cast; ring⟩

theorem sub (hp : OnGrid u p) (hq : OnGrid u q) : OnGrid u (p - q) := by
  rw [sub_eq_add_neg]
  exact hp.add hq.neg

theorem signOf (s : Bool) (h : OnGrid u q) : OnGrid u (Single.signOf s q) := by
  cases s
  · exact h
  · exact h.neg

/-- Integers lie on every grid that is fine enough for one. -/
theorem intCast (i : ℤ) (hu : u ≤ 0) : OnGrid u (i : ℚ) := by
  have hone : OnGrid 0 (i : ℚ) := ⟨i, by simp⟩
  exact hone.mono hu

/-- The steps between zero and a number are counted by a natural number. -/
theorem exists_abs (h : OnGrid u q) : ∃ k : Nat, |q| = k * 2 ^ u := by
  obtain ⟨k, rfl⟩ := h
  refine ⟨k.natAbs, ?_⟩
  rw [abs_mul, abs_of_pos (by positivity : (0 : ℚ) < 2 ^ u), Nat.cast_natAbs, Int.cast_abs]

end OnGrid

namespace BinaryFormat

variable {f : BinaryFormat} {n d : Nat} {r : Dyadic} {u : ℤ}

/-- A bound by a power of two from below bounds the exponent. -/
theorem le_floorLog2 (hn : 0 < n) (hd : 0 < d) {k : ℤ} (h : (2 : ℚ) ^ k ≤ n / d) :
    k ≤ floorLog2 n d := by
  have hlt : (2 : ℚ) ^ k < 2 ^ (floorLog2 n d + 1) := h.trans_lt (floorLog2_spec hn hd).2
  have := (zpow_lt_zpow_iff_right₀ (one_lt_two (α := ℚ))).mp hlt
  omega

/-- **Rounding brings a number onto the grid of its size, and keeps it on every grid.** -/
theorem round_onGrid (hp : f.Proper) (hd : 0 < d) (h : f.round n d = some r)
    (hu : (2 : ℚ) ^ (u + (f.precision - 1)) ≤ n / d ∨ OnGrid u (n / d)) : OnGrid u r.value := by
  rcases Nat.eq_zero_or_pos n with rfl | hn
  · obtain rfl : (⟨0, f.leastUnit⟩ : Dyadic) = r := Option.some.inj h
    simpa [Dyadic.value] using OnGrid.zero u
  rw [value_of_round hp hn h]
  by_cases hunit : u ≤ f.unitFor n d
  · exact OnGrid.mono ⟨(countUnits (f.unitFor n d) n d : ℤ), by push_cast; rfl⟩ hunit
  · have hfine : f.unitFor n d ≤ u := by omega
    rcases hu with hsize | hgrid
    · have hlog := le_floorLog2 hn hd hsize
      have : floorLog2 n d - (f.precision - 1) ≤ f.unitFor n d := le_max_right _ _
      omega
    · -- On a finer grid the count is a whole number, and nothing is rounded.
      obtain ⟨c, hc⟩ := (hgrid.mono hfine).exists_abs
      rw [abs_of_nonneg (by positivity)] at hc
      rw [countUnits_eq hd hc, ← hc]
      exact hgrid

/-- A count that is less than half a unit above a whole number is not more than that number. -/
theorem divRoundEven_le_of_lt {n d k : Nat} (hd : 0 < d) (h : 2 * n < (2 * k + 1) * d) :
    divRoundEven n d ≤ k := by
  have hq : n / d ≤ k := by
    by_contra hlt
    have hmul : (k + 1) * d ≤ n := (Nat.le_div_iff_mul_le hd).mp (by omega)
    have : (2 * k + 1) * d ≤ 2 * ((k + 1) * d) := by
      rw [← mul_assoc]
      exact Nat.mul_le_mul_right d (by omega)
    omega
  rcases hq.lt_or_eq with hlt | heq
  · unfold divRoundEven
    dsimp only
    split_ifs <;> omega
  · have hr : 2 * (n % d) < d := by
      have hsplit := Nat.div_add_mod n d
      have hmul : (2 * k + 1) * d = 2 * (d * k) + d := by ring
      rw [heq] at hsplit
      omega
    unfold divRoundEven
    dsimp only
    rw [if_pos hr, heq]

theorem countUnits_le_of_lt {c : Nat} (hd : 0 < d) (h : (n : ℚ) / d < (c + 1 / 2) * 2 ^ u) :
    countUnits u n d ≤ c := by
  obtain ⟨n', d', hd', hcount, hquotient⟩ := exists_divRoundEven u n hd
  rw [hquotient, mul_lt_mul_iff_of_pos_right (by positivity), div_lt_iff₀ (by positivity)] at h
  rw [hcount]
  refine divRoundEven_le_of_lt hd' ?_
  have : (2 : ℚ) * n' < (2 * c + 1) * d' := by linarith
  exact_mod_cast this

/-- **A number is answered if it is nearer to the largest finite one than to the next.** -/
theorem round_isSome_of_lt (hp : f.Proper) (hd : 0 < d)
    (h : (n : ℚ) / d < ((2 ^ f.precision - 1 : Nat) + 1 / 2) * 2 ^ f.greatestUnit) :
    ∃ r, f.round n d = some r := by
  rcases Nat.eq_zero_or_pos n with rfl | hn
  · exact ⟨_, rfl⟩
  have hone : 1 ≤ 2 ^ f.precision := Nat.one_le_two_pow
  have hpow : (n : ℚ) / d < 2 ^ (f.greatestUnit + f.precision - 1 + 1) := by
    refine h.trans_le ?_
    rw [sub_add_cancel, zpow_add₀ two_ne_zero, mul_comm (2 ^ f.greatestUnit), zpow_natCast]
    push_cast [hone]
    gcongr
    linarith
  have hlog := floorLog2_le hn hd hpow
  have := hp.units
  have hunit : f.unitFor n d ≤ f.greatestUnit := max_le hp.units (by omega)
  unfold round
  rw [if_neg (by omega)]
  by_cases hc : countUnits (f.unitFor n d) n d = 2 ^ f.precision
  · -- The count is too large for the greatest unit, so the unit is a smaller one.
    have hsmaller : f.unitFor n d ≠ f.greatestUnit := by
      intro heq
      have := countUnits_le_of_lt hd (heq ▸ h)
      omega
    refine ⟨⟨2 ^ (f.precision - 1), f.unitFor n d + 1⟩, ?_⟩
    simp only [hc, ↓reduceIte]
    rw [if_pos (by omega)]
  · refine ⟨⟨countUnits (f.unitFor n d) n d, f.unitFor n d⟩, ?_⟩
    simp only [hc, ↓reduceIte]
    rw [if_pos hunit]

end BinaryFormat

namespace Single

open BinaryFormat

variable {x y : Single} {a b c p : ℚ} {k u : ℤ}

/-- A number lies on the grid of its size. -/
theorem onGrid_of_le_abs (h : x.value? = some a) (hk : (2 : ℚ) ^ k ≤ |a|) : OnGrid (k - 23) a := by
  obtain ⟨s, p, ⟨m, e, hv, rfl⟩, rfl⟩ := value?_eq_some_iff.mp h
  have hfits : m < 2 ^ 24 := (writes_of_view hv).fits
  have hsize := abs_signOf s (p := (m : ℚ) * 2 ^ e) (by positivity)
  have hlt : (2 : ℚ) ^ k < 2 ^ (24 + e) := by
    rw [hsize] at hk
    refine hk.trans_lt ?_
    rw [zpow_add₀ two_ne_zero]
    have : (m : ℚ) < 2 ^ (24 : ℤ) := by exact_mod_cast hfits
    gcongr
  have := (zpow_lt_zpow_iff_right₀ (one_lt_two (α := ℚ))).mp hlt
  exact OnGrid.mono (OnGrid.signOf s ⟨m, by push_cast; rfl⟩) (by omega)

/-- No finite number is larger than the largest one. -/
theorem abs_le_of_value? (h : x.value? = some a) : |a| ≤ (2 ^ 24 - 1) * 2 ^ (104 : ℤ) := by
  obtain ⟨s, p, ⟨m, e, hv, rfl⟩, rfl⟩ := value?_eq_some_iff.mp h
  have hwrites := writes_of_view hv
  have hfits : m < 2 ^ 24 := hwrites.fits
  have hgreatest : e ≤ 104 := hwrites.greatest
  have hsize := abs_signOf s (p := (m : ℚ) * 2 ^ e) (by positivity)
  have hm : (m : ℚ) ≤ 2 ^ 24 - 1 := by
    have : ((m + 1 : Nat) : ℚ) ≤ ((2 ^ 24 : Nat) : ℚ) := by exact_mod_cast hfits
    push_cast at this
    linarith
  rw [hsize]
  exact mul_le_mul hm (zpow_le_zpow_right₀ one_le_two hgreatest) (by positivity) (by norm_num)

/-! ### Sums -/

/-- **A sum that the format can hold is not rounded**, which shows on its grid. -/
theorem value?_add_of_onGrid (hx : x.value? = some a) (hy : y.value? = some b)
    (hgrid : OnGrid u (a + b)) (hsmall : |a + b| < 2 ^ (24 + u)) (hl : -149 ≤ u) (hg : u ≤ 104) :
    (x + y).value? = some (a + b) := by
  obtain ⟨k, hk⟩ := hgrid.exists_abs
  refine value?_add_exact hx hy ?_ hl hg hk
  rw [hk, zpow_add₀ two_ne_zero, mul_lt_mul_iff_of_pos_right (by positivity)] at hsmall
  exact_mod_cast hsmall

/-- What a sum of finite numbers is: it keeps the sign of the exact sum, it lies on the grid of its
size and on every grid of the exact sum. -/
theorem exists_value?_add (hx : x.value? = some a) (hy : y.value? = some b)
    (hbound : |a + b| < (2 ^ 24 - 1 / 2) * 2 ^ (104 : ℤ)) :
    ∃ c, (x + y).value? = some c ∧ (0 ≤ a + b → 0 ≤ c) ∧
      ∀ u : ℤ, (2 : ℚ) ^ (u + 23) ≤ |a + b| ∨ OnGrid u (a + b) → OnGrid u c := by
  by_cases hzero : a + b = 0
  · exact ⟨0, value?_add_of_eq_zero hx hy hzero, fun _ => le_rfl, fun u _ => OnGrid.zero u⟩
  obtain ⟨n, d, hd, hquotient, hsum⟩ := add_eq_ofRatio hx hy hzero
  obtain ⟨r, hr⟩ : ∃ r, single.round n d = some r := by
    refine round_isSome_of_lt single_proper hd ?_
    rw [hquotient]
    refine hbound.trans_eq ?_
    norm_num [single]
  have hhas := has_ofRatio (decide (a + b < 0)) hd hr
  refine ⟨_, by rw [hsum, hhas.value?], fun hnonneg => ?_, fun u hu => OnGrid.signOf _ ?_⟩
  · rw [decide_eq_false (by linarith)]
    exact hhas.nonneg
  · refine round_onGrid single_proper hd hr ?_
    rw [hquotient]
    refine hu.imp id fun hgrid => ?_
    rcases abs_choice (a + b) with he | he <;> rw [he]
    · exact hgrid
    · exact hgrid.neg

end Single

end FilterScript
