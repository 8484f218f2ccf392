/-
Remainders of numbers.

A remainder is counted in the finer of the two units, and it is below one of the two mantissas, so it
is never rounded.  The remainder that is made nonnegative takes a correction, which is a sum: it is
exact where both lie on a grid that is coarse enough for what comes out.
-/
import FilterScript.Proofs.Number.Grid

namespace FilterScript.Single

variable {x y : Single} {s t : Bool} {p q a : ℚ}

/-- **A remainder is exact**, and it has the sign of the dividend. -/
theorem Has.rem (hx : x.Has s p) (hy : y.Has t q) (hq : q ≠ 0) :
    (x % y).Has s (p - q * ⌊p / q⌋₊) := by
  obtain ⟨m, e, hvx, rfl⟩ := hx
  obtain ⟨n, f, hvy, rfl⟩ := hy
  have hwx := writes_of_view hvx
  have hwy := writes_of_view hvy
  have hm : m < 2 ^ 24 := hwx.fits
  have hn : n < 2 ^ 24 := hwy.fits
  have hne : n ≠ 0 := by
    rintro rfl
    simp at hq
  obtain ⟨M, hM⟩ : ∃ M, m <<< (e - min e f).toNat = M := ⟨_, rfl⟩
  obtain ⟨N, hN⟩ : ∃ N, n <<< (f - min e f).toNat = N := ⟨_, rfl⟩
  have hrem : x % y = ofDyadic s (M % N) (min e f) := by
    show x.rem y = _
    unfold Single.rem
    rw [hvx, hvy]
    simp only [hne, if_false, hM, hN]
  have hdividend := cast_shiftLeft m (min_le_left e f)
  have hdivisor := cast_shiftLeft n (min_le_right e f)
  rw [hM] at hdividend
  rw [hN] at hdivisor
  have hunit : (2 : ℚ) ^ min e f ≠ 0 := by positivity
  have hpositive : 0 < N := by
    rw [← hN, Nat.shiftLeft_eq]
    exact Nat.mul_pos (Nat.pos_of_ne_zero hne) (Nat.two_pow_pos _)
  -- In the finer unit one of the two mantissas is the count itself.
  have hfits : M % N < 2 ^ 24 := by
    rcases le_total e f with h | h
    · rw [min_eq_left h, sub_self] at hM
      refine (Nat.mod_le M N).trans_lt ?_
      rw [← hM]
      exact hm
    · rw [min_eq_right h, sub_self] at hN
      refine (Nat.mod_lt M hpositive).trans ?_
      rw [← hN]
      exact hn
  have hvalue : ((M % N : Nat) : ℚ) * 2 ^ min e f =
      (m : ℚ) * 2 ^ e - n * 2 ^ f * ⌊(m : ℚ) * 2 ^ e / (n * 2 ^ f)⌋₊ := by
    rw [← hdividend, ← hdivisor, mul_div_mul_right _ _ hunit, Nat.floor_div_eq_div]
    have hsplit : (M : ℚ) = N * (M / N : Nat) + (M % N : Nat) := by
      exact_mod_cast (Nat.div_add_mod M N).symm
    rw [hsplit]
    ring
  obtain ⟨n', d', hd', hquotient, hround⟩ := ofDyadic_eq_ofRatio s (M % N) (min e f)
  rw [hrem, hround, ← hvalue, ← hquotient]
  exact has_ofRatio_exact s hd' hfits (le_min hwx.least hwy.least)
    ((min_le_left e f).trans hwx.greatest) hquotient

/-! ### The remainder by two -/

theorem has_two : (2 : Single).Has false 2 := ⟨2 ^ 23, -22, by decide +kernel, by norm_num⟩

/-- The remainder by two, on the number that it is. -/
theorem exists_value?_rem_two (h : x.value? = some a) :
    ∃ (r : ℚ) (k : ℤ), (x % 2).value? = some r ∧ a = r + 2 * k ∧ |r| < 2 ∧ (r < 0 → a < 0) ∧
      ((x % 2).lt 0 = true ↔ r < 0) := by
  obtain ⟨s, p, hx, rfl⟩ := value?_eq_some_iff.mp h
  have hp := hx.nonneg
  have hrem := hx.rem has_two two_ne_zero
  have hfloor := Nat.floor_le (div_nonneg hp zero_le_two)
  have hceil := Nat.lt_floor_add_one (p / 2)
  have hlow : 0 ≤ p - 2 * ⌊p / 2⌋₊ := by linarith
  have hhigh : p - 2 * ⌊p / 2⌋₊ < 2 := by linarith
  refine ⟨_, signedCount s ⌊p / 2⌋₊, hrem.value?, ?_, ?_, ?_, ?_⟩
  · rw [cast_signedCount]
    cases s <;> simp only [signOf, if_true, if_false, Bool.false_eq_true] <;> ring
  · rwa [abs_signOf s hlow]
  · intro hneg
    cases s
    · exact absurd hneg (not_lt.mpr hlow)
    · have hpos : 0 < p - 2 * ⌊p / 2⌋₊ := neg_neg_iff_pos.mp hneg
      have hcount : (0 : ℚ) ≤ ⌊p / 2⌋₊ := Nat.cast_nonneg _
      show -p < 0
      linarith
  · exact lt_iff hrem has_zero

/-- **The correction of a negative remainder is exact**, where the dividend lies on the grid of the
numbers from one up to two. -/
theorem value?_remEuclid_two {r : ℚ} (hr : (x % 2).value? = some r) (hsmall : |r| < 2)
    (htest : (x % 2).lt 0 = true ↔ r < 0) (hgrid : r < 0 → OnGrid (-23) r) :
    (x.remEuclid 2).value? = some (if r < 0 then r + 2 else r) := by
  have habs : (2 : Single).abs = 2 := by decide +kernel
  have hdef : x.remEuclid 2 = if (x % 2).lt 0 then x % 2 + (2 : Single).abs else x % 2 := rfl
  rw [hdef, habs]
  by_cases hneg : r < 0
  · rw [if_pos (htest.mpr hneg), if_pos hneg]
    have hlow := (abs_lt.mp hsmall).1
    refine value?_add_of_onGrid (u := -23) hr has_two.value? ?_ ?_ (by decide) (by decide)
    · exact (hgrid hneg).add (OnGrid.intCast 2 (by decide))
    · show |r + 2| < _
      rw [abs_of_pos (by linarith)]
      norm_num
      linarith
  · rw [if_neg (mt htest.mp hneg), if_neg hneg, hr]

end FilterScript.Single
