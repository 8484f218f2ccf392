/-
Whole numbers among the single-precision ones.

A number is taken apart at its point: the part before it is the size rounded down, the part after it is
what is missing, and both have no more bits than the number, so neither the division nor the difference
is rounded.  That is why the test for a whole number, which is made on the difference, is exact for
every number; and a conversion to an integer, which drops the part after the point, loses nothing of a
number that passes it.
-/
import FilterScript.Proofs.Number.Single
import Mathlib.Algebra.Order.Floor.Semifield
import Mathlib.Data.Rat.Floor

namespace FilterScript.Single

open BinaryFormat

variable {x y z : Single} {s t : Bool} {p q a b : ℚ} {m n : Nat} {e f : ℤ}

/-! ### Values -/

theorem value?_eq_some_iff : x.value? = some a ↔ ∃ s p, x.Has s p ∧ signOf s p = a := by
  constructor
  · intro h
    unfold value? at h
    split at h
    next s m e hv => exact ⟨s, _, ⟨m, e, hv, rfl⟩, Option.some.inj h⟩
    · cases h
  · rintro ⟨s, p, h, rfl⟩
    exact h.value?

theorem le_iff_of_value? (hx : x.value? = some a) (hy : y.value? = some b) :
    x.le y = true ↔ a ≤ b := by
  obtain ⟨s, p, hasx, rfl⟩ := value?_eq_some_iff.mp hx
  obtain ⟨t, q, hasy, rfl⟩ := value?_eq_some_iff.mp hy
  exact le_iff hasx hasy

/-- Numbers are equal that are numbers and of the same rank. -/
theorem beq_iff : (x == y) = true ↔ x.isNaN = false ∧ y.isNaN = false ∧ x.rank = y.rank := by
  have hdef : (x == y) = (!x.isNaN && !y.isNaN && decide (x.rank = y.rank)) := rfl
  rw [hdef]
  simp [and_assoc]

theorem beq_comm (x y : Single) : (x == y) = (y == x) := by
  rw [Bool.eq_iff_iff, beq_iff, beq_iff, and_left_comm, eq_comm (a := x.rank)]

theorem beq_trans (hxy : (x == y) = true) (hyz : (y == z) = true) : (x == z) = true := by
  obtain ⟨hx, -, hrank⟩ := beq_iff.mp hxy
  obtain ⟨-, hz, hrank'⟩ := beq_iff.mp hyz
  exact beq_iff.mpr ⟨hx, hz, hrank.trans hrank'⟩

/-- Finite numbers are equal as the rationals are that they are. -/
theorem beq_iff_of_value? (hx : x.value? = some a) (hy : y.value? = some b) :
    (x == y) = true ↔ a = b := by
  obtain ⟨s, p, hasx, rfl⟩ := value?_eq_some_iff.mp hx
  obtain ⟨t, q, hasy, rfl⟩ := value?_eq_some_iff.mp hy
  have hrank : x.rank = y.rank ↔ signOf s p = signOf t q := by
    rw [le_antisymm_iff, rank_le_iff hasx hasy, rank_le_iff hasy hasx, ← le_antisymm_iff]
  rw [beq_iff, hasx.isNaN, hasy.isNaN, hrank]
  simp

theorem isFinite_iff : x.isFinite = true ↔ ∃ a, x.value? = some a := by
  unfold isFinite value?
  cases x.view <;> simp

theorem beq_self (h : x.isFinite = true) : (x == x) = true := by
  obtain ⟨a, ha⟩ := isFinite_iff.mp h
  exact (beq_iff_of_value? ha ha).mpr rfl

/-! ### Views -/

/-- What the bits of a finite number show is written as the format writes numbers. -/
theorem writes_of_view (h : x.view = .finite s m e) : single.Writes ⟨m, e⟩ := by
  have hlt := x.bits.toNat_lt
  unfold view at h
  dsimp only at h
  split at h
  · split at h <;> cases h
  · split at h <;> cases h
    · refine ⟨?_, le_rfl, ?_, .inr rfl⟩ <;> simp only [single] <;> omega
    · refine ⟨?_, ?_, ?_, .inl ?_⟩ <;> simp only [single] <;> omega

/-- The opposite number differs in its sign alone. -/
theorem view_neg (h : x.view = .finite s m e) : (-x).view = .finite (!s) m e := by
  have hlt := x.bits.toNat_lt
  have hbits : (-x).bits.toNat = (x.bits.toNat + 2 ^ 31) % 2 ^ 32 := by
    show (UInt32.ofNat _).toNat = _
    rw [UInt32.toNat_ofNat', Nat.mod_mod]
  have hexp : (-x).bits.toNat / 2 ^ 23 % 2 ^ 8 = x.bits.toNat / 2 ^ 23 % 2 ^ 8 := by omega
  have hfrac : (-x).bits.toNat % 2 ^ 23 = x.bits.toNat % 2 ^ 23 := by omega
  have hsign : decide (2 ^ 31 ≤ (-x).bits.toNat) = !decide (2 ^ 31 ≤ x.bits.toNat) := by
    rw [← decide_not, decide_eq_decide]
    omega
  unfold view at h ⊢
  dsimp only at h ⊢
  rw [hexp, hfrac, hsign]
  split at h
  · split at h <;> cases h
  next hexp =>
    rw [if_neg hexp]
    split at h
    next hzero =>
      cases h
      rw [if_pos hzero]
    next hzero =>
      cases h
      rw [if_neg hzero]

theorem Has.neg (h : x.Has s p) : (-x).Has (!s) p := by
  obtain ⟨m, e, hv, hp⟩ := h
  exact ⟨m, e, view_neg hv, hp⟩

/-- A number without its sign differs in the sign alone. -/
theorem view_abs (h : x.view = .finite s m e) : x.abs.view = .finite false m e := by
  have hbits : x.abs.bits.toNat = x.bits.toNat % 2 ^ 31 := by
    show (UInt32.ofNat _).toNat = _
    rw [UInt32.toNat_ofNat', Nat.mod_eq_of_lt (by omega)]
  have hexp : x.abs.bits.toNat / 2 ^ 23 % 2 ^ 8 = x.bits.toNat / 2 ^ 23 % 2 ^ 8 := by omega
  have hfrac : x.abs.bits.toNat % 2 ^ 23 = x.bits.toNat % 2 ^ 23 := by omega
  have hsign : decide (2 ^ 31 ≤ x.abs.bits.toNat) = false := decide_eq_false (by omega)
  unfold view at h ⊢
  dsimp only at h ⊢
  rw [hexp, hfrac, hsign]
  split at h
  · split at h <;> cases h
  next hexp =>
    rw [if_neg hexp]
    split at h
    next hzero =>
      cases h
      rw [if_pos hzero]
    next hzero =>
      cases h
      rw [if_neg hzero]

theorem Has.abs (h : x.Has s p) : x.abs.Has false p := by
  obtain ⟨m, e, hv, hp⟩ := h
  exact ⟨m, e, view_abs hv, hp⟩

theorem signOf_not (s : Bool) (p : ℚ) : signOf (!s) p = -signOf s p := by
  cases s <;> simp [signOf]

/-! ### Sums -/

/-- A number times a power of two is rounded as a quotient. -/
theorem ofDyadic_eq_ofRatio (s : Bool) (m : Nat) (e : ℤ) :
    ∃ n d : Nat, 0 < d ∧ (n : ℚ) / d = m * 2 ^ e ∧ ofDyadic s m e = ofRatio s n d := by
  by_cases he : 0 ≤ e
  · obtain ⟨k, rfl⟩ := Int.eq_ofNat_of_zero_le he
    refine ⟨m <<< k, 1, Nat.one_pos, ?_, ?_⟩
    · rw [Nat.shiftLeft_eq, zpow_natCast]
      push_cast
      ring
    · simp [ofDyadic, Dyadic.numerator, Dyadic.denominator]
  · obtain ⟨k, hk⟩ := Int.eq_ofNat_of_zero_le (a := -e) (by omega)
    obtain rfl : e = -(k : ℤ) := by omega
    refine ⟨m, 1 <<< k, by rw [Nat.shiftLeft_eq]; positivity, ?_, ?_⟩
    · rw [Nat.shiftLeft_eq, zpow_neg, zpow_natCast]
      push_cast
      field_simp
    · simp only [ofDyadic, Dyadic.numerator, Dyadic.denominator, he, ↓reduceIte, neg_neg,
        Int.toNat_natCast]

/-- A sign put to a count. -/
def signedCount (negative : Bool) (m : Nat) : ℤ := if negative then -m else m

theorem cast_signedCount (s : Bool) (m : Nat) : (signedCount s m : ℚ) = signOf s m := by
  cases s <;> simp [signedCount, signOf]

/-- A number counted in a smaller unit. -/
theorem cast_shiftLeft (m : Nat) {u : ℤ} (hu : u ≤ e) :
    ((m <<< (e - u).toNat : Nat) : ℚ) * 2 ^ u = m * 2 ^ e := by
  obtain ⟨k, hk⟩ := Int.eq_ofNat_of_zero_le (sub_nonneg.mpr hu)
  rw [hk, Int.toNat_natCast, Nat.shiftLeft_eq, show e = k + u by omega, zpow_add₀ two_ne_zero,
    zpow_natCast]
  push_cast
  ring

theorem signOf_mul (s : Bool) (p q : ℚ) : signOf s (p * q) = signOf s p * q := by
  cases s <;> simp [signOf]

/-- The sum of two numbers, counted in the smaller of their units. -/
theorem add_of_views (hx : x.view = .finite s m e) (hy : y.view = .finite t n f) :
    ∃ total : ℤ, (total : ℚ) * 2 ^ min e f = signOf s (m * 2 ^ e) + signOf t (n * 2 ^ f) ∧
      x + y = if total = 0 then zeroOf (s && t)
        else ofDyadic (decide (total < 0)) total.natAbs (min e f) := by
  refine ⟨signedCount s (m <<< (e - min e f).toNat) + signedCount t (n <<< (f - min e f).toNat),
    ?_, ?_⟩
  · rw [Int.cast_add, cast_signedCount, cast_signedCount, add_mul, ← signOf_mul, ← signOf_mul,
      cast_shiftLeft m (min_le_left e f), cast_shiftLeft n (min_le_right e f)]
  · show x.add y = _
    unfold add
    rw [hx, hy]
    rfl

theorem has_zeroOf (s : Bool) : (zeroOf s).Has s 0 := by
  cases s
  · exact ⟨0, -149, by decide +kernel, by norm_num⟩
  · exact ⟨0, -149, by decide +kernel, by norm_num⟩

theorem abs_signOf (s : Bool) (h : 0 ≤ p) : |signOf s p| = p := by
  cases s
  · exact abs_of_nonneg h
  · exact (abs_neg p).trans (abs_of_nonneg h)

theorem signOf_decide_abs (q : ℚ) : signOf (decide (q < 0)) |q| = q := by
  rcases lt_or_ge q 0 with hneg | hnonneg
  · rw [decide_eq_true hneg, abs_of_neg hneg]
    exact neg_neg q
  · rw [decide_eq_false (not_lt.mpr hnonneg), abs_of_nonneg hnonneg]
    rfl

/-- **A sum is rounded once**: it is the number nearest to the exact sum. -/
theorem add_eq_ofRatio (hx : x.value? = some a) (hy : y.value? = some b) (h : a + b ≠ 0) :
    ∃ n d : Nat, 0 < d ∧ (n : ℚ) / d = |a + b| ∧ x + y = ofRatio (decide (a + b < 0)) n d := by
  obtain ⟨s, -, ⟨m, e, hvx, rfl⟩, rfl⟩ := value?_eq_some_iff.mp hx
  obtain ⟨t, -, ⟨n, f, hvy, rfl⟩, rfl⟩ := value?_eq_some_iff.mp hy
  obtain ⟨total, htotal, hsum⟩ := add_of_views hvx hvy
  have hunit : (0 : ℚ) < 2 ^ min e f := by positivity
  rw [← htotal] at h ⊢
  have hzero : total ≠ 0 := by
    rintro rfl
    simp at h
  have hneg : (total : ℚ) * 2 ^ min e f < 0 ↔ total < 0 := by
    have hscaled := mul_lt_mul_iff_of_pos_right (b := (total : ℚ)) (c := 0) hunit
    rw [zero_mul] at hscaled
    exact_mod_cast hscaled
  obtain ⟨n', d', hd', hquotient, hround⟩ :=
    ofDyadic_eq_ofRatio (decide (total < 0)) total.natAbs (min e f)
  refine ⟨n', d', hd', ?_, ?_⟩
  · rw [hquotient, Nat.cast_natAbs, Int.cast_abs, abs_mul, abs_of_pos hunit]
  · rw [hsum, if_neg hzero, hround, decide_eq_decide.mpr hneg]

theorem value?_add_of_eq_zero (hx : x.value? = some a) (hy : y.value? = some b) (h : a + b = 0) :
    (x + y).value? = some 0 := by
  obtain ⟨s, -, ⟨m, e, hvx, rfl⟩, rfl⟩ := value?_eq_some_iff.mp hx
  obtain ⟨t, -, ⟨n, f, hvy, rfl⟩, rfl⟩ := value?_eq_some_iff.mp hy
  obtain ⟨total, htotal, hsum⟩ := add_of_views hvx hvy
  have hzero : total = 0 := by
    rw [← htotal, mul_eq_zero, or_iff_left (by positivity)] at h
    exact_mod_cast h
  rw [hsum, if_pos hzero, (has_zeroOf _).value?]
  cases s && t <;> simp [signOf]

/-- **A sum that the format can hold is not rounded.** -/
theorem value?_add_exact (hx : x.value? = some a) (hy : y.value? = some b) {k : Nat} {u : ℤ}
    (hk : k < 2 ^ 24) (hl : -149 ≤ u) (hg : u ≤ 104) (h : |a + b| = k * 2 ^ u) :
    (x + y).value? = some (a + b) := by
  by_cases hzero : a + b = 0
  · rw [hzero]
    exact value?_add_of_eq_zero hx hy hzero
  · obtain ⟨n, d, hd, hquotient, hsum⟩ := add_eq_ofRatio hx hy hzero
    rw [hsum, (has_ofRatio_exact _ hd hk hl hg (hquotient.trans h)).value?, hquotient,
      signOf_decide_abs]

/-! ### The part before the point -/

/-- Dropping the bits behind the point rounds a size down. -/
theorem shift_eq_floor (m : Nat) (e : ℤ) :
    (if 0 ≤ e then m <<< e.toNat else m >>> (-e).toNat) = ⌊(m : ℚ) * 2 ^ e⌋₊ := by
  split
  next he =>
    obtain ⟨k, rfl⟩ := Int.eq_ofNat_of_zero_le he
    rw [Int.toNat_natCast, Nat.shiftLeft_eq, zpow_natCast]
    exact_mod_cast (Nat.floor_natCast (R := ℚ) (m * 2 ^ k)).symm
  next he =>
    obtain ⟨k, hk⟩ := Int.eq_ofNat_of_zero_le (a := -e) (by omega)
    obtain rfl : e = -(k : ℤ) := by omega
    rw [neg_neg, Int.toNat_natCast, Nat.shiftRight_eq_div_pow, zpow_neg, zpow_natCast,
      ← div_eq_mul_inv]
    exact_mod_cast (Nat.floor_div_eq_div (K := ℚ) m (2 ^ k)).symm

/-- What is missing to a size that is rounded down has no more bits than the size. -/
theorem exists_sub_floor (hm : m < 2 ^ 24) (hl : -149 ≤ e) (hg : e ≤ 104) :
    ∃ (k : Nat) (u : ℤ), k < 2 ^ 24 ∧ -149 ≤ u ∧ u ≤ 104 ∧
      (m : ℚ) * 2 ^ e - ⌊(m : ℚ) * 2 ^ e⌋₊ = k * 2 ^ u := by
  rw [← shift_eq_floor]
  split
  next he =>
    refine ⟨0, 0, by omega, by omega, by omega, ?_⟩
    obtain ⟨j, rfl⟩ := Int.eq_ofNat_of_zero_le he
    rw [Int.toNat_natCast, Nat.shiftLeft_eq, zpow_natCast]
    push_cast
    ring
  next he =>
    obtain ⟨j, hj⟩ := Int.eq_ofNat_of_zero_le (a := -e) (by omega)
    obtain rfl : e = -(j : ℤ) := by omega
    refine ⟨m % 2 ^ j, -j, (Nat.mod_le _ _).trans_lt hm, hl, hg, ?_⟩
    have hsplit : (m : ℚ) = 2 ^ j * (m / 2 ^ j : Nat) + (m % 2 ^ j : Nat) := by
      exact_mod_cast (Nat.div_add_mod m (2 ^ j)).symm
    rw [neg_neg, Int.toNat_natCast, Nat.shiftRight_eq_div_pow, zpow_neg, zpow_natCast]
    field_simp
    linarith

theorem Has.trunc (h : x.Has s p) : x.trunc.Has s ⌊p⌋₊ := by
  obtain ⟨m, e, hv, rfl⟩ := h
  have hm : m < 2 ^ 24 := (writes_of_view hv).fits
  have hfloor := shift_eq_floor m e
  unfold Single.trunc
  rw [hv]
  dsimp only
  split
  next he =>
    obtain ⟨k, rfl⟩ := Int.eq_ofNat_of_zero_le he
    rw [if_pos he, Int.toNat_natCast, Nat.shiftLeft_eq] at hfloor
    refine ⟨m, k, hv, ?_⟩
    rw [← hfloor, zpow_natCast]
    push_cast
    rfl
  next he =>
    rw [if_neg he] at hfloor
    have hlt : ⌊(m : ℚ) * 2 ^ e⌋₊ < 2 ^ 24 := by
      rw [← hfloor]
      exact (Nat.shiftRight_le m _).trans_lt hm
    have hexact := has_ofRatio_exact s Nat.one_pos (n := ⌊(m : ℚ) * 2 ^ e⌋₊) (e := 0) hlt
      (by decide) (by decide) (by norm_num)
    rw [Nat.cast_one, div_one] at hexact
    rwa [hfloor]

/-- **The part after the point is exact.** -/
theorem Has.value?_fract (h : x.Has s p) : x.fract.value? = some (signOf s (p - ⌊p⌋₊)) := by
  obtain ⟨m, e, hv, rfl⟩ := id h
  have hwrites := writes_of_view hv
  obtain ⟨k, u, hk, hl, hg, hrest⟩ :=
    exists_sub_floor (m := m) (e := e) hwrites.fits hwrites.least hwrites.greatest
  have hsum : signOf s (m * 2 ^ e) + signOf (!s) ⌊(m : ℚ) * 2 ^ e⌋₊ =
      signOf s (m * 2 ^ e - ⌊(m : ℚ) * 2 ^ e⌋₊) := by
    rw [signOf_not]
    cases s <;> simp [signOf] <;> ring
  show (x + -x.trunc).value? = _
  rw [value?_add_exact h.value? h.trunc.neg.value? hk hl hg, hsum]
  rw [hsum, ← hrest]
  have hnonneg : 0 ≤ (m : ℚ) * 2 ^ e - ⌊(m : ℚ) * 2 ^ e⌋₊ :=
    sub_nonneg.mpr (Nat.floor_le (by positivity))
  cases s
  · exact abs_of_nonneg hnonneg
  · exact (abs_neg _).trans (abs_of_nonneg hnonneg)

/-- The test for whole numbers finds those whose size is one. -/
theorem Has.isWhole_iff (h : x.Has s p) : x.isWhole = true ↔ (⌊p⌋₊ : ℚ) = p := by
  show (x.fract == 0) = true ↔ _
  rw [beq_iff_of_value? h.value?_fract has_zero.value?]
  cases s <;> simp [signOf] <;> constructor <;> intro <;> linarith

theorem Has.toInt (h : x.Has s p) (lo hi : ℤ) :
    x.toInt lo hi = max lo (min hi (signedCount s ⌊p⌋₊)) := by
  obtain ⟨m, e, hv, rfl⟩ := h
  unfold Single.toInt
  rw [hv, ← shift_eq_floor]
  rfl

/-! ### Whole numbers -/

variable {i : ℤ}

/-- A number that is an integer is its own part before the point. -/
theorem signedCount_floor (h : x.Has s p) (hi : signOf s p = i) :
    signedCount s ⌊p⌋₊ = i ∧ (⌊p⌋₊ : ℚ) = p := by
  have hsize : p = (i.natAbs : ℚ) := by
    rw [Nat.cast_natAbs, Int.cast_abs, ← hi]
    have hnonneg := h.nonneg
    cases s <;> simp [signOf, abs_of_nonneg hnonneg]
  have hfloor : ⌊p⌋₊ = i.natAbs := by rw [hsize, Nat.floor_natCast]
  refine ⟨?_, by rw [hfloor, hsize]⟩
  have hcast : (signedCount s ⌊p⌋₊ : ℚ) = i := by rw [cast_signedCount, hfloor, ← hsize, hi]
  exact_mod_cast hcast

/-- **The test for a whole number is exact.** -/
theorem whole_iff : x.isFinite = true ∧ x.isWhole = true ↔ ∃ i : ℤ, x.value? = some (i : ℚ) := by
  constructor
  · rintro ⟨hfinite, hwhole⟩
    obtain ⟨a, ha⟩ := isFinite_iff.mp hfinite
    obtain ⟨s, p, hx, rfl⟩ := value?_eq_some_iff.mp ha
    refine ⟨signedCount s ⌊p⌋₊, ?_⟩
    rw [hx.value?, cast_signedCount, hx.isWhole_iff.mp hwhole]
  · rintro ⟨i, h⟩
    obtain ⟨s, p, hx, hp⟩ := value?_eq_some_iff.mp h
    exact ⟨hx.isFinite, hx.isWhole_iff.mpr (signedCount_floor hx hp).2⟩

/-- **An integer is converted to itself**, held within the bounds. -/
theorem toInt_of_value? (h : x.value? = some (i : ℚ)) (lo hi : ℤ) :
    x.toInt lo hi = max lo (min hi i) := by
  obtain ⟨s, p, hx, hp⟩ := value?_eq_some_iff.mp h
  rw [hx.toInt, (signedCount_floor hx hp).1]

end FilterScript.Single
