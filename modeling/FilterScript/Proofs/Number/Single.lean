/-
Single-precision numbers as rational numbers.

A finite number is a sign and a size.  Its size grows with its bits, so the order of numbers, which is
decided on the bits, is the order of the rationals; and the bits that `pack` makes of a rounded number
show that number again.  What is known of rounding is thereby known of every operation that rounds.
-/
import FilterScript.Number.Single
import FilterScript.Proofs.Number.Rounding
import Mathlib.Tactic.FieldSimp

namespace FilterScript.Single

open BinaryFormat

/-- A sign put to a size. -/
def signOf (negative : Bool) (size : ℚ) : ℚ := if negative then -size else size

/-- The rational number that a finite number is. -/
def value? (x : Single) : Option ℚ :=
  match x.view with
  | .finite negative m e => some (signOf negative (m * 2 ^ e))
  | _ => none

/-- `x` is finite, with a sign and a size. -/
def Has (x : Single) (negative : Bool) (size : ℚ) : Prop :=
  ∃ m e, x.view = .finite negative m e ∧ (m : ℚ) * 2 ^ e = size

namespace Has

variable {x y : Single} {s t : Bool} {p q : ℚ}

theorem value? (h : x.Has s p) : x.value? = some (signOf s p) := by
  obtain ⟨m, e, hv, rfl⟩ := h
  simp only [Single.value?, hv]

theorem nonneg (h : x.Has s p) : 0 ≤ p := by
  obtain ⟨m, e, -, rfl⟩ := h
  positivity

theorem isFinite (h : x.Has s p) : x.isFinite = true := by
  obtain ⟨m, e, hv, -⟩ := h
  simp only [Single.isFinite, hv]

end Has

theorem has_zero : (0 : Single).Has false 0 := ⟨0, -149, by decide +kernel, by norm_num⟩

theorem has_one : (1 : Single).Has false 1 := ⟨2 ^ 23, -23, by decide +kernel, by norm_num⟩

/-! ### Sizes and bits -/

/-- The size that the bits below the sign stand for. -/
def sizeOf (n : Nat) : ℚ :=
  if n / 2 ^ 23 = 0 then n * 2 ^ (-149 : ℤ)
  else ((n % 2 ^ 23 + 2 ^ 23 : Nat) : ℚ) * 2 ^ (((n / 2 ^ 23 : Nat) : ℤ) - 150)

/-- One bit more makes a number larger; a fraction that runs over goes on in the next exponent. -/
theorem sizeOf_lt_succ (n : Nat) : sizeOf n < sizeOf (n + 1) := by
  unfold sizeOf
  by_cases hsmall : n / 2 ^ 23 = 0
  · rw [if_pos hsmall]
    by_cases hnext : (n + 1) / 2 ^ 23 = 0
    · rw [if_pos hnext]
      gcongr
      omega
    · have hn : n = 2 ^ 23 - 1 := by omega
      subst hn
      norm_num
  · rw [if_neg hsmall, if_neg (by omega)]
    by_cases hnext : (n + 1) / 2 ^ 23 = n / 2 ^ 23
    · rw [hnext]
      gcongr
      omega
    · have hq : (n + 1) / 2 ^ 23 = n / 2 ^ 23 + 1 := by omega
      have hr : n % 2 ^ 23 = 2 ^ 23 - 1 := by omega
      have hr' : (n + 1) % 2 ^ 23 = 0 := by omega
      have he : ((n / 2 ^ 23 + 1 : Nat) : ℤ) - 150 = (((n / 2 ^ 23 : Nat) : ℤ) - 150) + 1 := by omega
      rw [hq, hr, hr', he, zpow_add₀ two_ne_zero, zpow_one]
      generalize ((n / 2 ^ 23 : Nat) : ℤ) - 150 = e
      have : (0 : ℚ) < 2 ^ e := by positivity
      norm_num
      linarith

theorem sizeOf_strictMono : StrictMono sizeOf := strictMono_nat_of_lt_succ sizeOf_lt_succ

/-- The size of a finite number is that of its bits below the sign. -/
theorem Has.bits {x : Single} {s : Bool} {p : ℚ} (h : x.Has s p) :
    s = x.isNegative ∧ p = sizeOf (x.bits.toNat % 2 ^ 31) := by
  obtain ⟨m, e, hv, rfl⟩ := h
  have hlt := x.bits.toNat_lt
  unfold view at hv
  have hexp : x.bits.toNat % 2 ^ 31 / 2 ^ 23 = x.bits.toNat / 2 ^ 23 % 2 ^ 8 := by omega
  have hfrac : x.bits.toNat % 2 ^ 31 % 2 ^ 23 = x.bits.toNat % 2 ^ 23 := by omega
  unfold sizeOf
  rw [hexp, hfrac]
  dsimp only at hv
  split at hv
  · split at hv <;> cases hv
  · split at hv
    next hzero =>
      cases hv
      refine ⟨rfl, ?_⟩
      rw [if_pos hzero]
      congr 2
      omega
    next hzero =>
      cases hv
      refine ⟨rfl, ?_⟩
      rw [if_neg hzero]

/-! ### Order -/

section Order

variable {x y : Single} {s t : Bool} {p q : ℚ}

theorem Has.isNaN (h : x.Has s p) : x.isNaN = false := by
  obtain ⟨m, e, hv, -⟩ := h
  simp [Single.isNaN, hv]

/-- The place of a number on the line, by its sign and the bits below it. -/
def rank (x : Single) : ℤ :=
  if x.isNegative then -((x.bits.toNat % 2 ^ 31 : Nat) : ℤ) else ((x.bits.toNat % 2 ^ 31 : Nat) : ℤ)

theorem sizeOf_zero : sizeOf 0 = 0 := by simp [sizeOf]

/-- Ranks stand as the rationals do. -/
theorem rank_le_iff (hx : x.Has s p) (hy : y.Has t q) :
    x.rank ≤ y.rank ↔ signOf s p ≤ signOf t q := by
  obtain ⟨rfl, rfl⟩ := hx.bits
  obtain ⟨rfl, rfl⟩ := hy.bits
  generalize hm : x.bits.toNat % 2 ^ 31 = m
  generalize hn : y.bits.toNat % 2 ^ 31 = n
  have hle := sizeOf_strictMono.le_iff_le (a := m) (b := n)
  have hge := sizeOf_strictMono.le_iff_le (a := n) (b := m)
  have hpos (k : Nat) : 0 ≤ sizeOf k := by
    rw [← sizeOf_zero]
    exact sizeOf_strictMono.monotone (Nat.zero_le k)
  have hzero (k : Nat) : sizeOf k = 0 ↔ k = 0 := by
    rw [← sizeOf_zero]
    exact sizeOf_strictMono.injective.eq_iff
  unfold rank signOf
  rw [hm, hn]
  cases x.isNegative <;> cases y.isNegative <;> simp only [Bool.false_eq_true, ↓reduceIte]
  · rw [hle, Int.ofNat_le]
  · -- A positive number is below a negative one only if both are zero.
    have hp := hpos m
    have hq := hpos n
    constructor
    · intro h
      have : m = 0 := by omega
      have : n = 0 := by omega
      simp_all [sizeOf_zero]
    · intro h
      have : m = 0 := (hzero m).mp (by linarith)
      have : n = 0 := (hzero n).mp (by linarith)
      omega
  · have hp := hpos m
    have hq := hpos n
    exact ⟨fun _ => by linarith, fun _ => by omega⟩
  · rw [neg_le_neg_iff, neg_le_neg_iff, hge, Int.ofNat_le]

/-- **The order of finite numbers is the order of the rationals that they are.** -/
theorem le_iff (hx : x.Has s p) (hy : y.Has t q) : x.le y = true ↔ signOf s p ≤ signOf t q := by
  have hdef : x.le y = (!x.isNaN && !y.isNaN && decide (x.rank ≤ y.rank)) := rfl
  rw [hdef, hx.isNaN, hy.isNaN, ← rank_le_iff hx hy]
  simp

theorem lt_iff (hx : x.Has s p) (hy : y.Has t q) : x.lt y = true ↔ signOf s p < signOf t q := by
  have hdef : x.lt y = (!x.isNaN && !y.isNaN && decide (x.rank < y.rank)) := rfl
  rw [← not_le, ← rank_le_iff hy hx, hdef, hx.isNaN, hy.isNaN]
  simp

end Order

/-! ### Rounded numbers -/

/-- What a sign, an exponent and a fraction show when they are put together. -/
theorem view_fields (s : Bool) {e f : Nat} (he : e < 255) (hf : f < 2 ^ 23) :
    (⟨UInt32.ofNat ((if s then 2 ^ 31 else 0) + e * 2 ^ 23 + f)⟩ : Single).view =
      if e = 0 then .finite s f (-149) else .finite s (f + 2 ^ 23) ((e : ℤ) - 150) := by
  obtain ⟨n, hn⟩ : ∃ n, (if s then 2 ^ 31 else 0) + e * 2 ^ 23 + f = n := ⟨_, rfl⟩
  have hs : (if s then 2 ^ 31 else 0 : Nat) = 2 ^ 31 ∧ s = true ∨
      (if s then 2 ^ 31 else 0 : Nat) = 0 ∧ s = false := by cases s <;> simp
  have hbits : (UInt32.ofNat n).toNat = n := by
    rw [UInt32.toNat_ofNat']
    omega
  have hexp : n / 2 ^ 23 % 2 ^ 8 = e := by omega
  have hfrac : n % 2 ^ 23 = f := by omega
  have hneg : decide (2 ^ 31 ≤ n) = s := by
    rcases hs with ⟨hs, rfl⟩ | ⟨hs, rfl⟩
    · exact decide_eq_true (by omega)
    · exact decide_eq_false (by omega)
  rw [hn]
  unfold view
  simp only [hbits, hexp, hfrac, hneg]
  rw [if_neg (by omega)]

/-- The bits of a number that the format writes show it again. -/
theorem view_pack (s : Bool) {r : Dyadic} (h : single.Writes r) :
    (pack s r.mantissa r.exponent).view = .finite s r.mantissa r.exponent := by
  obtain ⟨m, e⟩ := r
  obtain ⟨hm, hl, hg, hfull⟩ := h
  simp only [single] at hm hl hg hfull
  have hdef : pack s m e =
      if m < 2 ^ 23 then ⟨UInt32.ofNat ((if s then 2 ^ 31 else 0) + m)⟩
      else ⟨UInt32.ofNat ((if s then 2 ^ 31 else 0) + (e + 150).toNat * 2 ^ 23 + (m - 2 ^ 23))⟩ := rfl
  rw [hdef]
  split
  next hsmall =>
    obtain rfl : e = -149 := hfull.resolve_left (by omega)
    have := view_fields s (e := 0) (by omega) hsmall
    rwa [Nat.zero_mul, Nat.add_zero, if_pos rfl] at this
  next hlarge =>
    rw [view_fields s (by omega) (by omega), if_neg (by omega)]
    show View.finite s (m - 2 ^ 23 + 2 ^ 23) ((e + 150).toNat - 150) = .finite s m e
    congr 1 <;> omega

/-- Whatever is rounded within the finite range, its sign and its size are those of what rounding
answers. -/
theorem has_ofRatio (s : Bool) {n d : Nat} (hd : 0 < d) {r : Dyadic}
    (h : single.round n d = some r) : (ofRatio s n d).Has s r.value := by
  unfold ofRatio
  rw [h]
  exact ⟨r.mantissa, r.exponent, view_pack s (round_writes single_proper hd h), rfl⟩

/-- **A quotient that is a number of the format is answered as it is.** -/
theorem has_ofRatio_exact (s : Bool) {n d m : Nat} (hd : 0 < d) {e : ℤ} (hm : m < 2 ^ 24)
    (hl : -149 ≤ e) (hg : e ≤ 104) (h : (n : ℚ) / d = m * 2 ^ e) :
    (ofRatio s n d).Has s ((n : ℚ) / d) := by
  obtain ⟨r, hr, hv⟩ := round_exact single_proper hd (m := m) (e := e) hm hl hg h
  rw [← hv]
  exact has_ofRatio s hd hr

/-- A quotient within a power of two is answered within it. -/
theorem has_ofRatio_le (s : Bool) {n d : Nat} (hd : 0 < d) {k : ℤ} (hl : -149 ≤ k) (hg : k < 104)
    (h : (n : ℚ) / d ≤ 2 ^ k) : ∃ q, (ofRatio s n d).Has s q ∧ q ≤ 2 ^ k := by
  obtain ⟨r, hr⟩ := round_isSome single_proper hd (k := k) hl hg h
  exact ⟨r.value, has_ofRatio s hd hr, value_round_le single_proper hd hr hl h⟩

/-- Numbers of one sign and one size that rounding answers are the same number. -/
theorem ofRatio_congr (s : Bool) {n d n' d' : Nat} (hd : 0 < d) (hd' : 0 < d') {r r' : Dyadic}
    (h : single.round n d = some r) (h' : single.round n' d' = some r')
    (hv : r.value = r'.value) : ofRatio s n d = ofRatio s n' d' := by
  have : r = r' :=
    (round_writes single_proper hd h).eq (by decide) (round_writes single_proper hd' h') hv
  unfold ofRatio
  rw [h, h', this]

/-! ### Quotients -/

/-- **A quotient of finite numbers is rounded once**: it is the number nearest to the quotient of
their sizes, with the product of their signs. -/
theorem div_eq_ofRatio {x y : Single} {s t : Bool} {p q : ℚ} (hx : x.Has s p) (hy : y.Has t q)
    (hq : q ≠ 0) : ∃ n d : Nat, 0 < d ∧ (n : ℚ) / d = p / q ∧ x / y = ofRatio (s ^^ t) n d := by
  obtain ⟨m, e, hv, rfl⟩ := hx
  obtain ⟨n, f, hw, rfl⟩ := hy
  have hn : n ≠ 0 := by
    rintro rfl
    simp at hq
  have hdiv : x / y = if 0 ≤ e - f then ofRatio (s ^^ t) (m <<< (e - f).toNat) n
      else ofRatio (s ^^ t) m (n <<< (-(e - f)).toNat) := by
    show x.div y = _
    unfold div
    rw [hv, hw]
    simp only [hn, ↓reduceIte]
  have hsizes : (m : ℚ) * 2 ^ e / (n * 2 ^ f) = m * 2 ^ (e - f) / n := by
    rw [zpow_sub₀ two_ne_zero]
    field_simp
  rw [hdiv, hsizes]
  split
  next h =>
    obtain ⟨k, hk⟩ := Int.eq_ofNat_of_zero_le h
    refine ⟨_, _, Nat.pos_of_ne_zero hn, ?_, rfl⟩
    rw [hk, Int.toNat_natCast, Nat.shiftLeft_eq, zpow_natCast]
    push_cast
    rfl
  next h =>
    obtain ⟨k, hk⟩ := Int.eq_ofNat_of_zero_le (a := -(e - f)) (by omega)
    have hpos : 0 < n <<< k := by
      rw [Nat.shiftLeft_eq]
      exact Nat.mul_pos (Nat.pos_of_ne_zero hn) (Nat.two_pow_pos k)
    refine ⟨m, n <<< k, hpos, ?_, by rw [hk, Int.toNat_natCast]⟩
    rw [Nat.shiftLeft_eq, show e - f = -(k : ℤ) by omega, zpow_neg, zpow_natCast]
    push_cast
    field_simp

end FilterScript.Single
