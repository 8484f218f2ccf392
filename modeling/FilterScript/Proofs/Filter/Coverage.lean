/-
How many pixels the masks select that go by the place of a pixel.

The places of the pixels of an image, row behind row, are the numbers below `width * height`, each of
them once.  So a mask that selects every so many pixels selects an arithmetic progression below that
number, and how long it is, is one division rounded up.  Bands of rows repeat with their period: whole
periods count alike, and the rest is the beginning of one more.

The counts hold at every size, because no place and no period is too large for sixty-four bits.
-/
import FilterScript.Filter.Mask
import Mathlib.Algebra.Order.Floor.Div
import Mathlib.Data.Finset.Prod
import Mathlib.Data.Nat.Count
import Mathlib.Order.Interval.Finset.Nat

namespace FilterScript

namespace Mask

/-! ### The pixels of an image -/

/-- The columns of an image of some width, or its rows. -/
def lines (size : UInt32) : Finset UInt32 := (Finset.range size.toNat).image UInt32.ofNat

variable {width height : UInt32}

theorem toNat_ofNat_of_lt {size : UInt32} {k : Nat} (h : k < size.toNat) :
    (UInt32.ofNat k).toNat = k := by
  rw [UInt32.toNat_ofNat', Nat.mod_eq_of_lt (h.trans size.toNat_lt)]

theorem mem_lines {size x : UInt32} : x ∈ lines size ↔ x.toNat < size.toNat := by
  unfold lines
  rw [Finset.mem_image]
  constructor
  · rintro ⟨k, hk, rfl⟩
    have hk := Finset.mem_range.mp hk
    rwa [toNat_ofNat_of_lt hk]
  · intro h
    exact ⟨x.toNat, Finset.mem_range.mpr h, UInt32.ofNat_toNat⟩

/-- The pixels of an image that a mask selects, as pairs of column and row, wherever the centres of
the pixels lie. -/
def covered (mask : Mask) (width height : UInt32) (centre : UInt32 × UInt32 → Point) :
    Finset (UInt32 × UInt32) :=
  (lines width ×ˢ lines height).filter fun p => mask.covers ⟨p.1, p.2, width, height⟩ (centre p)

/-- The rows in which a mask selects the pixel of a column. -/
def coveredRows (mask : Mask) (width height : UInt32) (centre : UInt32 × UInt32 → Point)
    (column : UInt32) : Finset UInt32 :=
  (lines height).filter fun row => mask.covers ⟨column, row, width, height⟩ (centre (column, row))

/-! ### Places -/

/-- The pixel at a place. -/
def pixelAt (width : UInt32) (place : Nat) : UInt32 × UInt32 :=
  (UInt32.ofNat (place % width.toNat), UInt32.ofNat (place / width.toNat))

section Places

variable {p : UInt32 × UInt32} {place : Nat}

theorem index_lt (hp : p ∈ lines width ×ˢ lines height) :
    index ⟨p.1, p.2, width, height⟩ < width.toNat * height.toNat := by
  obtain ⟨hx, hy⟩ := Finset.mem_product.mp hp
  rw [mem_lines] at hx hy
  show p.2.toNat * width.toNat + p.1.toNat < _
  calc p.2.toNat * width.toNat + p.1.toNat < p.2.toNat * width.toNat + width.toNat := by omega
    _ = width.toNat * (p.2.toNat + 1) := by rw [Nat.mul_add, Nat.mul_one, Nat.mul_comm]
    _ ≤ width.toNat * height.toNat := Nat.mul_le_mul_left _ hy

theorem pixelAt_index (hp : p ∈ lines width ×ˢ lines height) :
    pixelAt width (index ⟨p.1, p.2, width, height⟩) = p := by
  obtain ⟨hx, -⟩ := Finset.mem_product.mp hp
  rw [mem_lines] at hx
  have hpos : 0 < width.toNat := Nat.zero_lt_of_lt hx
  show (UInt32.ofNat ((p.2.toNat * width.toNat + p.1.toNat) % width.toNat),
    UInt32.ofNat ((p.2.toNat * width.toNat + p.1.toNat) / width.toNat)) = p
  rw [Nat.mul_comm, Nat.mul_add_mod, Nat.mod_eq_of_lt hx, Nat.mul_add_div hpos,
    Nat.div_eq_of_lt hx, Nat.add_zero, UInt32.ofNat_toNat, UInt32.ofNat_toNat]

theorem toNat_pixelAt (h : place < width.toNat * height.toNat) :
    (pixelAt width place).1.toNat = place % width.toNat ∧
      (pixelAt width place).2.toNat = place / width.toNat ∧
      place % width.toNat < width.toNat ∧ place / width.toNat < height.toNat := by
  have hpos : 0 < width.toNat := Nat.pos_of_mul_pos_right (Nat.zero_lt_of_lt h)
  have hx : place % width.toNat < width.toNat := Nat.mod_lt _ hpos
  have hy : place / width.toNat < height.toNat := Nat.div_lt_of_lt_mul h
  exact ⟨toNat_ofNat_of_lt hx, toNat_ofNat_of_lt hy, hx, hy⟩

theorem pixelAt_mem (h : place < width.toNat * height.toNat) :
    pixelAt width place ∈ lines width ×ˢ lines height := by
  obtain ⟨hx, hy, hxlt, hylt⟩ := toNat_pixelAt h
  rw [Finset.mem_product, mem_lines, mem_lines, hx, hy]
  exact ⟨hxlt, hylt⟩

theorem index_pixelAt (h : place < width.toNat * height.toNat) :
    index ⟨(pixelAt width place).1, (pixelAt width place).2, width, height⟩ = place := by
  obtain ⟨hx, hy, -, -⟩ := toNat_pixelAt h
  show (pixelAt width place).2.toNat * width.toNat + (pixelAt width place).1.toNat = place
  rw [hx, hy, Nat.mul_comm]
  exact Nat.div_add_mod place width.toNat

/-- What is asked of the place of a pixel is asked of every number below `width * height`, once. -/
theorem card_places (P : Nat → Prop) [DecidablePred P] :
    ((lines width ×ˢ lines height).filter fun p => P (index ⟨p.1, p.2, width, height⟩)).card =
      ((Finset.range (width.toNat * height.toNat)).filter P).card := by
  refine Finset.card_nbij' (fun p => index ⟨p.1, p.2, width, height⟩) (pixelAt width) ?_ ?_ ?_ ?_
  · intro p hp
    obtain ⟨hp, hplace⟩ := Finset.mem_filter.mp hp
    exact Finset.mem_filter.mpr ⟨Finset.mem_range.mpr (index_lt hp), hplace⟩
  · intro place hplace
    obtain ⟨hlt, hplace⟩ := Finset.mem_filter.mp hplace
    have hlt := Finset.mem_range.mp hlt
    exact Finset.mem_filter.mpr ⟨pixelAt_mem hlt, (index_pixelAt hlt).symm ▸ hplace⟩
  · intro p hp
    exact pixelAt_index (Finset.mem_filter.mp hp).1
  · intro place hplace
    exact index_pixelAt (Finset.mem_range.mp (Finset.mem_filter.mp hplace).1)

end Places

/-! ### Every so many pixels -/

/-- The numbers below `n` with a remainder are an arithmetic progression. -/
theorem card_remainders (n : Nat) {d r : Nat} (hr : r < d) :
    ((Finset.range n).filter fun k => k % d = r).card = (n - r) ⌈/⌉ d := by
  have hd : 0 < d := Nat.zero_lt_of_lt hr
  have hlt (j : Nat) : j < (n - r) ⌈/⌉ d ↔ d * j + r < n := by
    rw [← not_le, ceilDiv_le_iff_le_mul hd]
    omega
  rw [← Finset.card_range ((n - r) ⌈/⌉ d)]
  refine (Finset.card_nbij' (fun j => d * j + r) (· / d) ?_ ?_ ?_ ?_).symm
  · intro j hj
    rw [Finset.coe_range, Set.mem_Iio, hlt] at hj
    simpa [Nat.mul_add_mod, Nat.mod_eq_of_lt hr] using hj
  · intro k hk
    obtain ⟨hk, hmod⟩ := Finset.mem_filter.mp hk
    rw [Finset.coe_range, Set.mem_Iio, hlt, ← hmod, Nat.div_add_mod]
    exact Finset.mem_range.mp hk
  · intro j _
    show (d * j + r) / d = j
    rw [Nat.mul_add_div hd, Nat.div_eq_of_lt hr, Nat.add_zero]
  · intro k hk
    obtain ⟨-, hmod⟩ := Finset.mem_filter.mp hk
    show d * (k / d) + r = k
    rw [← hmod, Nat.div_add_mod]

/-! ### Bands of rows -/

section Bands

variable {period bars : Nat}

/-- Within one period the band comes first. -/
theorem count_first {t : Nat} (ht : t ≤ period) : Nat.count (· % period < bars) t = min t bars := by
  rw [Nat.count_eq_card_filter_range, ← Finset.card_range (min t bars)]
  congr 1
  ext k
  rw [Finset.mem_filter, Finset.mem_range, Finset.mem_range, lt_min_iff]
  refine and_congr_right fun hk => ?_
  rw [Nat.mod_eq_of_lt (hk.trans_le ht)]

/-- A number of whole periods, and a part of one more. -/
theorem count_periods (hbars : bars ≤ period) (q : Nat) {t : Nat} (ht : t ≤ period) :
    Nat.count (· % period < bars) (period * q + t) = q * bars + min t bars := by
  induction q with
  | zero => rw [Nat.mul_zero, Nat.zero_mul, Nat.zero_add, Nat.zero_add, count_first ht]
  | succ q ih =>
      rw [Nat.mul_succ, Nat.add_comm _ period, Nat.add_assoc, Nat.count_add,
        count_first le_rfl, min_eq_right hbars]
      simp only [Nat.add_mod_left]
      rw [ih, Nat.succ_mul]
      omega

theorem card_bands (hbars : bars ≤ period) (n : Nat) :
    ((Finset.range n).filter (· % period < bars)).card =
      n / period * bars + min (n % period) bars := by
  rcases Nat.eq_zero_or_pos period with rfl | hpos
  · obtain rfl : bars = 0 := Nat.le_zero.mp hbars
    simp
  rw [← Nat.count_eq_card_filter_range, ← count_periods hbars _ (Nat.mod_lt n hpos).le,
    Nat.div_add_mod]

end Bands

/-- What is asked of the number of a row is asked of every number below the height, once. -/
theorem card_lines (size : UInt32) (P : Nat → Prop) [DecidablePred P] :
    ((lines size).filter fun x => P x.toNat).card = ((Finset.range size.toNat).filter P).card := by
  refine Finset.card_nbij' UInt32.toNat UInt32.ofNat ?_ ?_ ?_ ?_
  · intro x hx
    obtain ⟨hx, hP⟩ := Finset.mem_filter.mp hx
    exact Finset.mem_filter.mpr ⟨Finset.mem_range.mpr (mem_lines.mp hx), hP⟩
  · intro k hk
    obtain ⟨hk, hP⟩ := Finset.mem_filter.mp hk
    have hk' := toNat_ofNat_of_lt (Finset.mem_range.mp hk)
    refine Finset.mem_filter.mpr ⟨mem_lines.mpr ?_, ?_⟩
    · rw [hk']
      exact Finset.mem_range.mp hk
    · rwa [hk']
  · intro x _
    exact UInt32.ofNat_toNat
  · intro k hk
    exact toNat_ofNat_of_lt (Finset.mem_range.mp (Finset.mem_filter.mp hk).1)

/-! ### Sixty-four bits -/

section Words

variable (pixel : Pixel)

theorem place_lt : pixel.row.toNat * pixel.width.toNat < 2 ^ 64 ∧ index pixel < 2 ^ 64 := by
  have hrow := pixel.row.toNat_lt
  have hwidth := pixel.width.toNat_lt
  have hcolumn := pixel.column.toNat_lt
  have hproduct : pixel.row.toNat * pixel.width.toNat ≤ (2 ^ 32 - 1) * (2 ^ 32 - 1) :=
    Nat.mul_le_mul (by omega) (by omega)
  unfold index
  omega

/-- A machine that computes the place in sixty-four bits loses nothing. -/
theorem toNat_place :
    (pixel.row.toUInt64 * pixel.width.toUInt64 + pixel.column.toUInt64).toNat = index pixel := by
  obtain ⟨hproduct, hplace⟩ := place_lt pixel
  unfold index at hplace ⊢
  rw [UInt64.toNat_add, UInt64.toNat_mul, UInt32.toNat_toUInt64, UInt32.toNat_toUInt64,
    UInt32.toNat_toUInt64, Nat.mod_eq_of_lt hproduct, Nat.mod_eq_of_lt hplace]

theorem toNat_period (bars step : UInt32) :
    bars.toNat + step.toNat < 2 ^ 64 ∧
      (bars.toUInt64 + step.toUInt64).toNat = bars.toNat + step.toNat := by
  have hbars := bars.toNat_lt
  have hstep := step.toNat_lt
  have hsum : bars.toNat + step.toNat < 2 ^ 64 := by omega
  rw [UInt64.toNat_add, UInt32.toNat_toUInt64, UInt32.toNat_toUInt64, Nat.mod_eq_of_lt hsum]
  exact ⟨hsum, rfl⟩

end Words

/-! ### What the masks select -/

section Covers

variable {pixel : Pixel} {centre : Point} {divisor remainder bars step : UInt32}

theorem covers_mod : (mod divisor remainder).covers pixel centre = true ↔
    divisor ≠ 0 ∧ index pixel % divisor.toNat = remainder.toNat := by
  simp [covers]

theorem covers_rows : (rows bars step).covers pixel centre = true ↔
    pixel.row.toNat % (bars.toNat + step.toNat) < bars.toNat := by
  simp only [covers, Bool.and_eq_true, decide_eq_true_eq, and_iff_right_iff_imp]
  omega

theorem toNat_pos (hd : divisor ≠ 0) : 0 < divisor.toNat :=
  Nat.pos_of_ne_zero fun h => hd (UInt32.toNat_inj.mp h)

/-- A pixel is selected by one remainder, that of its place. -/
theorem covers_mod_unique (hd : divisor ≠ 0) (pixel : Pixel) (centre : Point) :
    ∃! r : UInt32, r.toNat < divisor.toNat ∧ (mod divisor r).covers pixel centre = true := by
  have hlt : index pixel % divisor.toNat < divisor.toNat := Nat.mod_lt _ (toNat_pos hd)
  have hword := toNat_ofNat_of_lt hlt
  refine ⟨UInt32.ofNat (index pixel % divisor.toNat), ⟨?_, ?_⟩, ?_⟩
  · rwa [hword]
  · exact covers_mod.mpr ⟨hd, hword.symm⟩
  · rintro r ⟨-, hr⟩
    rw [(covers_mod.mp hr).2, UInt32.ofNat_toNat]

end Covers

variable (divisor remainder bars step : UInt32) (centre : UInt32 × UInt32 → Point)

/-- What a mask selects of an image that goes by remainders of places. -/
structure Strided (width height : UInt32) : Prop where
  count : divisor ≠ 0 → remainder.toNat < divisor.toNat →
    (covered (mod divisor remainder) width height centre).card =
      (width.toNat * height.toNat - remainder.toNat) ⌈/⌉ divisor.toNat
  /-- The first place with this remainder lies behind the last pixel. -/
  beyond : width.toNat * height.toNat ≤ remainder.toNat →
    (covered (mod divisor remainder) width height centre).card = 0
  /-- There is no such remainder. -/
  never : divisor = 0 ∨ divisor.toNat ≤ remainder.toNat →
    (covered (mod divisor remainder) width height centre).card = 0
  /-- The remainders share all pixels out among them. -/
  shared : divisor ≠ 0 → ∀ (pixel : Pixel) (p : Point),
    ∃! r : UInt32, r.toNat < divisor.toNat ∧ (mod divisor r).covers pixel p = true

/-- What a mask selects of an image that goes by bands of rows. -/
structure Banded (width height : UInt32) : Prop where
  count : bars.toNat + step.toNat ≠ 0 → ∀ column,
    (coveredRows (rows bars step) width height centre column).card =
      height.toNat / (bars.toNat + step.toNat) * bars.toNat +
        min (height.toNat % (bars.toNat + step.toNat)) bars.toNat
  never : bars.toNat + step.toNat = 0 → ∀ column,
    (coveredRows (rows bars step) width height centre column).card = 0

/-- What a machine of sixty-four bits makes of a pixel, without an overflow. -/
structure Wordwise (pixel : Pixel) (p : Point) : Prop where
  product : pixel.row.toNat * pixel.width.toNat < 2 ^ 64
  place : pixel.row.toNat * pixel.width.toNat + pixel.column.toNat < 2 ^ 64
  period : bars.toNat + step.toNat < 2 ^ 64
  mod : (mod divisor remainder).covers pixel p =
    (divisor.toUInt64 != 0 &&
      (pixel.row.toUInt64 * pixel.width.toUInt64 + pixel.column.toUInt64) % divisor.toUInt64 ==
        remainder.toUInt64)
  rows : (rows bars step).covers pixel p =
    (bars.toUInt64 + step.toUInt64 != 0 &&
      pixel.row.toUInt64 % (bars.toUInt64 + step.toUInt64) < bars.toUInt64)

theorem strided : Strided divisor remainder centre width height := by
  have hcovered (hd : divisor ≠ 0) :
      (covered (mod divisor remainder) width height centre).card =
        ((Finset.range (width.toNat * height.toNat)).filter
          (· % divisor.toNat = remainder.toNat)).card := by
    rw [← card_places]
    congr 1
    ext p
    simp only [covered, Finset.mem_filter, covers_mod, hd, ne_eq, not_false_eq_true, true_and]
  have hnever (h : divisor = 0 ∨ divisor.toNat ≤ remainder.toNat) :
      (covered (mod divisor remainder) width height centre).card = 0 := by
    rw [Finset.card_eq_zero, covered, Finset.filter_eq_empty_iff]
    intro p _ hp
    obtain ⟨hd, hplace⟩ := covers_mod.mp hp
    have := Nat.mod_lt (index ⟨p.1, p.2, width, height⟩) (toNat_pos hd)
    rcases h with h | h
    · exact hd h
    · omega
  have hcount (hd : divisor ≠ 0) (hr : remainder.toNat < divisor.toNat) :
      (covered (mod divisor remainder) width height centre).card =
        (width.toNat * height.toNat - remainder.toNat) ⌈/⌉ divisor.toNat := by
    rw [hcovered hd, card_remainders _ hr]
  refine ⟨hcount, fun hbeyond => ?_, hnever, covers_mod_unique⟩
  by_cases h : divisor = 0 ∨ divisor.toNat ≤ remainder.toNat
  · exact hnever h
  · rw [not_or, not_le] at h
    rw [hcount h.1 h.2, Nat.sub_eq_zero_of_le hbeyond, zero_ceilDiv]

theorem banded : Banded bars step centre width height := by
  have hcount (column : UInt32) : (coveredRows (rows bars step) width height centre column).card =
      height.toNat / (bars.toNat + step.toNat) * bars.toNat +
        min (height.toNat % (bars.toNat + step.toNat)) bars.toNat := by
    rw [← card_bands (Nat.le_add_right _ _),
      ← card_lines height (· % (bars.toNat + step.toNat) < bars.toNat)]
    congr 1
    ext row
    simp only [coveredRows, Finset.mem_filter, covers_rows]
  refine ⟨fun _ => hcount, fun hzero column => ?_⟩
  have hbars : bars.toNat = 0 := by omega
  rw [hcount, hbars, Nat.mul_zero, Nat.min_zero]

theorem wordwise (pixel : Pixel) (p : Point) :
    Wordwise divisor remainder bars step pixel p := by
  obtain ⟨hproduct, hplace⟩ := place_lt pixel
  obtain ⟨hsum, hperiod⟩ := toNat_period bars step
  refine ⟨hproduct, hplace, hsum, ?_, ?_⟩
  · have hzero : divisor.toUInt64 = 0 ↔ divisor = 0 := by
      rw [← UInt64.toNat_inj, ← UInt32.toNat_inj, UInt32.toNat_toUInt64]
      rfl
    rw [Bool.eq_iff_iff, covers_mod, Bool.and_eq_true, bne_iff_ne, beq_iff_eq, ne_eq, ne_eq, hzero,
      ← UInt64.toNat_inj, UInt64.toNat_mod, toNat_place, UInt32.toNat_toUInt64,
      UInt32.toNat_toUInt64]
  · have hzero : bars.toUInt64 + step.toUInt64 = 0 ↔ bars.toNat + step.toNat = 0 := by
      rw [← UInt64.toNat_inj, hperiod]
      rfl
    rw [Bool.eq_iff_iff, covers_rows, Bool.and_eq_true, bne_iff_ne, decide_eq_true_eq, ne_eq, hzero,
      UInt64.lt_iff_toNat_lt, UInt64.toNat_mod, hperiod, UInt32.toNat_toUInt64,
      UInt32.toNat_toUInt64]
    omega

/-- **The masks that go by the place of a pixel select as many pixels as they ought to**, in images of
every size, and a machine of sixty-four bits is enough to decide it. -/
theorem index_masks (width height : UInt32) :
    Strided divisor remainder centre width height ∧ Banded bars step centre width height ∧
      ∀ pixel p, Wordwise divisor remainder bars step pixel p :=
  ⟨strided divisor remainder centre, banded bars step centre, wordwise divisor remainder bars step⟩

end Mask

end FilterScript
