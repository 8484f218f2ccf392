/-
Where a sample is taken.

A point that a transform maps out of the image is folded back or given up.  To fold a coordinate back
it is shifted by one, reduced by two and shifted back, each in single precision, and a remainder that
was rounded up to two would put the sample on the edge that does not belong to the image.  It is never
rounded: behind the first sum every coordinate lies on the grid of the numbers below one, and a
negative one on the next coarser grid, so all that follows is exact.  The first sum alone may round.

The sine and the cosine of a transform are the platform's own, so what a transform maps a position to
is not computed here; all that is said is said of the point that it maps to, whichever that is.
-/
import FilterScript.Filter.Transform
import FilterScript.Proofs.Number.Remainder

namespace FilterScript.Transform

open Single

/-- How a coordinate `p` is folded back to `c`. -/
structure Folds (p c : Single) : Prop where
  /-- It lies in the half-open interval. -/
  low : (-1 : Single).le c = true
  high : c.lt 1 = true
  /-- Shifted by one it differs from the shifted `p` by an exact multiple of two. -/
  congruent : ∃ (v z : ℚ) (k : ℤ), (p + 1).value? = some v ∧ c.value? = some z ∧ z + 1 = v + 2 * k
  /-- Neither the remainder, nor its correction, nor the difference at the end is rounded. -/
  exact : ∃ (v r w : ℚ) (k : ℤ), (p + 1).value? = some v ∧
    ((p + 1) % 2).value? = some r ∧ r = v + 2 * k ∧ |r| < 2 ∧
      w = (if r < 0 then r + 2 else r) ∧ ((p + 1).remEuclid 2).value? = some w ∧
        c.value? = some (w - 1)

variable {c : Single} {a : ℚ}

/-- A coordinate that was shifted lies on the grid of the numbers from one half up to one, and a
negative one on the next coarser grid: the closer it is to zero, the closer the coordinate was to one
of the negative numbers that have so few bits. -/
theorem exists_shifted (h : c.value? = some a) : ∃ v, (c + 1).value? = some v ∧
    OnGrid (-24) v ∧ (v < 0 → OnGrid (-23) v) := by
  have hone : (1 : Single).value? = some 1 := has_one.value?
  have hlargest := abs_le_of_value? h
  have hbound : |a + 1| < (2 ^ 24 - 1 / 2) * 2 ^ (104 : ℤ) := by
    have htriangle := abs_add_le a 1
    norm_num at hlargest htriangle ⊢
    linarith
  obtain ⟨v, hv, hsign, hgrid⟩ := exists_value?_add h hone hbound
  refine ⟨v, hv, ?_⟩
  rcases le_or_gt a (-1) with hfar | hnear
  · -- Beyond `-1` the coordinate has no finer unit than one has, and neither has the sum.
    have hsize : (2 : ℚ) ^ (0 : ℤ) ≤ |a| := by
      rw [zpow_zero, abs_of_neg (by linarith)]
      linarith
    have hcoarse : OnGrid (-23) v :=
      hgrid _ (.inr ((onGrid_of_le_abs h hsize).add (OnGrid.intCast 1 (by decide))))
    exact ⟨hcoarse.mono (by decide), fun _ => hcoarse⟩
  · have hpositive : ¬ v < 0 := not_lt.mpr (hsign (by linarith))
    refine ⟨?_, fun hneg => absurd hneg hpositive⟩
    rcases le_or_gt a (-1 / 2) with hhalf | hhalf
    · have hsize : (2 : ℚ) ^ (-1 : ℤ) ≤ |a| := by
        rw [abs_of_neg (by linarith)]
        norm_num
        linarith
      exact hgrid _ (.inr ((onGrid_of_le_abs h hsize).add (OnGrid.intCast 1 (by decide))))
    · refine hgrid _ (.inl ?_)
      rw [abs_of_pos (by linarith)]
      norm_num
      linarith

/-- **A coordinate is folded back into the half-open interval, exactly behind the first sum.** -/
theorem folds (h : c.value? = some a) : Folds c (fold c) := by
  obtain ⟨v, hv, hgrid, hcoarse⟩ := exists_shifted h
  obtain ⟨r, k, hr, hsplit, hsmall, hneg, htest⟩ := exists_value?_rem_two hv
  have hrest : r = v - ((2 * k : ℤ) : ℚ) := by
    push_cast
    linarith
  have hcorrected := value?_remEuclid_two hr hsmall htest fun hr => by
    rw [hrest]
    exact (hcoarse (hneg hr)).sub (OnGrid.intCast _ (by decide))
  obtain ⟨w, j, hw, hshift, hlow, hhigh⟩ : ∃ (w : ℚ) (j : ℤ),
      w = (if r < 0 then r + 2 else r) ∧ w = v + ((2 * j : ℤ) : ℚ) ∧ 0 ≤ w ∧ w < 2 := by
    obtain ⟨hbelow, habove⟩ := abs_lt.mp hsmall
    by_cases hr : r < 0
    · refine ⟨r + 2, 1 - k, (if_pos hr).symm, ?_, by linarith, by linarith⟩
      push_cast
      linarith
    · refine ⟨r, -k, (if_neg hr).symm, ?_, not_lt.mp hr, habove⟩
      push_cast
      linarith
  rw [← hw] at hcorrected
  have hback : (fold c).value? = some (w - 1) := by
    have hdef : fold c = (c + 1).remEuclid 2 + -1 := rfl
    have hone : (-1 : Single).value? = some (-1) := has_one.neg.value?
    have hsum : w - 1 = w + -1 := sub_eq_add_neg w 1
    rw [hdef, hsum]
    -- The lower end has a bit too many for the finer grid, and is an integer.
    rcases hlow.eq_or_lt with hzero | hpositive
    · refine value?_add_of_onGrid (u := 0) hcorrected hone ⟨-1, by simp [← hzero]⟩ ?_ (by decide)
        (by decide)
      rw [← hzero]
      norm_num
    · refine value?_add_of_onGrid (u := -24) hcorrected hone ?_ ?_ (by decide) (by decide)
      · rw [← hsum, hshift]
        exact (hgrid.add (OnGrid.intCast _ (by decide))).sub (OnGrid.intCast 1 (by decide))
      · rw [← hsum]
        norm_num
        rw [abs_lt]
        constructor <;> linarith
  refine ⟨?_, ?_, ⟨v, w - 1, j, hv, hback, ?_⟩, v, r, w, -k, hv, hr, ?_, hsmall, hw, hcorrected, hback⟩
  · rw [le_iff_of_value? has_one.neg.value? hback]
    show (-1 : ℚ) ≤ w - 1
    linarith
  · obtain ⟨s, q, hasfold, hq⟩ := value?_eq_some_iff.mp hback
    rw [lt_iff hasfold has_one, hq]
    show w - 1 < (1 : ℚ)
    linarith
  · rw [hshift]
    push_cast
    ring
  · rw [hsplit]
    push_cast
    ring

/-- The last number below one is shifted to two, since the sum rounds, and is folded to the lower end;
the first one below `-1` is folded to the last but one below the upper end. -/
example : fold (ofRatio false (2 ^ 24 - 1) (2 ^ 24)) = -1 ∧
    fold (ofRatio true (2 ^ 23 + 1) (2 ^ 23)) = ofRatio false (2 ^ 23 - 1) (2 ^ 23) := by
  decide +kernel

/-- A coordinate lies beyond the image if it is larger than one, whatever its sign. -/
theorem isOutside_iff (h : c.value? = some a) : isOutside c = true ↔ 1 < |a| := by
  obtain ⟨s, p, hasc, rfl⟩ := value?_eq_some_iff.mp h
  rw [abs_signOf s hasc.nonneg]
  exact lt_iff has_one hasc.abs

/-- **A sample is taken in the image, or given up.**  Let a transform map positions to a point with
finite coordinates.  With wrapping they are folded back into the half-open square, exactly but for the
first sum; without it the point itself is sampled if it lies in the closed square, and nothing if it
does not. -/
theorem sample_in_image {q : Point} {a b : ℚ} (hx : q.x.value? = some a)
    (hy : q.y.value? = some b) :
    (∃ r : Point, Folds q.x r.x ∧ Folds q.y r.y ∧
      ∀ (t : Transform) (p : Point), t.apply p = q → t.sample p true = some r) ∧
    ∀ (t : Transform) (p : Point), t.apply p = q →
      t.sample p false = if |a| ≤ 1 ∧ |b| ≤ 1 then some q else none := by
  refine ⟨⟨⟨fold q.x, fold q.y⟩, folds hx, folds hy, ?_⟩, ?_⟩
  · rintro t p rfl
    rfl
  · rintro t p rfl
    have hdef : t.sample p false =
        if isOutside (t.apply p).x || isOutside (t.apply p).y then none else some (t.apply p) := rfl
    have houtside : (isOutside (t.apply p).x || isOutside (t.apply p).y) = true ↔
        ¬ (|a| ≤ 1 ∧ |b| ≤ 1) := by
      rw [Bool.or_eq_true, isOutside_iff hx, isOutside_iff hy, not_and_or, not_le, not_le]
    rw [hdef]
    by_cases hinside : |a| ≤ 1 ∧ |b| ≤ 1
    · rw [if_pos hinside, if_neg (mt houtside.mp (not_not.mpr hinside))]
    · rw [if_neg hinside, if_pos (houtside.mpr hinside)]

/-- A point with one coordinate just inside the image and one just outside. -/
def atCorner : Point := ⟨ofRatio false (2 ^ 24 - 1) (2 ^ 24), ofRatio true (2 ^ 23 + 1) (2 ^ 23)⟩

theorem sample_in_image_atCorner :
    (∃ r : Point, Folds atCorner.x r.x ∧ Folds atCorner.y r.y ∧
      ∀ (t : Transform) (p : Point), t.apply p = atCorner → t.sample p true = some r) ∧
    ∀ (t : Transform) (p : Point), t.apply p = atCorner → t.sample p false = none := by
  have hasx : atCorner.x.Has false ((2 ^ 24 - 1) / 2 ^ 24) :=
    ⟨2 ^ 24 - 1, -24, by decide +kernel, by norm_num⟩
  have hasy : atCorner.y.Has true ((2 ^ 23 + 1) / 2 ^ 23) :=
    ⟨2 ^ 23 + 1, -23, by decide +kernel, by norm_num⟩
  obtain ⟨hwrapped, hplain⟩ := sample_in_image hasx.value? hasy.value?
  refine ⟨hwrapped, fun t p h => (hplain t p h).trans (if_neg ?_)⟩
  rw [abs_signOf true hasy.nonneg]
  norm_num

end FilterScript.Transform
