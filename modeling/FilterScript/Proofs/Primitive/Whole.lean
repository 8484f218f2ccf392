/-
Whole numbers as arguments.

A script writes a whole number as an integer or as a float, and two conversions take either: one for
the primitives that count, and one for the resolution.  Both come down to the exact number that the
value is.  The first looks at it after it became an integer, and so takes exactly the numbers of
thirty-two bits.  The second compares floats before that, with a bound that is itself rounded: the
largest number of thirty-two bits has too many bits for a float, and what stands for it is one more.
So one float passes that is too large, and it is cut to the largest number.
-/
import FilterScript.Proofs.Number.Whole
import FilterScript.Proofs.Script.Survival

namespace FilterScript

open Script

/-- The number that a value of a script is exactly; nothing if it is not a finite number. -/
def Script.Value.exact? : Value → Option ℚ
  | .int i => some i
  | .float x => x.value?
  | _ => none

/-- The first number beyond those of thirty-two bits, written as a float. -/
def Script.Value.IsCut (v : Value) : Prop := ∃ x, v = .float x ∧ x.value? = some (2 ^ 32)

namespace Argument

variable {v : Value} {what : String} {x : Single} {i : ℤ} {n : UInt32}

/-- An integer as a number of thirty-two bits, where it is one. -/
theorem ofNat_toNat_iff (n : UInt32) (i : ℤ) :
    (0 ≤ i ∧ i < 2 ^ 32) ∧ UInt32.ofNat i.toNat = n ↔ i = n.toNat := by
  have hlt := n.toNat_lt
  constructor
  · rintro ⟨⟨hlow, hhigh⟩, rfl⟩
    rw [UInt32.toNat_ofNat', Nat.mod_eq_of_lt (by omega)]
    omega
  · rintro rfl
    exact ⟨by omega, by rw [Int.toNat_natCast, UInt32.ofNat_toNat]⟩

theorem whole_float (h : x.value? = some (i : ℚ)) (what : String) :
    whole (.float x) what = .ok (max Value.minInt (min Value.maxInt i)) := by
  show (if x.isFinite ∧ x.isWhole then _ else _) = _
  rw [if_pos (Single.whole_iff.mpr ⟨i, h⟩), Single.toInt_of_value? h]

theorem whole_float_refused (h : ∀ i : ℤ, x.value? ≠ some (i : ℚ)) (what : String) :
    ∃ text, whole (.float x) what = .error text := by
  refine ⟨_, if_neg fun hwhole => ?_⟩
  obtain ⟨i, hi⟩ := Single.whole_iff.mp hwhole
  exact h i hi

/-- An argument that counts is looked at as an integer. -/
theorem word_of_whole (h : whole v what = .ok i) :
    word v what = .ok n ↔ i = n.toNat := by
  unfold word
  rw [h]
  show (if 0 ≤ i ∧ i < 2 ^ 32 then _ else _) = _ ↔ _
  rw [← ofNat_toNat_iff]
  split
  next hword =>
    rw [Except.ok.injEq]
    exact ⟨fun hn => ⟨hword, hn⟩, And.right⟩
  next hword => exact ⟨nofun, fun hn => absurd hn.1 hword⟩

/-- **An argument that counts is a number of thirty-two bits**, and it is taken as that number. -/
theorem word_ok_iff : word v what = .ok n ↔ v.exact? = some (n.toNat : ℚ) := by
  have hlt := n.toNat_lt
  cases v with
  | int i =>
      rw [word_of_whole rfl, Value.exact?, Option.some.injEq]
      exact_mod_cast Iff.rfl
  | float x =>
      show _ ↔ x.value? = _
      by_cases h : ∃ i : ℤ, x.value? = some (i : ℚ)
      · obtain ⟨i, hi⟩ := h
        have hheld : max Value.minInt (min Value.maxInt i) = n.toNat ↔ i = n.toNat := by
          unfold Value.minInt Value.maxInt
          omega
        rw [word_of_whole (whole_float hi what), hheld, hi, Option.some.injEq]
        exact_mod_cast Iff.rfl
      · have hnone := not_exists.mp h
        obtain ⟨text, htext⟩ := whole_float_refused hnone what
        constructor
        · intro hword
          unfold word at hword
          rw [htext] at hword
          cases hword
        · intro hvalue
          exact absurd hvalue (by exact_mod_cast hnone n.toNat)
  | _ => constructor <;> intro h <;> cases h

/-- The first number beyond those of thirty-two bits is refused. -/
theorem word_of_isCut (h : v.IsCut) (what : String) : ∃ text, word v what = .error text := by
  cases hword : word v what with
  | error text => exact ⟨text, rfl⟩
  | ok n =>
      obtain ⟨x, rfl, hx⟩ := h
      have hn : (2 ^ 32 : ℚ) = n.toNat := Option.some.inj (hx.symm.trans (word_ok_iff.mp hword))
      have : 2 ^ 32 = n.toNat := by exact_mod_cast hn
      exact absurd n.toNat_lt (by omega)

/-- Integers, and floats that are integers, are taken alike, and refused alike. -/
theorem word_float (h : x.value? = some (i : ℚ)) (hlow : Value.minInt ≤ i) (hhigh : i ≤ Value.maxInt)
    (what : String) : word (.float x) what = word (.int i) what := by
  have hwhole : whole (.float x) what = whole (.int i) what := by
    rw [whole_float h, min_eq_right hhigh, max_eq_right hlow]
    rfl
  unfold word
  rw [hwhole]

/-! ### Seeds -/

theorem seed_float_eq (h : x.value? = some (i : ℚ)) :
    seed (.float x) = .ok (seedOf (max Value.minInt (min Value.maxInt i))) := by
  show (if x.isFinite ∧ x.isWhole then _ else _) = _
  rw [if_pos (Single.whole_iff.mpr ⟨i, h⟩), Single.toInt_of_value? h]

theorem seed_float (h : x.value? = some (i : ℚ)) (hlow : Value.minInt ≤ i)
    (hhigh : i ≤ Value.maxInt) : seed (.float x) = seed (.int i) := by
  rw [seed_float_eq h, min_eq_right hhigh, max_eq_right hlow]
  rfl

/-- A seed is a whole number, and integers beyond those of scripts are held at their ends. -/
theorem seed_ok_iff (hv : Primitive.InRange [v]) {w : UInt64} : seed v = .ok w ↔
    ∃ i : ℤ, v.exact? = some (i : ℚ) ∧ w = seedOf (max Value.minInt (min Value.maxInt i)) := by
  cases v with
  | int i =>
      obtain ⟨hlow, hhigh⟩ := hv i (List.mem_singleton_self _)
      constructor
      · intro h
        cases h
        exact ⟨i, rfl, by rw [min_eq_right hhigh, max_eq_right hlow]⟩
      · rintro ⟨j, hj, rfl⟩
        obtain rfl : i = j := by exact_mod_cast Option.some.inj hj
        rw [min_eq_right hhigh, max_eq_right hlow]
        rfl
  | float x =>
      show _ ↔ ∃ i : ℤ, x.value? = _ ∧ _
      constructor
      · intro h
        by_cases hwhole : x.isFinite = true ∧ x.isWhole = true
        · obtain ⟨i, hi⟩ := Single.whole_iff.mp hwhole
          rw [seed_float_eq hi] at h
          exact ⟨i, hi, (Except.ok.inj h).symm⟩
        · have hrefused : seed (.float x) = .error _ := if_neg hwhole
          cases hrefused.symm.trans h
      · rintro ⟨i, hi, rfl⟩
        exact seed_float_eq hi
  | _ =>
      constructor
      · intro h
        cases h
      · rintro ⟨i, hi, -⟩
        cases hi

end Argument

/-! ### Resolutions -/

namespace Primitive

variable {v : Value} {x : Single} {i : ℤ} {n : UInt32}

/-- The bound for resolutions is one more than the largest number of thirty-two bits, because that has
too many bits for a float. -/
theorem has_bound : (Single.ofNat (2 ^ 32 - 1)).Has false (2 ^ 32) :=
  ⟨2 ^ 23, 9, by decide +kernel, by norm_num⟩

theorem resolution?_int : resolution? (.int i) = some n ↔ i = n.toNat := by
  rw [← Argument.ofNat_toNat_iff]
  show (if 0 ≤ i ∧ i < 2 ^ 32 then _ else _) = _ ↔ _
  split
  next hword =>
    rw [Option.some.injEq]
    exact ⟨fun hn => ⟨hword, hn⟩, And.right⟩
  next hword => exact ⟨nofun, fun hn => absurd hn.1 hword⟩

theorem resolution?_float (h : x.value? = some (i : ℚ)) : resolution? (.float x) = some n ↔
    i = n.toNat ∨ i = 2 ^ 32 ∧ n.toNat = 2 ^ 32 - 1 := by
  obtain ⟨hfinite, hwhole⟩ := Single.whole_iff.mpr ⟨i, h⟩
  have hlow : Single.le 0 x = true ↔ 0 ≤ i := by
    rw [Single.le_iff_of_value? Single.has_zero.value? h]
    show (0 : ℚ) ≤ i ↔ _
    exact_mod_cast Iff.rfl
  have hhigh : x.le (.ofNat (2 ^ 32 - 1)) = true ↔ i ≤ 2 ^ 32 := by
    rw [Single.le_iff_of_value? h has_bound.value?]
    show (i : ℚ) ≤ 2 ^ 32 ↔ _
    exact_mod_cast Iff.rfl
  show (if x.isFinite = true ∧ x.isWhole = true ∧ Single.le 0 x = true ∧
    x.le (.ofNat (2 ^ 32 - 1)) = true then _ else _) = _ ↔ _
  rw [Single.toInt_of_value? h]
  simp only [hfinite, hwhole, hlow, hhigh, true_and]
  have hlt := n.toNat_lt
  split
  next hbounds =>
    rw [Option.some.injEq, ← UInt32.toNat_inj, UInt32.toNat_ofNat', Nat.mod_eq_of_lt (by omega)]
    omega
  next hbounds =>
    refine ⟨nofun, fun hn => absurd ?_ hbounds⟩
    omega

theorem resolution?_refused (h : ∀ i : ℤ, x.value? ≠ some (i : ℚ)) :
    resolution? (.float x) = none := by
  refine if_neg fun hwhole => ?_
  obtain ⟨i, hi⟩ := Single.whole_iff.mp ⟨hwhole.1, hwhole.2.1⟩
  exact h i hi

/-- **A resolution is a number of thirty-two bits**, and it is taken as that number, but that the first
number beyond them is let through as a float and cut to the last one. -/
theorem resolution?_eq_some_iff : resolution? v = some n ↔
    v.exact? = some (n.toNat : ℚ) ∨ v.IsCut ∧ n.toNat = 2 ^ 32 - 1 := by
  cases v with
  | int i =>
      rw [resolution?_int]
      constructor
      · rintro rfl
        exact .inl rfl
      · rintro (h | ⟨⟨x, hx, -⟩, -⟩)
        · exact_mod_cast Option.some.inj h
        · cases hx
  | float x =>
      show _ ↔ x.value? = _ ∨ _
      by_cases h : ∃ i : ℤ, x.value? = some (i : ℚ)
      · obtain ⟨i, hi⟩ := h
        have hcut : Value.IsCut (.float x) ↔ i = 2 ^ 32 := by
          constructor
          · rintro ⟨y, hy, hvalue⟩
            cases hy
            rw [hi] at hvalue
            exact_mod_cast Option.some.inj hvalue
          · rintro rfl
            exact ⟨x, rfl, by exact_mod_cast hi⟩
        rw [resolution?_float hi, hi, hcut, Option.some.injEq]
        exact_mod_cast Iff.rfl
      · have hnone := not_exists.mp h
        rw [resolution?_refused hnone]
        refine ⟨nofun, ?_⟩
        rintro (h | ⟨⟨y, hy, hvalue⟩, -⟩)
        · exact absurd h (by exact_mod_cast hnone n.toNat)
        · cases hy
          exact absurd (hvalue.trans (by norm_num)) (hnone (2 ^ 32))
  | _ =>
      constructor
      · intro h
        cases h
      · rintro (h | ⟨⟨x, hx, -⟩, -⟩)
        · cases h
        · cases hx

theorem resolution?_alike (h : x.value? = some (i : ℚ)) (hi : i ≠ 2 ^ 32) :
    resolution? (.float x) = resolution? (.int i) := by
  ext n
  rw [resolution?_float h, resolution?_int]
  omega

/-! ### What is posted -/

/-- A run that may post some messages and no other. -/
def postingOnly (P : WorkerMessage → Prop) : Protocol Unit where
  Allows _ q := ∀ m, q = .post m → P m
  after _ _ _ := ()
  MayStop _ := True

theorem select_resolution (limit : Nat) (v : Value) : select limit "resolution" [v] =
    some (match resolution? v with
      | some n => .ok (.direct (.resolution n))
      | none => .ok (.answer .unit)) :=
  rfl

/-- A call posts no resolution but the one that its argument asks for. -/
theorem posts_resolution {limit : Nat} {command : Command} {c : Context} {xs : List Exchange}
    {u : Thread (Except Cancelled Result × Context)} {message : WorkerMessage} {b : Bool}
    (hselect : select limit "resolution" [v] = some (.ok command))
    (h : ((perform command).run.run c).Goes xs u) (hpost : ⟨.post message, b⟩ ∈ xs) :
    ∃ n, message = .resolution n ∧ resolution? v = some n := by
  have hposting : Action.Takes (postingOnly fun m => ∃ n, m = .resolution n ∧ resolution? v = some n)
      (fun _ _ => True) (fun _ _ _ => True) (perform command) := by
    rw [select_resolution, Option.some.injEq] at hselect
    split at hselect
    next n hn =>
      cases hselect
      refine .bind (C := fun _ _ _ => True) (Action.post_takes ?_ ?_) fun _ => .pure fun _ _ h => h
      · intro _ q hq
        refine ⟨?_, fun _ => rfl⟩
        rintro m rfl
        cases hq
      · intro _ _ _
        refine ⟨?_, trivial⟩
        rintro m ⟨⟩
        exact ⟨n, rfl, hn⟩
    · cases hselect
      exact .pure fun _ _ h => h
  obtain ⟨_, hallowed⟩ := ((hposting () c trivial).goes h).1 _ hpost
  exact hallowed message rfl

/-! ### Whole numbers -/

/-- What is made of a value by the primitives that take whole numbers. -/
structure TakenWhole (v : Value) : Prop where
  /-- Where something is counted, exactly the numbers of thirty-two bits are accepted, each as itself. -/
  word : ∀ what n, Argument.word v what = .ok n ↔ v.exact? = some (n.toNat : ℚ)
  /-- So it is with a resolution, but for one float that is cut. -/
  resolution : ∀ n, resolution? v = some n ↔
    v.exact? = some (n.toNat : ℚ) ∨ v.IsCut ∧ n.toNat = 2 ^ 32 - 1
  /-- Beside that float the two conversions accept the same and make the same of it. -/
  same : ¬ v.IsCut → ∀ what n, Argument.word v what = .ok n ↔ resolution? v = some n
  /-- That float is refused where something is counted. -/
  cut : v.IsCut → (∀ what, ∃ text, Argument.word v what = .error text) ∧
    resolution? v = some (UInt32.ofNat (2 ^ 32 - 1))
  /-- Seeds are whole numbers, held within the integers of scripts. -/
  seed : InRange [v] → ∀ w, Argument.seed v = .ok w ↔ ∃ i : ℤ,
    v.exact? = some (i : ℚ) ∧ w = Argument.seedOf (max Value.minInt (min Value.maxInt i))
  /-- A float that is the same number as an integer is taken as the integer is, or refused as it is. -/
  alike : ∀ i x, v = .int i → InRange [v] → x.value? = some (i : ℚ) →
    (∀ what, Argument.word (.float x) what = Argument.word v what) ∧
      Argument.seed (.float x) = Argument.seed v ∧
      (i ≠ 2 ^ 32 → resolution? (.float x) = resolution? v)
  /-- No other resolution is posted than that. -/
  posted : ∀ limit command c xs u message b,
    select limit "resolution" [v] = some (.ok command) →
    ((perform command).run.run c).Goes xs u → ⟨.post message, b⟩ ∈ xs →
      ∃ n, message = .resolution n ∧ resolution? v = some n

/-- **A whole number is the same as an integer and as a float**, for the primitives that count, for
seeds and for resolutions.  Only the float `2 ^ 32`, which is no number of thirty-two bits, is let
through as a resolution, and posted as a smaller number. -/
theorem whole_numbers (v : Value) : TakenWhole v where
  word _ _ := Argument.word_ok_iff
  resolution _ := resolution?_eq_some_iff
  same hcut what n := by
    rw [Argument.word_ok_iff, resolution?_eq_some_iff]
    simp [hcut]
  cut hcut := ⟨Argument.word_of_isCut hcut, resolution?_eq_some_iff.mpr (.inr ⟨hcut, rfl⟩)⟩
  seed hv _ := Argument.seed_ok_iff hv
  alike i x hv hrange hx := by
    subst hv
    obtain ⟨hlow, hhigh⟩ := hrange i (List.mem_singleton_self _)
    exact ⟨Argument.word_float hx hlow hhigh, Argument.seed_float hx hlow hhigh,
      resolution?_alike hx⟩
  posted _ _ _ _ _ _ _ := posts_resolution

/-- The bound for resolutions is this float: it is let through, and cut. -/
theorem whole_numbers_cut :
    (Single.ofNat (2 ^ 32 - 1)).value? = some (2 ^ 32) ∧
      resolution? (.float (.ofNat (2 ^ 32 - 1))) = some (UInt32.ofNat (2 ^ 32 - 1)) ∧
      ∃ text, Argument.word (.float (.ofNat (2 ^ 32 - 1))) "mod" = .error text := by
  have hcut : Value.IsCut (.float (.ofNat (2 ^ 32 - 1))) := ⟨_, rfl, has_bound.value?⟩
  exact ⟨has_bound.value?, resolution?_eq_some_iff.mpr (.inr ⟨hcut, rfl⟩),
    Argument.word_of_isCut hcut "mod"⟩

end Primitive

end FilterScript
