/-
The tokens of a text: what is read where a number or a string was written.

A number ends where its characters end, so what is read depends on what stands behind it.
A reader that came to the end of a number of its own accord does so in front of any text
that does not go on like a number; this is said of each reader in turn, and then a number
that is read back on its own is read back inside a document.  For natural numbers and
strings nothing has to be assumed: each is read as the one that was written.
-/
import FilterScript.Json.Printer
import FilterScript.Json.Reader

namespace FilterScript.Json

/-! ### What may follow a number -/

/-- No digit, point or exponent stands at the start of a text. -/
def Ends : Rest → Prop
  | [] => True
  | c :: _ => digitValue c = none ∧ c ≠ '.' ∧ c ≠ 'e' ∧ c ≠ 'E'

/-- A reading that leaves `s` leaves `s` and `rest` when `rest` is put behind its text. -/
def Reading.Extends (rest : Rest) (r r' : Reading) : Prop :=
  ∀ v s, r = (v, some s) → (s = [] → Ends rest) → r' = (v, some (s ++ rest))

variable {rest cs : Rest} {negative : Bool} {d : Decimal}

theorem Reading.Extends.of_stopped {f : Fault} {r' : Reading} :
    Reading.Extends rest (stopped f) r' := by
  intro v s h
  cases h

theorem skipDigits_append (h : skipDigits cs = [] → Ends rest) :
    skipDigits (cs ++ rest) = skipDigits cs ++ rest := by
  induction cs with
  | nil =>
      cases rest with
      | nil => rfl
      | cons c rest => simp [skipDigits, (h rfl).1]
  | cons c cs ih =>
      simp only [List.cons_append, skipDigits] at h ⊢
      split
      next hc => exact ih (by simpa only [hc, if_true] using h)
      · rfl

theorem exponentDigits_append {e : Nat} (h : (exponentDigits cs e).2 = [] → Ends rest) :
    exponentDigits (cs ++ rest) e = ((exponentDigits cs e).1, (exponentDigits cs e).2 ++ rest) := by
  induction cs generalizing e with
  | nil =>
      cases rest with
      | nil => rfl
      | cons c rest => simp [exponentDigits, (h rfl).1]
  | cons c cs ih =>
      simp only [List.cons_append, exponentDigits] at h ⊢
      split
      · rfl
      next v hv =>
        simp only [hv] at h
        split
        next hlarge =>
          rw [if_pos hlarge] at h
          rw [skipDigits_append h]
        next hsmall =>
          rw [if_neg hsmall] at h
          exact ih h

theorem realToken_extends (negative : Bool) (d : Decimal) (cs rest : Rest) :
    Reading.Extends rest (realToken negative d cs) (realToken negative d (cs ++ rest)) := by
  intro v s h _
  cases h
  rfl

theorem exponentSign_append (hcs : cs ≠ []) :
    exponentSign (cs ++ rest) = ((exponentSign cs).1, (exponentSign cs).2 ++ rest) := by
  cases cs with
  | nil => exact absurd rfl hcs
  | cons c cs =>
      simp only [List.cons_append, exponentSign]
      split
      · rfl
      · split <;> rfl

theorem exponentPart_extends (negative : Bool) (d : Decimal) (cs rest : Rest) :
    Reading.Extends rest (exponentPart negative d cs) (exponentPart negative d (cs ++ rest)) := by
  by_cases hcs : cs = []
  · subst hcs
    exact .of_stopped
  unfold exponentPart
  rw [exponentSign_append hcs]
  obtain ⟨down, tail⟩ := exponentSign cs
  cases tail with
  | nil => exact .of_stopped
  | cons c tail =>
      simp only [List.cons_append]
      cases digitValue c with
      | none => exact .of_stopped
      | some v =>
          cases hdigits : exponentDigits tail v with
          | mk e? left =>
              have hwhole (hleft : left = [] → Ends rest) :
                  exponentDigits (tail ++ rest) v = (e?, left ++ rest) := by
                rw [exponentDigits_append (by rwa [hdigits]), hdigits]
              intro w s h hs
              simp only [hdigits] at h
              -- Whatever the digits came to, what is left is left by them.
              obtain rfl : left = s := by
                cases e? with
                | some e => exact Option.some.inj (congrArg Prod.snd h)
                | none =>
                    dsimp only at h
                    split at h <;> exact Option.some.inj (congrArg Prod.snd h)
              simp only [hwhole hs]
              cases e? with
              | some e => exact realToken_extends _ _ _ _ _ _ h hs
              | none =>
                  dsimp only at h ⊢
                  split at h
                  next hlarge =>
                    rw [if_pos hlarge]
                    cases h
                    rfl
                  next hsmall =>
                    rw [if_neg hsmall]
                    cases h
                    rfl

theorem afterDigits_extends (negative : Bool) (d : Decimal) (cs rest : Rest) :
    Reading.Extends rest (afterDigits negative d cs) (afterDigits negative d (cs ++ rest)) := by
  cases cs with
  | nil =>
      intro v s h hs
      cases h
      cases rest with
      | nil => rfl
      | cons c rest =>
          obtain ⟨-, -, he, hE⟩ := hs rfl
          simp [afterDigits, he, hE, realToken]
  | cons c cs =>
      simp only [List.cons_append, afterDigits]
      split
      · exact exponentPart_extends _ _ _ _
      · exact realToken_extends negative d (c :: cs) rest

theorem fractionDigits_extends {seen : Bool} (rest : Rest) :
    Reading.Extends rest (fractionDigits negative cs d seen)
      (fractionDigits negative (cs ++ rest) d seen) := by
  induction cs generalizing d seen with
  | nil =>
      cases seen with
      | false => exact .of_stopped
      | true =>
          intro v s h hs
          cases h
          cases rest with
          | nil => rfl
          | cons c rest =>
              obtain ⟨hc, -, he, hE⟩ := hs rfl
              simp [fractionDigits, hc, afterDigits, he, hE, realToken]
  | cons c cs ih =>
      simp only [List.cons_append, fractionDigits]
      split
      · split
        · exact afterDigits_extends negative d (c :: cs) rest
        · exact .of_stopped
      · split
        · intro v s h hs
          rw [skipDigits_append fun hnil => hs ?_]
          · exact afterDigits_extends _ _ _ _ _ _ h hs
          · rw [hnil] at h
            cases h
            rfl
        · exact ih

theorem longWhole_extends (rest : Rest) :
    Reading.Extends rest (longWhole negative cs d) (longWhole negative (cs ++ rest) d) := by
  induction cs generalizing d with
  | nil =>
      intro v s h hs
      cases h
      cases rest with
      | nil => rfl
      | cons c rest =>
          obtain ⟨hc, hpoint, he, hE⟩ := hs rfl
          simp [longWhole, hc, hpoint, afterDigits, he, hE, realToken]
  | cons c cs ih =>
      simp only [List.cons_append, longWhole]
      split
      · exact ih
      · split
        · exact fractionDigits_extends rest
        · exact afterDigits_extends negative d (c :: cs) rest

/-- In front of a text that does not go on like a number, a whole number is complete. -/
theorem afterWhole_of_ends {n : Nat} (h : Ends rest) :
    afterWhole negative n rest = (wholeNumber negative n, some rest) := by
  cases rest with
  | nil => rfl
  | cons c rest => simp [afterWhole, h.2.1, h.2.2.1, h.2.2.2]

theorem afterWhole_extends {n : Nat} (rest : Rest) :
    Reading.Extends rest (afterWhole negative n cs) (afterWhole negative n (cs ++ rest)) := by
  cases cs with
  | nil =>
      intro v s h hs
      cases h
      exact afterWhole_of_ends (hs rfl)
  | cons c cs =>
      simp only [List.cons_append, afterWhole]
      split
      · exact fractionDigits_extends rest
      · split
        · exact exponentPart_extends _ _ _ _
        · intro v s h _
          cases h
          rfl

theorem wholeDigits_of_ends {n : Nat} (h : Ends rest) :
    wholeDigits negative rest n = (wholeNumber negative n, some rest) := by
  cases rest with
  | nil => rfl
  | cons c rest =>
      simp only [wholeDigits, h.1]
      exact afterWhole_of_ends h

theorem wholeDigits_extends {n : Nat} (rest : Rest) :
    Reading.Extends rest (wholeDigits negative cs n) (wholeDigits negative (cs ++ rest) n) := by
  induction cs generalizing n with
  | nil =>
      intro v s h hs
      cases h
      exact wholeDigits_of_ends (hs rfl)
  | cons c cs ih =>
      simp only [List.cons_append, wholeDigits]
      split
      · rw [← List.cons_append]
        exact afterWhole_extends rest
      · split
        · exact longWhole_extends rest
        · exact ih

theorem startsWithDigit_of_ends (h : Ends rest) : startsWithDigit rest = false := by
  cases rest with
  | nil => rfl
  | cons c rest => simp [startsWithDigit, h.1]

/-- **A number that ends on its own ends there inside a document.** -/
theorem readNumber_extends (rest : Rest) :
    Reading.Extends rest (readNumber negative cs) (readNumber negative (cs ++ rest)) := by
  cases cs with
  | nil => exact .of_stopped
  | cons c cs =>
      simp only [List.cons_append, readNumber]
      split
      · exact .of_stopped
      · cases cs with
        | nil =>
            intro v s h hs
            cases h
            simp only [List.nil_append, startsWithDigit_of_ends (hs rfl)]
            exact afterWhole_of_ends (hs rfl)
        | cons c cs =>
            rw [show startsWithDigit (c :: cs ++ rest) = startsWithDigit (c :: cs) from rfl]
            split
            · exact .of_stopped
            · exact afterWhole_extends rest
      · exact wholeDigits_extends rest

/-! ### Natural numbers -/

theorem digitValue_digitChar {v : Nat} (h : v < 10) : digitValue v.digitChar = some v := by
  revert v
  decide

/-- The digits of a positive number that fits a word are taken in one by one. -/
theorem readNumber_toDigits {n : Nat} (hpos : 0 < n) (hn : n ≤ largestWord) :
    readNumber negative (Nat.toDigits 10 n ++ rest) = wholeDigits negative rest n := by
  induction n using Nat.strongRecOn generalizing rest with
  | ind n ih =>
      rw [Nat.toDigits_eq_if (by decide)]
      split
      next hsmall =>
        simp only [List.cons_append, List.nil_append, readNumber, digitValue_digitChar hsmall]
        cases n with
        | zero => exact absurd hpos (by decide)
        | succ n => rfl
      next hlarge =>
        rw [List.append_assoc, List.singleton_append,
          ih (n / 10) (by omega) (by omega) (by omega), wholeDigits,
          digitValue_digitChar (Nat.mod_lt _ (by decide))]
        simp only
        rw [if_neg (by omega), Nat.div_add_mod' n 10]

theorem readNumber_natural {n : Nat} (hn : n ≤ largestWord) (hrest : Ends rest) :
    readNumber negative (Nat.toDigits 10 n ++ rest) = (wholeNumber negative n, some rest) := by
  rcases Nat.eq_zero_or_pos n with rfl | hpos
  · show (if startsWithDigit rest then _ else afterWhole negative 0 rest) = _
    rw [startsWithDigit_of_ends hrest]
    exact afterWhole_of_ends hrest
  · rw [readNumber_toDigits hpos hn, wholeDigits_of_ends hrest]

/-! ### Strings -/

theorem hexValue_hexDigit {v : Nat} (h : v < 16) : hexValue (hexDigit v) = some v := by
  revert v
  decide

theorem eq_of_toNat {c : Char} {n : Nat} (h : c.toNat = n) : c = Char.ofNat n := by
  rw [← h, Char.ofNat_toNat]

/-- One character of a string is read as it was written, escaped or not. -/
theorem stringTail_escape {fuel : Nat} {c : Char} {acc : List Char} :
    stringTail (fuel + 1) (escape c ++ rest) (some acc) =
      stringTail fuel rest (some (c :: acc)) := by
  unfold escape
  simp only
  split
  case h_8 n hquote hback hb ht hn hf hr =>
    split
    next hlow =>
      have hhigh : c.toNat / 16 < 16 := by omega
      have hword : hexWord (['0', '0', hexDigit (c.toNat / 16), hexDigit (c.toNat % 16)] ++ rest)
          = .ok (c.toNat, rest) := by
        have hzero : hexValue '0' = some 0 := by decide
        simp only [List.cons_append, List.nil_append, hexWord, hzero, hexValue_hexDigit hhigh,
          hexValue_hexDigit (Nat.mod_lt c.toNat (by decide : 0 < 16))]
        congr 2
        omega
      have hunicode : unicodeEscape
          (['0', '0', hexDigit (c.toNat / 16), hexDigit (c.toNat % 16)] ++ rest) =
            .ok (some c, rest) := by
        unfold unicodeEscape
        rw [hword]
        simp only [bind, Except.bind]
        rw [if_pos (Or.inl (by omega)), Char.ofNat_toNat]
      have hbackslash : isBackslash (Char.ofNat 92) = true := by decide
      have hquote' : isQuote (Char.ofNat 92) = false := by decide
      simp only [List.cons_append, List.nil_append, stringTail, hquote', hbackslash] at hunicode ⊢
      rw [hunicode]
      rfl
    next hhigh =>
      have hq : isQuote c = false := by simpa [isQuote] using hquote
      have hb : isBackslash c = false := by simpa [isBackslash] using hback
      simp [stringTail, hq, hb, hhigh]
  all_goals
    next h =>
      rw [eq_of_toNat h]
      rfl

/-- **A string is read as it was written.** -/
theorem stringTail_escaped {s : List Char} {fuel : Nat} {acc : List Char}
    (hfuel : s.length < fuel) :
    stringTail fuel (s.flatMap escape ++ quote :: rest) (some acc) =
      .ok (.text (acc.reverse ++ s), rest) := by
  induction s generalizing fuel acc with
  | nil =>
      obtain ⟨fuel, rfl⟩ : ∃ k, fuel = k + 1 := ⟨fuel - 1, by simp at hfuel; omega⟩
      have hquote : isQuote quote = true := by decide
      simp [stringTail, hquote]
  | cons c s ih =>
      obtain ⟨fuel, rfl⟩ : ∃ k, fuel = k + 1 := ⟨fuel - 1, by simp at hfuel; omega⟩
      rw [List.flatMap_cons, List.append_assoc, stringTail_escape,
        ih (by simpa using hfuel), List.reverse_cons, List.append_assoc, List.singleton_append]

theorem length_le_length_escaped (s : List Char) : s.length ≤ (s.flatMap escape).length := by
  have hpos (c : Char) : 1 ≤ (escape c).length := by
    unfold escape
    simp only
    split <;> try split
    all_goals simp
  induction s with
  | nil => exact Nat.le_refl _
  | cons c s ih =>
      rw [List.flatMap_cons, List.length_append, List.length_cons]
      have := hpos c
      omega

theorem readString_quoted (s : String) :
    readString (s.toList.flatMap escape ++ quote :: rest) = (.string s, some rest) := by
  unfold readString
  rw [stringTail_escaped]
  · simp
  · have := length_le_length_escaped s.toList
    simp only [List.length_append, List.length_cons]
    omega

end FilterScript.Json
