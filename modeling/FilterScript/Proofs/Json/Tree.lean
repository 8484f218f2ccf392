/-
A document read back.

The text of a value is read to the same value, but for its numbers: the reader keeps the
digits that it finds, and a number may be written in more than one way.  `reread` is the
value with each number as the reader finds it, and `Readable` says that the reader gets
through them all.  The proof goes along the value, whatever its layout; the text behind it
must not go on like a number, and behind a value inside a document there is a blank, a
comma or a bracket.
-/
import FilterScript.Json.Decoder
import FilterScript.Proofs.Json.Layout
import FilterScript.Proofs.Json.Token

namespace FilterScript.Json

/-! ### The characters of numbers -/

/-- The characters that numbers are written with. -/
def isNumeric (c : Char) : Bool :=
  c.isDigit || c = '-' || c = '+' || c = '.' || c = 'e'

theorem isNumeric_of_mem_toDigits {c : Char} {n : Nat} (h : c ∈ Nat.toDigits 10 n) :
    isNumeric c = true := by
  simp [isNumeric, Nat.isDigit_of_mem_toDigits (by decide) (by decide) h]

theorem isNumeric_of_mem_zeros {c : Char} {n : Nat} (h : c ∈ Decimal.zeros n) :
    isNumeric c = true := by
  rw [List.eq_of_mem_replicate h]
  decide

theorem isNumeric_of_mem_positional {c : Char} {d : Decimal} (h : c ∈ d.positional) :
    isNumeric c = true := by
  have hdigit {c : Char} (h : c ∈ d.digits) : isNumeric c = true := isNumeric_of_mem_toDigits h
  unfold Decimal.positional at h
  simp only at h
  split at h
  · rcases List.mem_append.mp h with h | h
    · exact hdigit h
    · exact isNumeric_of_mem_zeros h
  · split at h
    · rcases List.mem_append.mp h with h | h
      · exact hdigit (List.mem_of_mem_take h)
      · rcases List.mem_cons.mp h with rfl | h
        · decide
        · exact hdigit (List.mem_of_mem_drop h)
    · simp only [List.cons_append, List.mem_cons, List.mem_append] at h
      rcases h with rfl | rfl | h | h
      · decide
      · decide
      · exact isNumeric_of_mem_zeros h
      · exact hdigit h

theorem isNumeric_of_mem_scientific {c : Char} {d : Decimal} {plus : Bool}
    (h : c ∈ d.scientific plus) : isNumeric c = true := by
  have hdigit {c : Char} (h : c ∈ d.digits) : isNumeric c = true := isNumeric_of_mem_toDigits h
  unfold Decimal.scientific at h
  simp only [List.append_assoc, List.cons_append, List.mem_append, List.mem_cons] at h
  rcases h with h | rfl | h | h
  · cases hd : d.digits with
    | nil => simp [hd] at h
    | cons a rest =>
        rw [hd] at h hdigit
        cases rest with
        | nil => exact hdigit h
        | cons b rest =>
            simp only [List.mem_cons] at h hdigit
            rcases h with h | rfl | h
            · exact hdigit (Or.inl h)
            · decide
            · exact hdigit (Or.inr h)
  · decide
  · split at h
    · rw [List.mem_singleton.mp h]
      decide
    · split at h
      · rw [List.mem_singleton.mp h]
        decide
      · cases h
  · exact isNumeric_of_mem_toDigits h

theorem isNumeric_of_mem_text {c : Char} {n : Numeral} (h : c ∈ n.text) : isNumeric c = true := by
  cases n with
  | natural n => exact isNumeric_of_mem_toDigits h
  | negative n =>
      rcases List.mem_cons.mp h with rfl | h
      · decide
      · exact isNumeric_of_mem_toDigits h
  | real s d =>
      have hbody : c ∈ (if isPlainLead d.lead then d.positional else d.scientific true) →
          isNumeric c = true := by
        split
        · exact isNumeric_of_mem_positional
        · exact isNumeric_of_mem_scientific
      cases s with
      | false => exact hbody h
      | true =>
          rcases List.mem_cons.mp h with rfl | h
          · decide
          · exact hbody h

/-! ### Numbers read back -/

variable {rest : Rest} {fuel : Nat}

/-- What is read where a number was written. -/
def Numeral.reading (n : Numeral) : Reading := value 1 n.text

theorem ne_of_isNumeric {c d : Char} (h : isNumeric c = true) (hd : isNumeric d = false) :
    c ≠ d := by
  rintro rfl
  rw [h] at hd
  cases hd

/-- Where a number may begin, only its own reader is asked. -/
theorem value_of_isNumeric {c : Char} {cs : Rest} (h : isNumeric c = true) :
    value (fuel + 1) (c :: cs) =
      if c = '-' then readNumber true cs
      else if (digitValue c).isSome then readNumber false (c :: cs)
      else stopped .malformed := by
  have hblank : isBlank c = false := by
    simp [isBlank, ne_of_isNumeric h (show isNumeric ' ' = false by decide),
      ne_of_isNumeric h (show isNumeric '\n' = false by decide),
      ne_of_isNumeric h (show isNumeric '\t' = false by decide),
      ne_of_isNumeric h (show isNumeric '\r' = false by decide)]
  have hquote : isQuote c = false := by
    simpa [isQuote] using fun heq => ne_of_isNumeric h (by decide) (eq_of_toNat heq)
  have hbrace : isOpenBrace c = false := by
    simpa [isOpenBrace] using fun heq => ne_of_isNumeric h (by decide) (eq_of_toNat heq)
  simp [value, skipBlanks, hblank, hquote, hbrace,
    ne_of_isNumeric h (show isNumeric 'n' = false by decide),
    ne_of_isNumeric h (show isNumeric 't' = false by decide),
    ne_of_isNumeric h (show isNumeric 'f' = false by decide),
    ne_of_isNumeric h (show isNumeric '[' = false by decide)]

theorem value_text_extends (n : Numeral) (fuel : Nat) (rest : Rest) :
    Reading.Extends rest n.reading (value (fuel + 1) (n.text ++ rest)) := by
  unfold Numeral.reading
  cases htext : n.text with
  | nil => exact .of_stopped
  | cons c cs =>
      have hc : isNumeric c = true := isNumeric_of_mem_text (n := n) (by simp [htext])
      rw [List.cons_append, value_of_isNumeric hc, value_of_isNumeric hc]
      split
      · exact readNumber_extends rest
      · split
        · rw [← List.cons_append]
          exact readNumber_extends rest
        · exact .of_stopped

/-! ### Values read back -/

mutual

/-- A value with every number as it is read. -/
def reread : Json → Json
  | .number n => n.reading.1
  | .array items _ => .list (rereadItems items)
  | .object members _ => .record (rereadMembers members)
  | j => j

/-- The items of an array, each as it is read. -/
def rereadItems : List Json → List Json
  | [] => []
  | j :: rest => reread j :: rereadItems rest

/-- The members of an object, each as it is read. -/
def rereadMembers : List (String × Json) → List (String × Json)
  | [] => []
  | (k, j) :: rest => (k, reread j) :: rereadMembers rest

end

mutual

/-- Whether the text of a value is read to its end. -/
def Readable : Json → Prop
  | .number n => ∃ m s, n.reading = (.number m, some s) ∧ skipBlanks s = []
  | .array items _ => ReadableItems items
  | .object members _ => ReadableMembers members
  | .unreadable => False
  | .fault _ => False
  | _ => True

/-- Whether the items of an array are read to their ends. -/
def ReadableItems : List Json → Prop
  | [] => True
  | j :: rest => Readable j ∧ ReadableItems rest

/-- Whether the members of an object are read to their ends. -/
def ReadableMembers : List (String × Json) → Prop
  | [] => True
  | (_, j) :: rest => Readable j ∧ ReadableMembers rest

end

/-- The text of a value does not begin with a blank, and not with the end of an array. -/
theorem Layout.text_head (l : Layout) (depth : Nat) {j : Json} (h : Readable j) :
    ∃ c cs, l.text depth j = c :: cs ∧ isBlank c = false ∧ c ≠ ']' := by
  cases j with
  | null => exact ⟨_, _, rfl, by decide, by decide⟩
  | bool b => cases b <;> exact ⟨_, _, rfl, by decide, by decide⟩
  | number n =>
      cases htext : n.text with
      | nil =>
          obtain ⟨m, s, hs, -⟩ := h
          simp [Numeral.reading, htext, value, skipBlanks, stopped] at hs
      | cons c cs =>
          have hc : isNumeric c = true := isNumeric_of_mem_text (n := n) (by simp [htext])
          refine ⟨c, cs, htext, ?_, ne_of_isNumeric hc (by decide)⟩
          simp [isBlank, ne_of_isNumeric hc (show isNumeric ' ' = false by decide),
            ne_of_isNumeric hc (show isNumeric '\n' = false by decide),
            ne_of_isNumeric hc (show isNumeric '\t' = false by decide),
            ne_of_isNumeric hc (show isNumeric '\r' = false by decide)]
  | string s => exact ⟨_, _, rfl, by decide, by decide⟩
  | array items stop => cases items <;> exact ⟨_, _, rfl, by decide, by decide⟩
  | object members stop => cases members <;> exact ⟨_, _, rfl, by decide, by decide⟩
  | unreadable => exact h.elim
  | fault f => exact h.elim

theorem compact_head {j : Json} (h : Readable j) :
    ∃ c cs, compact j = c :: cs ∧ isBlank c = false ∧ c ≠ ']' := by
  rw [← Layout.text_oneLine 0 j]
  exact Layout.oneLine.text_head 0 h

theorem skipBlanks_of_not_blank {c : Char} {cs : Rest} (h : isBlank c = false) :
    skipBlanks (c :: cs) = c :: cs := by
  simp [skipBlanks, h]

theorem ends_cons {c : Char} (hc : isNumeric c = false) (hE : c ≠ 'E') : Ends (c :: rest) := by
  simp only [isNumeric, Bool.or_eq_false_iff, decide_eq_false_iff_not] at hc
  refine ⟨?_, hc.1.2, hc.2, hE⟩
  have hdigit := hc.1.1.1.1
  simp only [Char.isDigit, Bool.and_eq_false_imp, decide_eq_true_eq, decide_eq_false_iff_not]
    at hdigit
  exact if_neg fun h => hdigit h.1 h.2

/-! ### Blanks in front of a part -/

section Blanks

variable {b : Rest}

/-- A number ends in front of a blank. -/
theorem ends_append (hb : skipBlanks b = []) (h : Ends rest) : Ends (b ++ rest) := by
  cases b with
  | nil => exact h
  | cons c b =>
      have hc : isBlank c = true := by
        cases hc : isBlank c with
        | true => rfl
        | false =>
            rw [skipBlanks_of_not_blank hc] at hb
            cases hb
      simp only [isBlank, Bool.or_eq_true, decide_eq_true_eq] at hc
      rcases hc with ((rfl | rfl) | rfl) | rfl <;> exact ends_cons (by decide) (by decide)

theorem value_append (hb : skipBlanks b = []) : value fuel (b ++ rest) = value fuel rest := by
  cases fuel with
  | zero => rfl
  | succ fuel => rw [value, value, skipBlanks_append hb]

theorem items_append (hb : skipBlanks b = []) : items fuel (b ++ rest) = items fuel rest := by
  cases fuel with
  | zero => rfl
  | succ fuel => rw [items, items, value_append hb]

theorem members_append (hb : skipBlanks b = []) :
    members fuel (b ++ rest) = members fuel rest := by
  cases fuel with
  | zero => rfl
  | succ fuel => rw [members, members, skipBlanks_append hb]

end Blanks

/-! ### Containers -/

/-- An array that has an item goes on with its items. -/
theorem value_array {b : Rest} {c : Char} {cs : Rest} (hb : skipBlanks b = [])
    (hblank : isBlank c = false) (hclose : c ≠ ']') :
    value (fuel + 1) ('[' :: (b ++ c :: cs)) =
      (.array (items fuel (c :: cs)).1 (items fuel (c :: cs)).2.1,
        (items fuel (c :: cs)).2.2) := by
  have hopen : isBlank '[' = false := by decide
  simp [value, skipBlanks_append hb, skipBlanks_of_not_blank hblank,
    skipBlanks_of_not_blank hopen, hclose, show isQuote '[' = false by decide,
    show digitValue '[' = none by decide]

/-- An object that has a member goes on with its members. -/
theorem value_object {b : Rest} {cs : Rest} (hb : skipBlanks b = []) :
    value (fuel + 1) (openBrace :: (b ++ quote :: cs)) =
      (.object (members fuel (quote :: cs)).1 (members fuel (quote :: cs)).2.1,
        (members fuel (quote :: cs)).2.2) := by
  have hskip : skipBlanks (b ++ quote :: cs) = quote :: cs := by
    rw [skipBlanks_append hb, skipBlanks_of_not_blank (by decide)]
  rw [value, skipBlanks_of_not_blank (by decide)]
  simp only [hskip]
  rfl

/-- A member is its key, its value, and the mark behind it. -/
theorem members_quoted {k : String} {v : Json} {c : Char} {cs left : Rest}
    (hvalue : value fuel cs = (v, some left)) (hleft : skipBlanks left = c :: rest) :
    members (fuel + 1) (quoted k ++ ':' :: cs) =
      if isCloseBrace c then ([(k, v)], none, some rest)
      else if c = ',' then
        ((k, v) :: (members fuel rest).1, (members fuel rest).2.1, (members fuel rest).2.2)
      else ([(k, v)], some .malformed, none) := by
  have hquoted : quoted k ++ ':' :: cs =
      quote :: (k.toList.flatMap escape ++ quote :: ':' :: cs) := by
    simp [quoted]
  rw [hquoted, members, skipBlanks_of_not_blank (by decide)]
  simp only [show isQuote quote = true by decide, readString_quoted,
    skipBlanks_of_not_blank (show isBlank ':' = false by decide), Bool.not_true,
    Bool.false_eq_true, if_false, ne_eq, not_true_eq_false, hvalue, hleft]

namespace Layout

variable {l : Layout} {depth : Nat} {mark : List Char}

theorem items_head {j : Json} {js : List Json} (h : ReadableItems (j :: js)) :
    ∃ c cs, separated mark (l.items depth (j :: js)) = c :: cs ∧ isBlank c = false ∧ c ≠ ']' := by
  obtain ⟨c, cs, hj, hc⟩ := l.text_head depth h.1
  cases js with
  | nil => exact ⟨c, cs, hj, hc⟩
  | cons k js => exact ⟨c, _, by rw [items, items, separated, hj]; rfl, hc⟩

theorem members_head (m : String × Json) (ms : List (String × Json)) :
    ∃ cs, separated mark (l.members depth (m :: ms)) = quote :: cs := by
  obtain ⟨k, j⟩ := m
  cases ms with
  | nil => exact ⟨_, rfl⟩
  | cons m ms => exact ⟨_, by rw [members, members, separated]; rfl⟩

theorem block_append {opening closing : Char} {parts : List (List Char)} (h : parts ≠ []) :
    l.block opening closing depth parts ++ rest =
      opening :: (l.gap (depth + 1) ++ (separated (',' :: l.gap (depth + 1)) parts ++
        (l.gap depth ++ closing :: rest))) := by
  cases parts with
  | nil => exact absurd rfl h
  | cons part parts => simp [block]

mutual

/-- **The text of a value is read to its end.** -/
theorem value_text : (j : Json) → Readable j → ∀ (depth fuel : Nat) (rest : Rest),
    (l.text depth j).length < fuel → Ends rest →
      ∃ left, value fuel (l.text depth j ++ rest) = (reread j, some left) ∧
        skipBlanks left = skipBlanks rest
  | .null, _, _, fuel + 1, rest, _, _ => ⟨rest, rfl, rfl⟩
  | .bool true, _, _, fuel + 1, rest, _, _ => ⟨rest, rfl, rfl⟩
  | .bool false, _, _, fuel + 1, rest, _, _ => ⟨rest, rfl, rfl⟩
  | .number n, h, _, fuel + 1, rest, _, hrest => by
      obtain ⟨m, s, hs, hblank⟩ := h
      exact ⟨s ++ rest, value_text_extends n fuel rest _ s (by rw [reread, hs]) fun _ => hrest,
        skipBlanks_append hblank⟩
  | .string s, _, _, fuel + 1, rest, _, _ => by
      refine ⟨rest, ?_, rfl⟩
      show readString (_ ++ [quote] ++ rest) = _
      rw [List.append_assoc]
      exact readString_quoted s
  | .array [] _, _, _, fuel + 1, rest, _, _ => ⟨rest, rfl, rfl⟩
  | .array (j :: js) _, h, depth, fuel + 1, rest, hfuel, _ => by
      have hitems := items_text (j :: js) h (by simp) (depth + 1) (l.gap depth)
        (l.skip_gap depth) fuel rest (by
          simp only [text, items, block, List.length_cons, List.length_append] at hfuel ⊢
          omega)
      obtain ⟨c, cs, hhead, hblank, hclose⟩ := items_head h
      refine ⟨rest, ?_, rfl⟩
      rw [hhead, List.cons_append] at hitems
      rw [text, block_append (by simp [items]), hhead, List.cons_append,
        value_array (l.skip_gap _) hblank hclose, hitems]
      rfl
  | .object [] _, _, _, fuel + 1, rest, _, _ => ⟨rest, rfl, rfl⟩
  | .object (m :: ms) _, h, depth, fuel + 1, rest, hfuel, _ => by
      have hmembers := members_text (m :: ms) h (by simp) (depth + 1) (l.gap depth)
        (l.skip_gap depth) fuel rest (by
          simp only [text, members, block, List.length_cons, List.length_append] at hfuel ⊢
          omega)
      obtain ⟨cs, hhead⟩ := members_head m ms
      refine ⟨rest, ?_, rfl⟩
      rw [hhead, List.cons_append] at hmembers
      rw [text, block_append (by simp [members]), hhead, List.cons_append,
        value_object (l.skip_gap _), hmembers]
      rfl

theorem items_text : (js : List Json) → ReadableItems js → js ≠ [] →
    ∀ (depth : Nat) (b : Rest), skipBlanks b = [] → ∀ (fuel : Nat) (rest : Rest),
      (separated (',' :: l.gap depth) (l.items depth js)).length + 1 < fuel →
        Json.items fuel (separated (',' :: l.gap depth) (l.items depth js) ++ (b ++ ']' :: rest)) =
          (rereadItems js, none, some rest)
  | [j], h, _, depth, b, hb, fuel + 1, rest, hfuel => by
      obtain ⟨left, hvalue, hleft⟩ := value_text j h.1 depth fuel (b ++ ']' :: rest)
        (Nat.lt_of_succ_lt_succ hfuel) (ends_append hb (ends_cons (by decide) (by decide)))
      rw [skipBlanks_append hb, skipBlanks_of_not_blank (by decide)] at hleft
      simp only [items, separated, Json.items, hvalue, hleft, if_true, rereadItems]
  | j :: k :: js, h, _, depth, b, hb, fuel + 1, rest, hfuel => by
      have hrest := items_text (k :: js) h.2 (by simp) depth b hb fuel rest
      simp only [items, separated, List.append_assoc, List.cons_append, List.length_append,
        List.length_cons] at hfuel hrest ⊢
      obtain ⟨left, hvalue, hleft⟩ := value_text j h.1 depth fuel
        (',' :: (l.gap depth ++ (separated (',' :: l.gap depth)
          (l.text depth k :: l.items depth js) ++ (b ++ ']' :: rest)))) (by omega)
        (ends_cons (by decide) (by decide))
      rw [skipBlanks_of_not_blank (by decide)] at hleft
      simp only [Json.items, hvalue, hleft, items_append (l.skip_gap depth), hrest (by omega),
        rereadItems]
      rfl

theorem members_text : (ms : List (String × Json)) → ReadableMembers ms → ms ≠ [] →
    ∀ (depth : Nat) (b : Rest), skipBlanks b = [] → ∀ (fuel : Nat) (rest : Rest),
      (separated (',' :: l.gap depth) (l.members depth ms)).length + 1 < fuel →
        Json.members fuel
            (separated (',' :: l.gap depth) (l.members depth ms) ++ (b ++ closeBrace :: rest)) =
          (rereadMembers ms, none, some rest)
  | [(key, j)], h, _, depth, b, hb, fuel + 1, rest, hfuel => by
      simp only [members, separated, List.append_assoc, List.cons_append, List.length_append,
        List.length_cons] at hfuel ⊢
      obtain ⟨left, hvalue, hleft⟩ := value_text j h.1 depth fuel (b ++ closeBrace :: rest)
        (by omega) (ends_append hb (ends_cons (by decide) (by decide)))
      rw [skipBlanks_append hb, skipBlanks_of_not_blank (by decide)] at hleft
      rw [← value_append l.skip_space] at hvalue
      rw [members_quoted hvalue hleft]
      rfl
  | (key, j) :: (k, i) :: ms, h, _, depth, b, hb, fuel + 1, rest, hfuel => by
      have hrest := members_text ((k, i) :: ms) h.2 (by simp) depth b hb fuel rest
      simp only [members, separated, List.append_assoc, List.cons_append, List.length_append,
        List.length_cons] at hfuel hrest ⊢
      obtain ⟨left, hvalue, hleft⟩ := value_text j h.1 depth fuel
        (',' :: (l.gap depth ++ (separated (',' :: l.gap depth)
          ((quoted k ++ ':' :: (l.space ++ l.text depth i)) :: l.members depth ms) ++
            (b ++ closeBrace :: rest)))) (by omega)
        (ends_cons (by decide) (by decide))
      rw [skipBlanks_of_not_blank (by decide)] at hleft
      rw [← value_append l.skip_space] at hvalue
      rw [members_quoted hvalue hleft, members_append (l.skip_gap depth), hrest (by omega)]
      rfl

end

end Layout

/-- A text that decodes is read to its end, and its value decodes. -/
theorem read_of_decode {α : Type} {decoder : Json → Decoded α} {text : String} {a : α}
    (h : decode decoder text = .ok a) :
    ∃ j s, read text = (j, some s) ∧ skipBlanks s = [] ∧ decoder j = .ok a := by
  rcases hread : read text with ⟨j, left⟩
  simp only [decode, hread] at h
  cases hj : decoder j with
  | error f =>
      rw [hj] at h
      cases h
  | ok b =>
      cases left with
      | none =>
          rw [hj] at h
          cases h
      | some s =>
          simp only [hj] at h
          split at h
          next hs =>
            cases h
            exact ⟨j, s, rfl, List.isEmpty_iff.mp hs, hj⟩
          next => cases h

/-- A text holds a document: it is read to its end, and behind the document there are blanks. -/
def Holds (text : String) (j : Json) : Prop :=
  ∃ left, read text = (j, some left) ∧ skipBlanks left = []

/-- **A document decodes as the value that it is read as.** -/
theorem Holds.decode_eq {α : Type} {text : String} {j : Json} (h : Holds text j)
    (decoder : Json → Decoded α) : decode decoder text = decoder j := by
  obtain ⟨left, hread, hleft⟩ := h
  simp only [decode, hread, hleft, List.isEmpty_nil, if_true]
  cases decoder j <;> rfl

/-- The texts that a document is written as. -/
inductive Written (j : Json) : String → Prop where
  | oneLine : Written j j.render
  | indented : Written j j.renderIndented

theorem holds_text {l : Layout} {j : Json} (h : Readable j) :
    Holds (String.ofList (l.text 0 j)) (reread j) := by
  obtain ⟨left, hvalue, hleft⟩ := l.value_text j h 0 (2 * (l.text 0 j).length + 2) []
    (by omega) trivial
  rw [List.append_nil] at hvalue
  exact ⟨left, by simpa only [read, String.toList_ofList] using hvalue, hleft⟩

/-- **A written document is held by its text.** -/
theorem Written.holds {j : Json} {text : String} (h : Readable j) (hwritten : j.Written text) :
    Holds text (reread j) := by
  cases hwritten with
  | oneLine =>
      rw [render, ← Layout.text_oneLine 0 j]
      exact holds_text h
  | indented =>
      rw [renderIndented, ← Layout.text_indenting 0 j]
      exact holds_text h

theorem decode_render {α : Type} (decoder : Json → Decoded α) {j : Json} (h : Readable j) :
    decode decoder j.render = decoder (reread j) :=
  (Written.oneLine.holds h).decode_eq decoder

/-! ### The two kinds of numbers on the wire -/

theorem value_text (n : Numeral) : value (fuel + 1) n.text = n.reading := by
  unfold Numeral.reading
  cases htext : n.text with
  | nil => rfl
  | cons c cs =>
      have hc : isNumeric c = true := isNumeric_of_mem_text (n := n) (by simp [htext])
      rw [value_of_isNumeric hc, value_of_isNumeric hc]

/-- **A natural number of one word is read as itself.** -/
theorem reading_natural {n : Nat} (hn : n ≤ largest64) :
    (Numeral.natural n).reading = (.nat n, some []) := by
  have hread : readNumber false (Nat.toDigits 10 n ++ []) = _ := readNumber_natural hn trivial
  rw [List.append_nil] at hread
  obtain ⟨c, cs, htext⟩ := List.exists_cons_of_ne_nil (Nat.toDigits_ne_nil (n := n) (b := 10))
  have hdigit : c.isDigit = true :=
    Nat.isDigit_of_mem_toDigits (b := 10) (n := n) (by decide) (by decide) (by simp [htext])
  have hsign : c ≠ '-' := by
    rintro rfl
    revert hdigit
    decide
  have hvalue : (digitValue c).isSome = true := by
    simp only [Char.isDigit, Bool.and_eq_true, decide_eq_true_eq] at hdigit
    simp only [digitValue, if_pos (show '0' ≤ c ∧ c ≤ '9' from hdigit), Option.isSome_some]
  show value 1 (Nat.toDigits 10 n) = _
  rw [htext, value_of_isNumeric (isNumeric_of_mem_toDigits (n := n) (by simp [htext])),
    if_neg hsign, if_pos hvalue, ← htext, hread]
  rfl

theorem reread_nat {n : Nat} (hn : n ≤ largest64) : reread (.nat n) = .nat n :=
  congrArg Prod.fst (reading_natural hn)

theorem readable_nat {n : Nat} (hn : n ≤ largest64) : Readable (.nat n) :=
  ⟨.natural n, [], reading_natural hn, rfl⟩

/-- The text of a number in single precision is read back to it. -/
def ReadsBack (x : Single) : Prop := decode asSingle (single x).render = .ok x

instance (x : Single) : Decidable (ReadsBack x) :=
  match h : decode asSingle (single x).render with
  | .ok y => decidable_of_iff (y = x) (by rw [ReadsBack, h, Except.ok.injEq])
  | .error _ => isFalse (by rw [ReadsBack, h]; exact nofun)

theorem number_of_asSingle {j : Json} {x : Single} (h : asSingle j = .ok x) :
    ∃ n, j = .number n := by
  cases j
  case number n => exact ⟨n, rfl⟩
  all_goals cases h

theorem ReadsBack.readable {x : Single} (h : ReadsBack x) : Readable (single x) := by
  by_cases hfinite : x.isFinite
  · obtain ⟨j, s, hread, hs, hj⟩ := read_of_decode h
    obtain ⟨n, rfl⟩ := number_of_asSingle hj
    simp only [single, hfinite, if_true, read, render, String.toList_ofList, compact,
      value_text] at hread
    rw [single, if_pos hfinite]
    exact ⟨n, s, hread, hs⟩
  · rw [single, if_neg hfinite]
    trivial

/-- A number that is not finite is `null`, which is always read. -/
theorem readable_single {x : Single} (h : x.isFinite = true → ReadsBack x) :
    Readable (single x) := by
  by_cases hfinite : x.isFinite
  · exact (h hfinite).readable
  · rw [single, if_neg hfinite]
    trivial

theorem ReadsBack.asSingle {x : Single} (h : ReadsBack x) :
    asSingle (reread (single x)) = .ok x :=
  (decode_render _ h.readable).symm.trans h

/-! ### Lines -/

theorem mem_separated {c : Char} {mark : List Char} {xs : List (List Char)}
    (h : c ∈ separated mark xs) : c ∈ mark ∨ ∃ x ∈ xs, c ∈ x := by
  induction xs with
  | nil => cases h
  | cons x xs ih =>
      cases xs with
      | nil => exact .inr ⟨x, List.mem_cons_self, h⟩
      | cons y ys =>
          rw [separated, List.append_assoc, List.mem_append, List.mem_append] at h
          rcases h with h | h | h
          · exact .inr ⟨x, List.mem_cons_self, h⟩
          · exact .inl h
          · exact (ih h).imp id fun ⟨z, hz, hc⟩ => ⟨z, List.mem_cons_of_mem _ hz, hc⟩

theorem newline_not_mem_escape (c : Char) : '\n' ∉ escape c := by
  unfold escape
  simp only
  split
  case h_8 n hquote hback hb ht hn hf hr =>
    split
    next hlow =>
      have hhex : ∀ v < 16, '\n' ≠ hexDigit v := by decide
      simp [hhex (c.toNat / 16) (by omega), hhex (c.toNat % 16) (by omega)]
    next hhigh =>
      intro h
      rw [← List.mem_singleton.mp h] at hhigh
      exact hhigh (by decide)
  all_goals
    next h =>
      try rw [eq_of_toNat h]
      decide

theorem newline_not_mem_quoted (s : String) : '\n' ∉ quoted s := by
  intro h
  simp only [quoted, List.cons_append, List.mem_cons, List.mem_append, List.not_mem_nil,
    or_false] at h
  rcases h with h | h | h
  · revert h
    decide
  · obtain ⟨c, -, hc⟩ := List.mem_flatMap.mp h
    exact newline_not_mem_escape c hc
  · revert h
    decide

mutual

/-- **The text of a value is a single line.** -/
theorem newline_not_mem_compact : (j : Json) → '\n' ∉ compact j
  | .null => by decide
  | .bool true => by decide
  | .bool false => by decide
  | .number n => fun h => by
      have hc := isNumeric_of_mem_text h
      revert hc
      decide
  | .string s => newline_not_mem_quoted s
  | .array items _ => fun h => by
      simp only [compact, List.cons_append, List.mem_cons, List.mem_append, List.not_mem_nil,
        or_false] at h
      rcases h with h | h | h
      · revert h
        decide
      · rcases mem_separated h with h | ⟨x, hx, h⟩
        · revert h
          decide
        · exact newline_not_mem_compactItems items x hx h
      · revert h
        decide
  | .object members _ => fun h => by
      simp only [compact, List.cons_append, List.mem_cons, List.mem_append, List.not_mem_nil,
        or_false] at h
      rcases h with h | h | h
      · revert h
        decide
      · rcases mem_separated h with h | ⟨x, hx, h⟩
        · revert h
          decide
        · exact newline_not_mem_compactMembers members x hx h
      · revert h
        decide
  | .unreadable => List.not_mem_nil
  | .fault _ => List.not_mem_nil

theorem newline_not_mem_compactItems : (js : List Json) → ∀ x ∈ compactItems js, '\n' ∉ x
  | [], _, hx => nomatch hx
  | j :: js, x, hx => by
      rcases List.mem_cons.mp hx with rfl | hx
      · exact newline_not_mem_compact j
      · exact newline_not_mem_compactItems js x hx

theorem newline_not_mem_compactMembers :
    (ms : List (String × Json)) → ∀ x ∈ compactMembers ms, '\n' ∉ x
  | [], _, hx => nomatch hx
  | (k, j) :: ms, x, hx => by
      rcases List.mem_cons.mp hx with rfl | hx
      · intro h
        simp only [List.mem_append, List.mem_cons] at h
        rcases h with h | h | h
        · exact newline_not_mem_quoted k h
        · revert h
          decide
        · exact newline_not_mem_compact j h
      · exact newline_not_mem_compactMembers ms x hx

end

end FilterScript.Json
