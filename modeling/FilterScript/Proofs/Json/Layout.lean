/-
The two layouts of a document.

A document is written on one line or indented.  The texts differ in blanks alone, and only where a
reader skips them: in front of a part, in front of the bracket that closes, and behind a colon.  A
`Layout` says which blanks these are, with the proof that they are blanks, so that what is proved
for a layout holds of both texts.
-/
import FilterScript.Json.Printer
import FilterScript.Json.Reader

namespace FilterScript.Json

theorem skipBlanks_append {s rest : Rest} (h : skipBlanks s = []) :
    skipBlanks (s ++ rest) = skipBlanks rest := by
  induction s with
  | nil => rfl
  | cons c s ih =>
      simp only [List.cons_append, skipBlanks] at h ⊢
      split at h
      next hc =>
        rw [if_pos hc]
        exact ih h
      · cases h

theorem skipBlanks_newline (depth : Nat) : skipBlanks (newline depth) = [] := by
  have hspaces (n : Nat) : skipBlanks (List.replicate n ' ') = [] := by
    induction n with
    | zero => rfl
    | succ n ih => exact ih
  exact hspaces (2 * depth)

/-- The blanks of a text. -/
structure Layout where
  /-- What stands in front of a part at some depth, and of the bracket that closes a container at
  that depth. -/
  gap : Nat → List Char
  /-- What stands behind a colon. -/
  space : List Char
  skip_gap : ∀ depth, skipBlanks (gap depth) = []
  skip_space : skipBlanks space = []

namespace Layout

/-- No blanks at all. -/
def oneLine : Layout := ⟨fun _ => [], [], fun _ => rfl, rfl⟩

/-- One part on a line. -/
def indenting : Layout := ⟨newline, [' '], skipBlanks_newline, rfl⟩

/-- Parts between brackets. -/
def block (l : Layout) (opening closing : Char) (depth : Nat) : List (List Char) → List Char
  | [] => [opening, closing]
  | parts =>
    opening :: l.gap (depth + 1) ++ separated (',' :: l.gap (depth + 1)) parts ++ l.gap depth
      ++ [closing]

mutual

/-- The text of a value in a layout. -/
def text (l : Layout) (depth : Nat) : Json → List Char
  | .array items _ => l.block '[' ']' depth (l.items (depth + 1) items)
  | .object members _ => l.block openBrace closeBrace depth (l.members (depth + 1) members)
  | .null => compact .null
  | .bool b => compact (.bool b)
  | .number n => n.text
  | .string s => quoted s
  | .unreadable => []
  | .fault _ => []

/-- The texts of the items of an array. -/
def items (l : Layout) (depth : Nat) : List Json → List (List Char)
  | [] => []
  | j :: rest => l.text depth j :: l.items depth rest

/-- The texts of the members of an object. -/
def members (l : Layout) (depth : Nat) : List (String × Json) → List (List Char)
  | [] => []
  | (k, j) :: rest => (quoted k ++ ':' :: (l.space ++ l.text depth j)) :: l.members depth rest

end

mutual

/-- **A text on one line is laid out without blanks.** -/
theorem text_oneLine : (depth : Nat) → (j : Json) → oneLine.text depth j = compact j
  | depth, .array [] _ => rfl
  | depth, .array (j :: js) _ => by
      have hitems := items_oneLine (depth + 1) (j :: js)
      simp only [text, compact, ← hitems, items, block, oneLine, List.append_nil,
        List.cons_append, List.nil_append]
  | depth, .object [] _ => rfl
  | depth, .object ((k, j) :: ms) _ => by
      have hmembers := members_oneLine (depth + 1) ((k, j) :: ms)
      simp only [text, compact, ← hmembers, members, block, oneLine, List.append_nil,
        List.cons_append, List.nil_append]
  | _, .null => rfl
  | _, .bool _ => rfl
  | _, .number _ => rfl
  | _, .string _ => rfl
  | _, .unreadable => rfl
  | _, .fault _ => rfl

theorem items_oneLine : (depth : Nat) → (js : List Json) → oneLine.items depth js = compactItems js
  | _, [] => rfl
  | depth, j :: js => by
      rw [items, compactItems, text_oneLine depth j, items_oneLine depth js]

theorem members_oneLine : (depth : Nat) → (ms : List (String × Json)) →
    oneLine.members depth ms = compactMembers ms
  | _, [] => rfl
  | depth, (k, j) :: ms => by
      rw [members, compactMembers, text_oneLine depth j, members_oneLine depth ms]
      rfl

end

mutual

/-- **An indented text is laid out with a part on a line.** -/
theorem text_indenting : (depth : Nat) → (j : Json) → indenting.text depth j = indented depth j
  | depth, .array [] _ => rfl
  | depth, .array (j :: js) _ => by
      have hitems := items_indenting (depth + 1) (j :: js)
      simp only [text, indented, ← hitems, items, block, Json.block, indenting]
  | depth, .object [] _ => rfl
  | depth, .object ((k, j) :: ms) _ => by
      have hmembers := members_indenting (depth + 1) ((k, j) :: ms)
      simp only [text, indented, ← hmembers, members, block, Json.block, indenting]
  | _, .null => rfl
  | _, .bool _ => rfl
  | _, .number _ => rfl
  | _, .string _ => rfl
  | _, .unreadable => rfl
  | _, .fault _ => rfl

theorem items_indenting : (depth : Nat) → (js : List Json) →
    indenting.items depth js = indentedItems depth js
  | _, [] => rfl
  | depth, j :: js => by
      rw [items, indentedItems, text_indenting depth j, items_indenting depth js]

theorem members_indenting : (depth : Nat) → (ms : List (String × Json)) →
    indenting.members depth ms = indentedMembers depth ms
  | _, [] => rfl
  | depth, (k, j) :: ms => by
      rw [members, indentedMembers, text_indenting depth j, members_indenting depth ms]
      rfl

end

end Layout

end FilterScript.Json
