import FilterScript.Text.Unprinted

/-
Text shown between quotes, as messages show names and values that may hold anything.
-/
namespace FilterScript.Text

private def backslash : Char := Char.ofNat 92

/-- A character between quotes: quotes and backslashes are escaped, and characters without a mark of
their own are written by name or by number. -/
def quotedChar (c : Char) : List Char :=
  match c.toNat with
  | 0 => [backslash, '0']
  | 9 => [backslash, 't']
  | 10 => [backslash, 'n']
  | 13 => [backslash, 'r']
  | 34 => [backslash, c]
  | 92 => [backslash, c]
  | n =>
    if isUnprinted c then
      backslash :: 'u' :: Char.ofNat 123 :: Nat.toDigits 16 n ++ [Char.ofNat 125]
    else [c]

/-- A text between quotes. -/
def quoted (s : String) : String :=
  let quote := Char.ofNat 34
  String.ofList (quote :: s.toList.flatMap quotedChar ++ [quote])

end FilterScript.Text
