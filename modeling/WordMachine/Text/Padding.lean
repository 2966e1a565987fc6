/-!
# Padding to a width

Columns of a listing count characters: a text shorter than its column is filled up, a longer one
is kept whole.

## Main definitions

* `padEnd`, `padStart`: a text filled up behind, or in front
-/

namespace WordMachine.Text

/-- A text filled up behind with blanks. -/
def padEnd (width : Nat) (s : String) : String :=
  s ++ String.ofList (List.replicate (width - s.length) ' ')

/-- A text filled up in front with a character. -/
def padStart (width : Nat) (filler : Char) (s : String) : String :=
  String.ofList (List.replicate (width - s.length) filler) ++ s

/-- Filling up behind keeps the text in front. -/
theorem toList_padEnd (width : Nat) (s : String) :
    (padEnd width s).toList = s.toList ++ List.replicate (width - s.length) ' ' := by
  simp [padEnd]

end WordMachine.Text
