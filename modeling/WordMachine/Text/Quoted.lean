/-!
# Splitting outside quotes

An apostrophe opens a quoted stretch and the next one closes it. Separators count only outside
such stretches; a stretch that is never closed reaches to the end of the text.

## Main definitions

* `splitOutside p`: the pieces between the separators `p` that stand outside quotes
* `splitOn p`: the pieces between all separators `p`

## Main results

* `splitOutside_ne_nil`, `splitOn_ne_nil`: there is always at least one piece
-/

namespace WordMachine.Text

/-- Puts a character in front of the first piece. -/
def consHead (c : Char) : List (List Char) → List (List Char)
  | [] => [[c]]
  | piece :: pieces => (c :: piece) :: pieces

/-- The pieces of a text between the separators that stand outside quotes, for a text that starts
inside quotes when `quoted` holds. -/
def splitOutside (separates : Char → Bool) (quoted : Bool) : List Char → List (List Char)
  | [] => [[]]
  | c :: cs =>
    if c = '\'' then consHead c (splitOutside separates (!quoted) cs)
    else if separates c && !quoted then [] :: splitOutside separates quoted cs
    else consHead c (splitOutside separates quoted cs)

/-- The pieces of a text between its separators. -/
def splitOn (separates : Char → Bool) : List Char → List (List Char)
  | [] => [[]]
  | c :: cs => if separates c then [] :: splitOn separates cs else consHead c (splitOn separates cs)

theorem consHead_ne_nil (c : Char) (pieces : List (List Char)) : consHead c pieces ≠ [] := by
  cases pieces <;> simp [consHead]

theorem splitOutside_ne_nil (separates : Char → Bool) (quoted : Bool) (cs : List Char) :
    splitOutside separates quoted cs ≠ [] := by
  cases cs with
  | nil => simp [splitOutside]
  | cons c cs =>
    unfold splitOutside
    split
    · exact consHead_ne_nil _ _
    · split
      · simp
      · exact consHead_ne_nil _ _

theorem splitOn_ne_nil (separates : Char → Bool) (cs : List Char) :
    splitOn separates cs ≠ [] := by
  cases cs with
  | nil => simp [splitOn]
  | cons c cs =>
    unfold splitOn
    split
    · simp
    · exact consHead_ne_nil _ _

end WordMachine.Text
