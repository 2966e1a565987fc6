import WordMachine.Text.Quoted

/-!
# Lines

A text is a sequence of lines that end at line feeds. Files may end their lines in two more ways,
which are first brought to line feeds.

## Main definitions

* `Text.unifyLineEnds`: a text whose lines all end at line feeds
* `Text.pieces`: the stretches of a text between its line feeds
* `Text.takeLine`, `Text.lines`: the first line of a text that is read line by line, and all of them

## Main results

* `Text.takeLine_fst`, `Text.lines_takeLine`: reading a line leaves the lines behind it
-/

namespace WordMachine.Text

/-- A text whose lines all end at line feeds: a carriage return, alone or with a line feed behind
it, becomes a line feed. -/
def unifyLineEnds : List Char → List Char
  | '\r' :: '\n' :: cs => '\n' :: unifyLineEnds cs
  | '\r' :: cs => '\n' :: unifyLineEnds cs
  | c :: cs => c :: unifyLineEnds cs
  | [] => []

/-- A text without carriage returns is kept. -/
theorem unifyLineEnds_eq_self {cs : List Char} (h : '\r' ∉ cs) : unifyLineEnds cs = cs := by
  induction cs with
  | nil => rfl
  | cons c cs ih =>
    rw [List.mem_cons, not_or] at h
    rw [unifyLineEnds, ih h.2]
    · rintro ds rfl
      exact absurd rfl h.1
    · rintro rfl
      exact absurd rfl h.1

/-- The stretches of a text between its line feeds; behind the last line feed there is one more. -/
def pieces (s : String) : List String :=
  (splitOn (· == '\n') s.toList).map String.ofList

/-- The first line of a text, without its line feed, and the text behind it. -/
def takeLine : List Char → List Char × List Char
  | [] => ([], [])
  | c :: cs =>
    if c = '\n' then ([], cs)
    else
      let (line, rest) := takeLine cs
      (c :: line, rest)

/-- The lines of a text that is read line by line: a line feed at the end opens no further line. -/
def lines (cs : List Char) : List (List Char) :=
  match (splitOn (· == '\n') cs).reverse with
  | [] :: ends => ends.reverse
  | ends => ends.reverse

theorem splitOn_reverse_ne_nil (separates : Char → Bool) (cs : List Char) :
    (splitOn separates cs).reverse ≠ [] := by
  simp [splitOn_ne_nil]

@[simp] theorem lines_nil : lines [] = [] := rfl

/-- A text that begins with a line feed has an empty first line. -/
theorem lines_cons_newline (cs : List Char) : lines ('\n' :: cs) = [] :: lines cs := by
  have hsplit : splitOn (· == '\n') ('\n' :: cs) = [] :: splitOn (· == '\n') cs := rfl
  rw [lines, lines, hsplit, List.reverse_cons]
  cases h : (splitOn (· == '\n') cs).reverse with
  | nil => exact absurd h (splitOn_reverse_ne_nil _ _)
  | cons last ends =>
    cases last with
    | nil => simp
    | cons d ds => simp

/-- Any other character belongs to the first line. -/
theorem lines_cons_of_ne {c : Char} (h : c ≠ '\n') (cs : List Char) :
    lines (c :: cs) = consHead c (lines cs) := by
  have hsplit : splitOn (· == '\n') (c :: cs) = consHead c (splitOn (· == '\n') cs) := by
    simp [splitOn, h]
  rw [lines, lines, hsplit]
  cases hs : splitOn (· == '\n') cs with
  | nil => exact absurd hs (splitOn_ne_nil _ _)
  | cons piece pieces =>
    rw [consHead, List.reverse_cons, List.reverse_cons]
    cases hp : pieces.reverse with
    | nil => cases piece <;> simp [consHead]
    | cons last ends => cases last <;> simp [consHead]

/-- The line that is read first is the first one, and it is empty behind the end of the text. -/
theorem takeLine_fst (cs : List Char) : (takeLine cs).1 = (lines cs).headD [] := by
  induction cs with
  | nil => rfl
  | cons c cs ih =>
    rw [takeLine]
    split
    · next h => rw [h, lines_cons_newline, List.headD_cons]
    · next h =>
      change c :: (takeLine cs).1 = _
      rw [lines_cons_of_ne h, ih]
      cases lines cs <;> rfl

/-- What is left behind the first line are the other lines. -/
theorem lines_takeLine (cs : List Char) : lines (takeLine cs).2 = (lines cs).tail := by
  induction cs with
  | nil => rfl
  | cons c cs ih =>
    rw [takeLine]
    split
    · next h => rw [h, lines_cons_newline, List.tail_cons]
    · next h =>
      change lines (takeLine cs).2 = _
      rw [lines_cons_of_ne h, ih]
      cases lines cs <;> rfl

example : lines "a\n\nb".toList = [['a'], [], ['b']] := by decide

example : lines "a\n".toList = [['a']] := by decide

example : lines "".toList = [] := by decide

end WordMachine.Text
