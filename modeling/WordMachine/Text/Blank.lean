/-!
# Blank characters

A blank separates the fields of a line and is cut from the ends of a text. The class is that of
Unicode white space together with the four information separators.

## Main definitions

* `isBlank`: the class of blank characters
* `trimEnd`, `trim`: a text without the blanks at its end, or at both of its ends
-/

namespace WordMachine.Text

/-- The blank characters: tab to carriage return, the information separators, the space, and the
white space beyond ASCII. -/
def isBlank (c : Char) : Bool :=
  let n := c.toNat
  (0x09 ≤ n && n ≤ 0x0D) || (0x1C ≤ n && n ≤ 0x20) || n == 0x85 || n == 0xA0 || n == 0x1680 ||
    (0x2000 ≤ n && n ≤ 0x200A) || n == 0x2028 || n == 0x2029 || n == 0x202F || n == 0x205F ||
    n == 0x3000

/-- A text without the blanks at its end. -/
def trimEnd (cs : List Char) : List Char :=
  (cs.reverse.dropWhile isBlank).reverse

/-- A text without the blanks at its two ends. -/
def trim (cs : List Char) : List Char :=
  trimEnd (cs.dropWhile isBlank)

/-- A string without the blanks at its end. -/
def trimStringEnd (s : String) : String :=
  String.ofList (trimEnd s.toList)

@[simp] theorem trimEnd_nil : trimEnd [] = [] := rfl

@[simp] theorem trim_nil : trim [] = [] := rfl

/-- A blank at the end is cut. -/
theorem trimEnd_append_blank (cs : List Char) {c : Char} (h : isBlank c = true) :
    trimEnd (cs ++ [c]) = trimEnd cs := by
  simp [trimEnd, h]

/-- A text whose last character is no blank is kept whole. -/
theorem trimEnd_append_of_not_isBlank (cs : List Char) {c : Char} (h : isBlank c = false) :
    trimEnd (cs ++ [c]) = cs ++ [c] := by
  simp [trimEnd, h]

end WordMachine.Text
