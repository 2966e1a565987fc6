import WordMachine.Text.Blank
import WordMachine.Text.DecimalDigit
import WordMachine.Text.Numeral

/-!
# Integers as a user writes them

Option values are read generously: blanks around the integer are ignored, one sign may stand in
front, hexadecimal may carry its usual mark, single underscores may part the digits, and the
decimal digits of every script count. Underscores do not count for the limit of decimal numerals.

## Main definitions

* `read?`: the integer that a text denotes in a base
* `readOption?`: the integer of an option value, in decimal or in one of two hexadecimal notations
-/

namespace WordMachine.IntegerText

/-- A text in ASCII as far as integers go: digits of other scripts become ASCII digits, blanks
beyond ASCII become spaces, and any other character beyond ASCII spoils the text. -/
def toAscii (c : Char) : Char :=
  if c.toNat < 0x7F then c
  else if Text.isBlank c then ' '
  else
    match Text.decimalDigit? c with
    | some d => Char.ofNat (48 + d)
    | none => '?'

/-- The ASCII blanks around an integer. -/
def isMargin (c : Char) : Bool :=
  c == ' ' || (0x09 ≤ c.toNat && c.toNat ≤ 0x0D)

/-- A text without the blanks at its ends. -/
def dropMargins (cs : List Char) : List Char :=
  ((cs.dropWhile isMargin).reverse.dropWhile isMargin).reverse

/-- The number that results when digits, parted by single underscores, are written behind a
number. -/
def readGrouped (base : Nat) (n : Nat) : List Char → Option Nat
  | [] => some n
  | '_' :: c :: cs => (Numeral.digit? base c).bind fun d => readGrouped base (n * base + d) cs
  | c :: cs => (Numeral.digit? base c).bind fun d => readGrouped base (n * base + d) cs

/-- The value of an unsigned numeral with single underscores between its digits. -/
def readMagnitude? (base : Nat) : List Char → Option Nat
  | [] => none
  | c :: cs => (Numeral.digit? base c).bind fun d => readGrouped base d cs

/-- A hexadecimal numeral without its mark and the one underscore that may follow the mark. -/
def dropMark : List Char → List Char
  | '0' :: 'x' :: '_' :: cs => cs
  | '0' :: 'X' :: '_' :: cs => cs
  | '0' :: 'x' :: cs => cs
  | '0' :: 'X' :: cs => cs
  | cs => cs

/-- The value of an unsigned numeral, unless it has too many digits; base sixteen admits its
mark. -/
def readUnsigned? (base : Nat) (cs : List Char) : Option Nat :=
  let numeral := if base = 16 then dropMark cs else cs
  if Numeral.exceedsLimit base (numeral.countP (· ≠ '_')) then none
  else readMagnitude? base numeral

/-- The integer that a text denotes in a base. -/
def read? (base : Nat) (cs : List Char) : Option Int :=
  match dropMargins (cs.map toAscii) with
  | '-' :: ds => (readUnsigned? base ds).map fun n => -(n : Int)
  | '+' :: ds => (readUnsigned? base ds).map fun n => (n : Int)
  | ds => (readUnsigned? base ds).map fun n => (n : Int)

/-- The integer of an option value: hexadecimal behind a zero and an `x` or behind a number sign,
otherwise decimal. -/
def readOption? (s : String) : Option Int :=
  match Text.trim s.toList with
  | '#' :: cs => read? 16 cs
  | '0' :: 'x' :: cs => read? 16 ('0' :: 'x' :: cs)
  | '0' :: 'X' :: cs => read? 16 ('0' :: 'X' :: cs)
  | cs => read? 10 cs

example : readOption? " -1_0 " = some (-10) := by decide

example : readOption? "#-0x_1f" = some (-31) := by decide

example : readOption? "٤٢" = some 42 := by decide

example : readOption? "1__0" = none := by decide

end WordMachine.IntegerText
