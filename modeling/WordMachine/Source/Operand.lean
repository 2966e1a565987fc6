import WordMachine.Text.Numeral

/-!
# Operands

The spellings of the operands: registers, numbers and characters. All other operands are labels
or literals, which the assembler looks up. A spelling keeps its meaning when one line feed follows
it. A decimal number with too many digits cannot be read: it is neither a number nor anything else.

## Main definitions

* `Operand.register?`: the number of a general register
* `Operand.isRegisterLike`: whether an operand is spelled like a register, existing or not
* `Operand.overlong?`: the number of digits of a decimal number that has too many of them
* `Operand.number?`: the value of a decimal or hexadecimal number
* `Operand.constant?`: the word of a number, read as sixteen bits with a sign if it is hexadecimal,
  or of a quoted character
-/

namespace WordMachine.Operand

/-- A text without one line feed at its end. -/
def dropFinalNewline (cs : List Char) : List Char :=
  match cs.getLast? with
  | some '\n' => cs.dropLast
  | _ => cs

/-- The characters that spell an operand. -/
def spelling (s : String) : List Char :=
  dropFinalNewline s.toList

/-- An ASCII decimal digit. -/
def isDigit (c : Char) : Bool :=
  '0' ≤ c && c ≤ '9'

/-- The number of the general register that an operand names. -/
def register? (s : String) : Option (Fin 8) :=
  match spelling s with
  | ['G', 'R', c] => ((List.finRange 8).find? fun i => Nat.digitChar i == c)
  | _ => none

/-- Whether an operand is spelled like a register: such a name is never a label. -/
def isRegisterLike (s : String) : Bool :=
  match spelling s with
  | 'G' :: 'R' :: cs => !cs.isEmpty && cs.all isDigit
  | _ => false

/-- The value of a decimal number, with a minus sign or without a sign. -/
def decimal? : List Char → Option Int
  | '-' :: cs => (Numeral.read? 10 cs).map fun n => -(n : Int)
  | cs => (Numeral.read? 10 cs).map fun n => (n : Int)

/-- The value of a hexadecimal number: a number sign and one to four digits. -/
def hexadecimal? : List Char → Option Int
  | '#' :: cs => if cs.length ≤ 4 then (Numeral.read? 16 cs).map fun n => (n : Int) else none
  | _ => none

/-- A text without a minus sign in front. -/
def dropMinus : List Char → List Char
  | '-' :: cs => cs
  | cs => cs

/-- The number of digits of a decimal number that has more of them than can be read. -/
def overlong? (s : String) : Option Nat :=
  let digits := dropMinus (spelling s)
  if digits.all isDigit && Numeral.exceedsLimit 10 digits.length then some digits.length else none

/-- The value of an operand that is a number and can be read. -/
def number? (s : String) : Option Int :=
  if (overlong? s).isSome then none else (decimal? (spelling s)).or (hexadecimal? (spelling s))

/-- The code of a character between apostrophes; a line feed is no such character. -/
def character? (s : String) : Option Int :=
  match spelling s with
  | ['\'', c, '\''] => if c = '\n' then none else some c.toNat
  | _ => none

/-- Whether an operand starts with a character. -/
def startsWith (s : String) (c : Char) : Bool :=
  s.toList.head? == some c

/-- The word with the low sixteen bits of a hexadecimal constant: from `#8000` on it is negative. -/
def signed (n : Int) : Int :=
  if 0x8000 ≤ n then n - 0x10000 else n

/-- The word of a constant: a number, whose sixteen bits carry a sign if it is written in
hexadecimal, or the code of a character. -/
def constant? (s : String) : Option Int :=
  match number? s with
  | some n => some (if startsWith s '#' then signed n else n)
  | none => character? s

example : register? "GR7" = some 7 := by decide

example : register? "GR8" = none := by decide

example : constant? "#FFFF" = some (-1) := by decide

example : number? "#FFFF\n" = some 65535 := by decide

example : constant? "';'" = some 59 := by decide

end WordMachine.Operand
