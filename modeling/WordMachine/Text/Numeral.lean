import WordMachine.Text.Padding

/-!
# Numerals

Unsigned numerals in a base, read digit by digit and written with upper-case digits, and the two
written forms of an integer: signed decimal, and signed hexadecimal filled up with zeros. Decimal
numerals have a limited number of digits where a user's numbers are read and written; leading zeros
count, a sign does not, and hexadecimal numerals have no limit.

## Main definitions

* `digitValue?`, `read?`: the value of a digit and of a numeral
* `digits`: the numeral of a number
* `decimal`, `hexadecimal`: the written forms of an integer
* `maxDigits`, `exceedsLimit`: the limit, and whether a number of digits exceeds it
* `isUnwritable`: whether an integer has more decimal digits than can be written
-/

namespace WordMachine.Numeral

/-- The value of an ASCII digit or letter: letters continue after nine, in either case. -/
def digitValue? (c : Char) : Option Nat :=
  if '0' ≤ c ∧ c ≤ '9' then some (c.toNat - 48)
  else if 'A' ≤ c ∧ c ≤ 'Z' then some (c.toNat - 55)
  else if 'a' ≤ c ∧ c ≤ 'z' then some (c.toNat - 87)
  else none

/-- The value of a digit of a base. -/
def digit? (base : Nat) (c : Char) : Option Nat :=
  (digitValue? c).filter (· < base)

/-- The number that results when digits are written behind a number. -/
def readFrom (base : Nat) (n : Nat) : List Char → Option Nat
  | [] => some n
  | c :: cs => (digit? base c).bind fun d => readFrom base (n * base + d) cs

/-- The value of a numeral: one digit or more, and nothing else. -/
def read? (base : Nat) (cs : List Char) : Option Nat :=
  if cs.isEmpty then none else readFrom base 0 cs

/-- The digits of a number, letters in upper case. -/
def digits (base n : Nat) : List Char :=
  (Nat.toDigits base n).map Char.toUpper

/-- An integer in decimal, with a minus sign if it is negative. -/
def decimal (n : Int) : String :=
  (if n < 0 then "-" else "") ++ String.ofList (digits 10 n.natAbs)

/-- An integer in hexadecimal: sign, zeros, digits, at least `width` characters in all. -/
def hexadecimal (width : Nat) (n : Int) : String :=
  let magnitude := String.ofList (digits 16 n.natAbs)
  if n < 0 then "-" ++ Text.padStart (width - 1) '0' magnitude
  else Text.padStart width '0' magnitude

/-! ## The limit -/

/-- The most decimal digits with which an integer can be read or written. -/
def maxDigits : Nat := 4300

/-- Whether a numeral in a base has more digits than can be read. -/
def exceedsLimit (base count : Nat) : Bool :=
  base = 10 && maxDigits < count

/-- Whether an integer has more decimal digits than can be written. -/
def isUnwritable (n : Int) : Bool :=
  exceedsLimit 10 (digits 10 n.natAbs).length

/-- What is reported for a decimal numeral with more digits than can be read. -/
def unreadableText (count : Nat) : String :=
  "Exceeds the limit (" ++ decimal maxDigits ++
    " digits) for integer string conversion: value has " ++ decimal count ++
    " digits; use sys.set_int_max_str_digits() to increase the limit"

/-- What is reported for an integer with more decimal digits than can be written. -/
def unwritableText : String :=
  "Exceeds the limit (" ++ decimal maxDigits ++
    " digits) for integer string conversion; use sys.set_int_max_str_digits() to increase the limit"

/-! ## Reading in parts -/

@[simp] theorem read?_nil (base : Nat) : read? base [] = none := rfl

theorem readFrom_append (base n : Nat) (cs ds : List Char) :
    readFrom base n (cs ++ ds) = (readFrom base n cs).bind fun m => readFrom base m ds := by
  induction cs generalizing n with
  | nil => rfl
  | cons c cs ih =>
    simp only [List.cons_append, readFrom]
    cases digit? base c with
    | none => rfl
    | some d => simpa using ih _

example : decimal (-70) = "-70" := by decide

example : hexadecimal 4 (-4) = "-004" := by decide

example : hexadecimal 4 70000 = "11170" := by decide

end WordMachine.Numeral
