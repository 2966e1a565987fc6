import WordMachine.Text.CaseTable

/-!
# Upper case

Mnemonics are read in either case: a text is put into upper case letter by letter. One letter may
become several, and what has no upper case is kept.

## Main definitions

* `upperChar`: the upper case of one character
* `upper`: the upper case of a string
-/

namespace WordMachine.Text

/-- The upper case of a character beyond ASCII. -/
def upperBeyondAscii (c : Char) : List Char :=
  match caseExpansions.lookup c.toNat with
  | some letters => letters.map Char.ofNat
  | none =>
    match caseRuns.find? (·.contains c.toNat) with
    | some run => [Char.ofNat (c.toNat + run.shift).toNat]
    | none => [c]

/-- The upper case of a character. -/
def upperChar (c : Char) : List Char :=
  if c.toNat < 0x80 then [c.toUpper] else upperBeyondAscii c

/-- The upper case of a string. -/
def upper (s : String) : String :=
  String.ofList (s.toList.flatMap upperChar)

/-- An ASCII character has an upper case of one character. -/
theorem upperChar_of_lt {c : Char} (h : c.toNat < 0x80) : upperChar c = [c.toUpper] := by
  simp [upperChar, h]

example : upper "ldß" = "LDSS" := by decide

example : upper "ﬃჷ" = "FFIᲷ" := by decide

end WordMachine.Text
