import WordMachine.Source.Row
import WordMachine.Text.Line

/-!
# Statements

A line of a program holds one statement, or none. A label starts in the first column; then come a
mnemonic and an operand field, parted by blanks. Operands are parted by commas, and a semicolon
starts a comment. Inside quotes, blanks, commas and semicolons are ordinary characters.

## Main definitions

* `splitOperands`: the operands of an operand field
* `readStatement`: the row of a line, if the line holds a statement
* `readSource`: the rows of a program text
-/

namespace WordMachine

/-- A line without its comment. -/
def withoutComment (line : List Char) : List Char :=
  (Text.splitOutside (· == ';') false line).headD []

/-- The fields of a line: the stretches between blanks outside quotes. -/
def splitFields (line : List Char) : List String :=
  ((Text.splitOutside Text.isBlank false line).filter (· ≠ [])).map String.ofList

/-- The operands of an operand field: the stretches between commas outside quotes. -/
def splitOperands (field : String) : List String :=
  (Text.splitOutside (· == ',') false field.toList).map String.ofList

/-- Whether an operand names a register, in either case. -/
def namesRegister (operand : String) : Bool :=
  match operand.toList with
  | g :: r :: digits => g.toUpper == 'G' && r.toUpper == 'R' && !digits.isEmpty &&
      digits.all Char.isDigit
  | _ => false

/-- An operand with the spelling of a register in upper case. -/
def normalOperand (operand : String) : String :=
  if namesRegister operand then Text.upper operand else operand

/-- The row of a line with given fields. -/
def rowOfFields (label : String) : List String → Row
  | [] => { label }
  | [mnemonic] => { label, mnemonic := Text.upper mnemonic }
  | mnemonic :: field :: _ =>
    { label, mnemonic := Text.upper mnemonic, operands := (splitOperands field).map normalOperand }

/-- The row of a line, with its number among the lines. A blank line and a line that is all comment
hold no statement. -/
def readStatement (line : String) (number : Int := 0) : Except Diagnostic (Option Row) :=
  let text := Text.trimEnd (withoutComment line.toList)
  match text with
  | [] => .ok none
  | c :: _ =>
    let row :=
      if Text.isBlank c then rowOfFields "" (splitFields text)
      else
        match splitFields text with
        | [] => {}
        | label :: fields => rowOfFields label fields
    if row.operands.length ≤ maxOperands then .ok (some row)
    else .error ⟨.tooManyOperands row.operands.length, number, line⟩

/-- The rows of lines that are numbered from a number on. -/
def readLines (number : Int) : List String → Except Diagnostic (List Row)
  | [] => .ok []
  | line :: lines => do
    let row? ← readStatement line number
    let rows ← readLines (number + 1) lines
    return row?.toList ++ rows

/-- The rows of a program text. -/
def readSource (source : String) : Except Diagnostic (List Row) :=
  readLines 1 (Text.pieces source)

end WordMachine
