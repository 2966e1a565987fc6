import WordMachine.Source.Diagnostic
import WordMachine.Text.Blank
import WordMachine.Text.Padding
import WordMachine.Text.UpperCase

/-!
# Rows

A row is a statement of a program, taken apart into its fields: a label, a mnemonic and operands.
A field that is left out is empty. A row is printed in columns.

## Main definitions

* `Row`: a statement's fields, with `Row.ofFields` and `Row.fields`
* `Row.name`, `Row.given`: the mnemonic in upper case, and the operands that are not empty
* `Row.text`: the printed row
-/

namespace WordMachine

/-- The number of operands that a row has room for. -/
def maxOperands : Nat := 3

/-- A statement, taken apart into its fields. -/
structure Row where
  /-- The label that the statement defines; empty if it defines none. -/
  label : String := ""
  /-- What the statement does; empty if it only defines a label. -/
  mnemonic : String := ""
  /-- What the statement does it with. -/
  operands : List String := []
deriving DecidableEq, Repr, Inhabited

namespace Row

/-- The row with given fields; fields that are left out are empty. -/
def ofFields : List String → Row
  | [] => {}
  | [label] => { label }
  | label :: mnemonic :: operands => { label, mnemonic, operands }

/-- The fields of a row, with empty operands up to three. -/
def fields (r : Row) : List String :=
  r.label :: r.mnemonic :: (r.operands ++ List.replicate (maxOperands - r.operands.length) "")

/-- The name of what a row does. -/
def name (r : Row) : String :=
  Text.upper r.mnemonic

/-- The operands of a row: those among its first three operand fields that are not empty. -/
def given (r : Row) : List String :=
  (r.operands.take maxOperands).filter (· ≠ "")

/-- A row in print: the label in a column of eight characters, the mnemonic in one of five, and the
operands between commas. -/
def text (r : Row) : String :=
  Text.trimStringEnd
    (Text.padEnd 8 r.label ++ " " ++ Text.padEnd 5 r.mnemonic ++ " " ++
      ",".intercalate (r.operands.filter (· ≠ "")))

example : text ⟨"MAIN", "LD", ["GR1", "", "X"]⟩ = "MAIN     LD    GR1,X" := by decide

example : text {} = "" := by decide

end Row

/-- The diagnostic of a complaint about the row with an index; lines are counted from one. A number
that cannot be read is reported without its line. -/
def Row.diagnostic (r : Row) (index : Int) (c : Complaint) : Diagnostic :=
  if c.kind = .number then { complaint := c } else ⟨c, index + 1, r.text⟩

theorem Row.diagnostic_of_number {c : Complaint} (h : c.kind = .number) (r : Row) (index : Int) :
    r.diagnostic index c = { complaint := c } :=
  if_pos h

theorem Row.diagnostic_of_ne {c : Complaint} (h : c.kind ≠ .number) (r : Row) (index : Int) :
    r.diagnostic index c = ⟨c, index + 1, r.text⟩ :=
  if_neg h

@[simp] theorem Row.complaint_diagnostic (r : Row) (index : Int) (c : Complaint) :
    (r.diagnostic index c).complaint = c := by
  unfold diagnostic
  split <;> rfl

end WordMachine
