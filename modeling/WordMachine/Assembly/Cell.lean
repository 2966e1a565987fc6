import WordMachine.Source.Diagnostic
import WordMachine.Source.Operand

/-!
# Cells

The object code of a program is a sequence of cells, one for each word. A cell holds its word, or
the symbol whose address is put into it once all addresses are known.

## Main definitions

* `Cell`: one word of object code
* `Cell.symbol?`, `Cell.placeholder`: the symbol that a cell waits for, and the word it holds until
  then
* `Operand.readable`: what comes of an operand that is no overlong number
* `Cell.ofAddress`: the cell of an operand that stands for an address
-/

namespace WordMachine

/-- What comes of an operand, unless it is a number with more digits than can be read. -/
def Operand.readable {α : Type} (s : String) (x : Except Complaint α) : Except Complaint α :=
  match overlong? s with
  | some digits => .error (.overlongNumber digits)
  | none => x

theorem Operand.readable_of_none {α : Type} {s : String} (h : overlong? s = none)
    (x : Except Complaint α) : readable s x = x := by
  simp only [readable, h]

/-- What an operand comes to was what comes of it, and the operand could be read. -/
theorem Operand.readable_eq_ok_iff {α : Type} {s : String} {x : Except Complaint α} {a : α} :
    readable s x = .ok a ↔ overlong? s = none ∧ x = .ok a := by
  unfold readable
  split <;> simp [*]

theorem Operand.readable_of_some {α : Type} {s : String} {digits : Nat}
    (h : overlong? s = some digits) (x : Except Complaint α) :
    readable s x = .error (.overlongNumber digits) := by
  simp only [readable, h]

/-- One word of object code. -/
inductive Cell where
  /-- A word that is known. -/
  | word (value : Int)
  /-- The address of a label. -/
  | label (name : String)
  /-- The address of a pool word that holds the value of a literal. -/
  | literal (token : String) (value : Int)
deriving DecidableEq, Repr

namespace Cell

/-- The symbol that a cell waits for. -/
def symbol? : Cell → Option String
  | word _ => none
  | label name => some name
  | literal token _ => some token

/-- The word that a cell holds before its symbol is resolved. -/
def placeholder : Cell → Int
  | word value => value
  | label _ => 0
  | literal _ _ => 0

/-- The cell of an operand that stands for an address: a literal, a number, or else a label. -/
def ofAddress (operand : String) : Except Complaint Cell :=
  if Operand.startsWith operand '=' then
    let content := String.ofList operand.toList.tail
    Operand.readable content <|
      match Operand.constant? content with
      | some value => .ok (.literal operand value)
      | none => .error (.badLiteral operand)
  else
    Operand.readable operand <|
      match Operand.number? operand with
      | some n => .ok (.word n)
      | none =>
        if Operand.startsWith operand '\'' || Operand.isRegisterLike operand then
          .error (.notAnAddress operand)
        else .ok (.label operand)

end Cell

end WordMachine
