import WordMachine.Assembly.Encoding
import WordMachine.Source.Row

/-!
# Object code of rows

A row stands for a directive of the assembler, a macro or an instruction, and makes a few cells of
object code. Each cell is checked on its own, in the order of the cells, so a row that is refused
may have made some cells before.

## Main definitions

* `Directive`: the directives and macros by name
* `Row.items`: what a row makes, each item a cell or the complaint that ends the row
-/

namespace WordMachine

/-- What a row makes: a cell, or the complaint for which the program is refused. -/
abbrev Item : Type := Except Complaint Cell

/-- The directives and macros. -/
inductive Directive where
  /-- Begins the program, and may name the label where it is entered. -/
  | start
  /-- Ends the program text. -/
  | finish
  /-- Defines a constant word. -/
  | constant
  /-- Reserves a word. -/
  | reserve
  /-- Takes a line of input. -/
  | input
  /-- Puts out a text. -/
  | output
  /-- Saves the registers; not supported. -/
  | push
  /-- Restores the registers; not supported. -/
  | pop
deriving DecidableEq, Repr

namespace Directive

/-- The directives of the assembler itself. -/
def pseudo : List Directive := [.start, .finish, .constant, .reserve]

/-- The macros that stand for supervisor calls. -/
def macros : List Directive := [.input, .output]

/-- The macros that are recognised and refused. -/
def refused : List Directive := [.push, .pop]

/-- All directives and macros. -/
def all : List Directive := pseudo ++ macros ++ refused

/-- The name of a directive. -/
def name : Directive → String
  | .start => "START"
  | .finish => "END"
  | .constant => "DC"
  | .reserve => "DS"
  | .input => "IN"
  | .output => "OUT"
  | .push => "RPUSH"
  | .pop => "RPOP"

/-- The directive with a name. -/
def ofName? (s : String) : Option Directive :=
  all.find? (·.name == s)

/-- The sub-type of the supervisor call that a macro stands for. -/
def subtype? : Directive → Option Nat
  | .input => some inputSubtype
  | .output => some outputSubtype
  | _ => none

theorem mem_all (d : Directive) : d ∈ all := by
  cases d <;> decide

/-- A directive is found by its name. -/
@[simp] theorem ofName?_name (d : Directive) : ofName? d.name = some d := by
  cases d <;> decide

end Directive

/-- The three cells of a supervisor call: its instruction word, the address of the characters and
the address of their number. -/
def callItems (subtype : Int) (buffer length : String) : List Item :=
  [.ok (.word (Word.encode supervisorOpcode 0 subtype)), Cell.ofAddress buffer,
    Cell.ofAddress length]

/-- The cell of a constant definition's operand. -/
def constantItem (operand : String) : Item :=
  Operand.readable operand <|
    match Operand.constant? operand with
    | some value => .ok (.word value)
    | none =>
      if Operand.startsWith operand '\'' then .error (.badString operand)
      else Cell.ofAddress operand

/-- What a directive makes of its operands. -/
def Directive.items (d : Directive) (operands : List String) : List Item :=
  match d with
  | .start | .finish => []
  | .constant =>
    match operands with
    | [operand] => [constantItem operand]
    | _ => [.error .expectedOneConstant]
  | .reserve => [.ok (.word 0)]
  | .input | .output =>
    match operands with
    | [buffer, length] => callItems (d.subtype?.getD 0) buffer length
    | _ => [.error (.expectedBuffer d.name)]
  | .push | .pop => [.error (.unsupported d.name)]

/-- The sub-type that an operand spells: a number of four bits. -/
def subtypeOf (operand : String) : Except Complaint Int :=
  Operand.readable operand <|
    match Operand.number? operand with
    | some subtype =>
      if 0 ≤ subtype ∧ subtype ≤ 15 then .ok subtype else .error (.badSubtype operand)
    | none => .error (.badSubtype operand)

/-- What a supervisor call makes of its operands: a sub-type and two addresses. -/
def supervisorItems : List String → List Item
  | [operand, buffer, length] =>
    match subtypeOf operand with
    | .ok subtype => callItems subtype buffer length
    | .error c => [.error c]
  | _ => [.error .expectedCall]

/-- What an instruction makes of its operands. -/
def Mnemonic.items (m : Mnemonic) (operands : List String) : List Item :=
  if m = .svc then supervisorItems operands
  else
    match m.encode operands with
    | .error c => [.error c]
    | .ok e => .ok (.word e.word) :: e.address.toList.map Cell.ofAddress

namespace Row

/-- The directive of a row. -/
def directive? (r : Row) : Option Directive :=
  Directive.ofName? r.name

/-- Whether a row is a directive or a macro. -/
def isDirective (r : Row) : Bool :=
  r.directive?.isSome

/-- Whether a row is an instruction of the machine. -/
def isInstruction (r : Row) : Bool :=
  (Mnemonic.ofName? r.name).isSome

/-- What a row makes. -/
def items (r : Row) : List Item :=
  if r.name = "" then []
  else
    match r.directive? with
    | some d => d.items r.given
    | none =>
      match Mnemonic.ofName? r.name with
      | some m => m.items r.given
      | none => [.error (.unknownMnemonic r.name)]

end Row

end WordMachine
