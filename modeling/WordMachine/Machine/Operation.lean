import WordMachine.Machine.Core

/-!
# Operations

The machine looks up the operation of an instruction by its operation code. The standard table
follows the instruction table; the instruction that ends a program is not in it, because the
machine stops there by itself.

## Main definitions

* `Operation`: an action of the core, or the supervisor call
* `Mnemonic.operation?`: the operation of a form of an instruction
* `Dispatch`: a table of operations by operation code
* `Dispatch.standard`: the table that follows the instruction table
-/

namespace WordMachine

/-- What an instruction does. -/
inductive Operation where
  /-- An action of the core. -/
  | action (a : Action)
  /-- The supervisor call. -/
  | supervisor
deriving DecidableEq, Repr

/-- The operation of a form of an instruction. -/
def Mnemonic.operation? : Mnemonic → Form → Option Operation
  | .nop, _ => some (.action .nothing)
  | .ld, form => some (.action (.load form))
  | .st, _ => some (.action .store)
  | .lad, _ => some (.action .loadAddress)
  | .adda, form => some (.action (.compute .add form))
  | .suba, form => some (.action (.compute .subtract form))
  | .and, form => some (.action (.compute .and form))
  | .or, form => some (.action (.compute .or form))
  | .xor, form => some (.action (.compute .xor form))
  | .cpa, form => some (.action (.compare form))
  | .jmi, _ => some (.action (.jump .negative))
  | .jnz, _ => some (.action (.jump .nonzero))
  | .jze, _ => some (.action (.jump .zero))
  | .jump, _ => some (.action (.jump .always))
  | .jpl, _ => some (.action (.jump .positive))
  | .svc, _ => some .supervisor
  | .ret, _ => none

/-- A table of operations by operation code. -/
abbrev Dispatch : Type := Nat → Option Operation

namespace Dispatch

/-- The operation codes in the instruction table that have an operation, with their operations. -/
def card : List (Nat × Operation) :=
  instructionTable.filterMap fun (m, form, opcode) =>
    (m.operation? form).map fun operation => (opcode, operation)

/-- The table that follows the instruction table. -/
def standard : Dispatch := fun opcode =>
  card.lookup opcode

/-- The table with given operations; of two for one operation code the later counts. -/
def ofList (operations : List (Nat × Operation)) : Dispatch := fun opcode =>
  operations.reverse.lookup opcode

end Dispatch

end WordMachine
