import WordMachine.Instruction
import WordMachine.Machine.Fault
import WordMachine.Registers

/-!
# The core

The core of the machine is its memory and its registers. Here are the operands of the instruction
at the program counter, and what the instructions other than the supervisor call do. An
instruction that fails has changed nothing.

## Main definitions

* `Core`: memory and registers
* `Core.effectiveAddress`: the address of a memory operand
* `Action`: what an instruction does
* `Action.run`: the core after an instruction, with the number of words to go on by
-/

namespace WordMachine

/-- Memory and registers. -/
structure Core where
  /-- The memory. -/
  memory : Memory := ∅
  /-- The registers. -/
  registers : Registers := {}
deriving DecidableEq, Inhabited

namespace Core

/-- The word at the program counter. -/
def word (c : Core) : Int :=
  c.memory.read c.registers.counter

/-- The operation code at the program counter. -/
def opcode (c : Core) : Nat :=
  Word.opcode c.word

/-- The first register field at the program counter. -/
def first (c : Core) : Nat :=
  Word.first c.word

/-- The second field at the program counter. -/
def second (c : Core) : Nat :=
  Word.second c.word

/-- The word behind the program counter: the address as it is written. -/
def addressWord (c : Core) : Int :=
  c.memory.read (c.registers.counter + 1)

/-- The contents of a general register. -/
def register (c : Core) (index : Int) : Except Fault Int :=
  match c.registers.get? index with
  | some w => .ok w
  | none => .error (.invalidRegister index)

/-- The core with a general register set. -/
def setRegister (c : Core) (index : Int) (w : Int) : Except Fault Core :=
  match c.registers.set? index w with
  | some registers => .ok { c with registers }
  | none => .error (.invalidRegister index)

/-- The address of a memory operand: the address as it is written, plus the contents of the index
register unless the field for it is zero. -/
def effectiveAddress (c : Core) : Except Fault Int :=
  if c.second = 0 then .ok c.addressWord
  else do
    let x ← c.register c.second
    return c.addressWord + x

/-- The core with the flags that summarise a result. -/
def withFlags (c : Core) (result : Int) : Core :=
  { c with registers := { c.registers with flags := Flags.ofResult result } }

/-- The core with the program counter set. -/
def withCounter (c : Core) (address : Int) : Core :=
  { c with registers := { c.registers with counter := address } }

/-- The core with a word written in memory. -/
def store (c : Core) (address w : Int) : Except Fault Core :=
  match c.memory.write address w with
  | .ok memory => .ok { c with memory }
  | .error e => .error (.negativeAddress e.address)

/-- The second operand: the second register in the register form, the word at the effective address
in the address form. -/
def secondOperand (c : Core) : Form → Except Fault Int
  | .register => c.register c.second
  | .address => do
    let a ← c.effectiveAddress
    return c.memory.read a

end Core

/-- The operations on two words. -/
inductive Arithmetic where
  | add | subtract | and | or | xor
deriving DecidableEq, Repr

/-- The result of an operation on two words, without a bound. -/
def Arithmetic.eval : Arithmetic → Int → Int → Int
  | add, v, w => v + w
  | subtract, v, w => v - w
  | and, v, w => Word.and v w
  | or, v, w => Word.or v w
  | xor, v, w => Word.xor v w

/-- The conditions of jumps. -/
inductive Condition where
  | always | zero | nonzero | negative | positive
deriving DecidableEq, Repr

/-- Whether a condition holds by the flags. -/
def Condition.holds : Condition → Flags → Bool
  | always, _ => true
  | zero, f => f.isZero
  | nonzero, f => !f.isZero
  | negative, f => f.isNegative
  | positive, f => !f.isNegative && !f.isZero

/-- What an instruction other than the supervisor call does. -/
inductive Action where
  /-- Nothing. -/
  | nothing
  /-- Loads a word into a register. -/
  | load (form : Form)
  /-- Stores a register in memory. -/
  | store
  /-- Loads an address into a register. -/
  | loadAddress
  /-- Combines a register with a word. -/
  | compute (operation : Arithmetic) (form : Form)
  /-- Compares a register with a word. -/
  | compare (form : Form)
  /-- Goes on at another address under a condition. -/
  | jump (condition : Condition)
deriving DecidableEq, Repr

/-- The core after an action, and the number of words by which to go on; zero if the action has set
the program counter. -/
def Action.run (c : Core) : Action → Except Fault (Core × Nat)
  | nothing => .ok (c, 1)
  | load form => do
    let w ← c.secondOperand form
    let c ← c.setRegister c.first w
    return (c.withFlags w, form.length)
  | store => do
    let a ← c.effectiveAddress
    let w ← c.register c.first
    let c ← c.store a w
    return (c, 2)
  | loadAddress => do
    let a ← c.effectiveAddress
    let c ← c.setRegister c.first a
    return (c, 2)
  | compute operation form => do
    let v ← c.register c.first
    let w ← c.secondOperand form
    let result := operation.eval v w
    let c ← c.setRegister c.first result
    return (c.withFlags result, form.length)
  | compare form => do
    let v ← c.register c.first
    let w ← c.secondOperand form
    return (c.withFlags (v - w), form.length)
  | jump condition =>
    if condition.holds c.registers.flags then do
      let a ← c.effectiveAddress
      return (c.withCounter a, 0)
    else .ok (c, 2)

end WordMachine
