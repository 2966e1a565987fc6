import WordMachine.Word

/-!
# Instructions

The instructions of the machine by name. An instruction has one or both of two forms: the register
form, one word with two registers, and the address form, one word with a register and an index
register and a second word with an address. Each form of an instruction has an operation code of
its own.

## Main definitions

* `Mnemonic`: the instructions, with `Mnemonic.name` and `Mnemonic.ofName?`
* `Form`: the two forms, with `Form.length`
* `Mnemonic.opcode?`: the operation code of a form of an instruction
* `Mnemonic.ofOpcode?`: the instruction that an operation code belongs to
* `instructionTable`: all forms of all instructions

## Main results

* `Mnemonic.ofName?_name`: an instruction is found by its name
* `Mnemonic.ofOpcode?_eq_some_iff`: an operation code belongs to one instruction
-/

namespace WordMachine

/-- The instructions of the machine. -/
inductive Mnemonic where
  | nop | ld | st | lad | adda | suba | and | or | xor | cpa
  | jmi | jnz | jze | jump | jpl | ret | svc
deriving DecidableEq, Repr

/-- The forms of an instruction. -/
inductive Form where
  /-- One word, with two registers. -/
  | register
  /-- Two words, with an address in the second. -/
  | address
deriving DecidableEq, Repr

/-- The number of words of a form. The supervisor call has one more. -/
def Form.length : Form → Nat
  | .register => 1
  | .address => 2

namespace Mnemonic

/-- All instructions. -/
def all : List Mnemonic :=
  [.nop, .ld, .st, .lad, .adda, .suba, .and, .or, .xor, .cpa,
    .jmi, .jnz, .jze, .jump, .jpl, .ret, .svc]

/-- The name of an instruction. -/
def name : Mnemonic → String
  | .nop => "NOP"
  | .ld => "LD"
  | .st => "ST"
  | .lad => "LAD"
  | .adda => "ADDA"
  | .suba => "SUBA"
  | .and => "AND"
  | .or => "OR"
  | .xor => "XOR"
  | .cpa => "CPA"
  | .jmi => "JMI"
  | .jnz => "JNZ"
  | .jze => "JZE"
  | .jump => "JUMP"
  | .jpl => "JPL"
  | .ret => "RET"
  | .svc => "SVC"

/-- The instruction with a name. -/
def ofName? (s : String) : Option Mnemonic :=
  all.find? (·.name == s)

/-- The operation code of a form of an instruction. -/
def opcode? : Mnemonic → Form → Option Nat
  | .nop, .register => some 0x00
  | .ld, .register => some 0x14
  | .ld, .address => some 0x10
  | .st, .address => some 0x11
  | .lad, .address => some 0x12
  | .adda, .register => some 0x24
  | .adda, .address => some 0x20
  | .suba, .register => some 0x25
  | .suba, .address => some 0x21
  | .and, .register => some 0x34
  | .and, .address => some 0x30
  | .or, .register => some 0x35
  | .or, .address => some 0x31
  | .xor, .register => some 0x36
  | .xor, .address => some 0x32
  | .cpa, .register => some 0x44
  | .cpa, .address => some 0x40
  | .jmi, .address => some 0x61
  | .jnz, .address => some 0x62
  | .jze, .address => some 0x63
  | .jump, .address => some 0x64
  | .jpl, .address => some 0x65
  | .ret, .register => some 0x81
  | .svc, .address => some 0xF0
  | _, _ => none

/-- The instructions whose first operand is an address: the jumps. -/
def addressFirst : List Mnemonic :=
  [.jmi, .jnz, .jze, .jump, .jpl]

/-- Whether the first operand of an instruction is an address and no register. -/
def takesAddressFirst (m : Mnemonic) : Bool :=
  addressFirst.contains m

/-- Whether an operation code is one of an instruction's. -/
def hasOpcode (m : Mnemonic) (opcode : Nat) : Bool :=
  m.opcode? .register == some opcode || m.opcode? .address == some opcode

/-- The instruction that an operation code belongs to. -/
def ofOpcode? (opcode : Nat) : Option Mnemonic :=
  all.find? (·.hasOpcode opcode)

theorem mem_all (m : Mnemonic) : m ∈ all := by
  cases m <;> decide

/-- An instruction is found by its name. -/
@[simp] theorem ofName?_name (m : Mnemonic) : ofName? m.name = some m := by
  cases m <;> decide

theorem ofOpcode?_of_hasOpcode {m : Mnemonic} {opcode : Nat} (h : m.hasOpcode opcode = true) :
    ofOpcode? opcode = some m := by
  have h : m.opcode? .register = some opcode ∨ m.opcode? .address = some opcode := by
    simpa [hasOpcode] using h
  cases m <;> simp only [opcode?, Option.some.injEq, reduceCtorEq, or_false, false_or] at h <;>
    first
      | (subst h; decide)
      | (rcases h with h | h <;> subst h <;> decide)

/-- An operation code belongs to one instruction. -/
theorem ofOpcode?_eq_some_iff {m : Mnemonic} {opcode : Nat} :
    ofOpcode? opcode = some m ↔ m.hasOpcode opcode = true :=
  ⟨fun h => by
    have found := List.find?_some (l := all) (p := fun m => hasOpcode m opcode) h
    exact found, ofOpcode?_of_hasOpcode⟩

end Mnemonic

/-- All forms of all instructions with their operation codes. -/
def instructionTable : List (Mnemonic × Form × Nat) :=
  Mnemonic.all.flatMap fun m =>
    [Form.register, Form.address].filterMap fun form =>
      (m.opcode? form).map fun opcode => (m, form, opcode)

/-- The operation code of the instruction that ends a program. -/
def returnOpcode : Nat := 0x81

/-- The operation code of the supervisor call. -/
def supervisorOpcode : Nat := 0xF0

/-- The sub-type of the supervisor call that takes a line of input. -/
def inputSubtype : Nat := 1

/-- The sub-type of the supervisor call that puts out a text. -/
def outputSubtype : Nat := 2

/-- What the user is shown when a line of input is due. -/
def inputPrompt : String := "[debug] enter a line of text"

end WordMachine
