import WordMachine.Assembly.Cell

/-!
# Encoding of instructions

An instruction with its operands becomes an instruction word and, in the address form, an address
operand for a second word.

## Main definitions

* `Encoding`: an instruction word with its address operand
* `Mnemonic.encode`: the encoding of an instruction with its operands
* `encodeNamed`: the encoding of an instruction that is given by name
-/

namespace WordMachine

/-- An instruction word, and the operand for the word behind it if there is one. -/
structure Encoding where
  /-- The instruction word. -/
  word : Int
  /-- The address operand. -/
  address : Option String
deriving DecidableEq, Repr

namespace Mnemonic

/-- The registers of operands that are just two registers, unless the first operand of the
instruction is an address. -/
def registerPair? (m : Mnemonic) : List String → Option (Fin 8 × Fin 8)
  | [first, second] =>
    if m.takesAddressFirst then none
    else
      match Operand.register? first, Operand.register? second with
      | some r, some s => some (r, s)
      | _, _ => none
  | _ => none

/-- The register that operands start with, and the operands behind it; a jump has no such register
and takes the first register's number. -/
def leadingRegister (m : Mnemonic) (operands : List String) :
    Except Complaint (Fin 8 × List String) :=
  if m.takesAddressFirst then .ok (0, operands)
  else
    match operands.head?.bind Operand.register? with
    | some r => .ok (r, operands.tail)
    | none => .error (.firstOperandNotRegister m.name)

/-- The index register of an operand: any general register but the first. -/
def indexRegister (m : Mnemonic) (operand : String) : Except Complaint (Fin 8) :=
  match Operand.register? operand with
  | some r => if r = 0 then .error (.badIndexRegister m.name operand) else .ok r
  | none => .error (.badIndexRegister m.name operand)

/-- The operand that is an address. -/
def addressOperand (m : Mnemonic) (operand : String) : Except Complaint String :=
  if Operand.isRegisterLike operand then .error (.registerAsAddress m.name operand)
  else .ok operand

/-- The address operand and the index register of operands; without an index operand the first
register's number stands for none. -/
def addressAndIndex (m : Mnemonic) : List String → Except Complaint (String × Fin 8)
  | [operand] => do
    let address ← m.addressOperand operand
    return (address, 0)
  | [operand, index] => do
    let address ← m.addressOperand operand
    let x ← m.indexRegister index
    return (address, x)
  | _ => .error (.expectedAddress m.name)

/-- The encoding of an instruction's register form. -/
def encodeRegisterForm (m : Mnemonic) (first second : Fin 8) (otherwise : Complaint) :
    Except Complaint Encoding :=
  match m.opcode? .register with
  | some opcode => .ok ⟨Word.encode opcode first.val second.val, none⟩
  | none => .error otherwise

/-- The encoding of an instruction's address form. -/
def encodeAddressForm (m : Mnemonic) (operands : List String) : Except Complaint Encoding :=
  match m.opcode? .address with
  | none => .error (.unexpectedOperands m.name operands)
  | some opcode => do
    let (first, rest) ← m.leadingRegister operands
    let (address, index) ← m.addressAndIndex rest
    return ⟨Word.encode opcode first.val index.val, some address⟩

/-- The encoding of an instruction with its operands. -/
def encode (m : Mnemonic) (operands : List String) : Except Complaint Encoding :=
  if operands.isEmpty then m.encodeRegisterForm 0 0 (.missingOperand m.name)
  else
    match m.registerPair? operands with
    | some (first, second) => m.encodeRegisterForm first second (.noRegisterForm m.name)
    | none => m.encodeAddressForm operands

end Mnemonic

/-- The encoding of the instruction with a name. -/
def encodeNamed (name : String) (operands : List String) : Except Complaint Encoding :=
  match Mnemonic.ofName? name with
  | some m => m.encode operands
  | none => .error (.unknownMnemonic name)

end WordMachine
