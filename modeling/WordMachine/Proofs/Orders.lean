import WordMachine.Proofs.ObjectCode
import WordMachine.Machine.Step

/-!
# Orders

A row of a program orders the machine to do something. The order is read off the row as it is
written: the registers that it names and the values of its address operands. What carrying out an
order does is said without any word of object code, so that it can be compared with what the
machine makes of the words of the row.

## Main definitions

* `Place`: where an instruction finds its second operand
* `Order`: what a row orders, with `Row.order?`
* `Mnemonic.effect`: what an instruction does with a register and a place
* `Order.run`: the machine after an order
* `Machine.stepped`: the machine after a step, in the same terms
-/

namespace WordMachine

/-! ## Places -/

/-- Where an instruction finds its second operand. -/
inductive Place where
  /-- In a general register. -/
  | register (index : Fin 8)
  /-- In memory, at an address to which an index register may be added. -/
  | memory (value : Int) (index : Option (Fin 8))
deriving DecidableEq, Repr

namespace Core

/-- The contents of a general register. -/
def general (c : Core) (index : Fin 8) : Int :=
  c.registers.general[index]

/-- The core with a general register set. -/
def put (c : Core) (index : Fin 8) (w : Int) : Core :=
  { c with registers := { c.registers with general := c.registers.general.set index w } }

end Core

namespace Place

/-- The address that a place stands for; a register stands for the address that it holds. -/
def address (c : Core) : Place → Int
  | register index => c.general index
  | memory value none => value
  | memory value (some index) => value + c.general index

/-- The word at a place. -/
def operand (c : Core) : Place → Int
  | register index => c.general index
  | memory value index => c.memory.read ((memory value index).address c)

end Place

/-! ## Instructions -/

/-- The core in which a register is combined with the word at a place. -/
def Core.combine (c : Core) (operation : Int → Int → Int) (first : Fin 8) (place : Place) : Core :=
  let result := operation (c.general first) (place.operand c)
  (c.put first result).withFlags result

/-- The core after an instruction, and the address where the program goes on: the next row, unless
a jump is taken. -/
def Mnemonic.effect (m : Mnemonic) (first : Fin 8) (place : Place) (next : Int) (c : Core) :
    Except Fault (Core × Int) :=
  let jumpIf (condition : Bool) := .ok (c, if condition then place.address c else next)
  match m with
  | .nop | .ret | .svc => .ok (c, next)
  | .ld => .ok ((c.put first (place.operand c)).withFlags (place.operand c), next)
  | .st => (c.store (place.address c) (c.general first)).map fun c => (c, next)
  | .lad => .ok (c.put first (place.address c), next)
  | .adda => .ok (c.combine (· + ·) first place, next)
  | .suba => .ok (c.combine (· - ·) first place, next)
  | .and => .ok (c.combine Word.and first place, next)
  | .or => .ok (c.combine Word.or first place, next)
  | .xor => .ok (c.combine Word.xor first place, next)
  | .cpa => .ok (c.withFlags (c.general first - place.operand c), next)
  | .jmi => jumpIf c.registers.flags.isNegative
  | .jnz => jumpIf (!c.registers.flags.isZero)
  | .jze => jumpIf c.registers.flags.isZero
  | .jump => jumpIf true
  | .jpl => jumpIf (!c.registers.flags.isNegative && !c.registers.flags.isZero)

/-! ## Carrying out orders -/

/-- Whether a program goes on after a step. -/
def Progress.goesOn : Progress → Bool
  | ended => false
  | went _ => true

/-- What a step says about the program's going on, with the machine after it. -/
def Machine.stepped {σ : Type} [Terminal σ] (m : Machine σ) : Except Fault Bool × Machine σ :=
  (m.step.1.map Progress.goesOn, m.step.2)

/-- What a row orders the machine to do. -/
inductive Order where
  /-- To end the program. -/
  | stop
  /-- To carry out an instruction with a register and a place. -/
  | instruction (mnemonic : Mnemonic) (first : Fin 8) (place : Place)
  /-- To call the supervisor with a sub-type, the address of the characters and the address of
  their number. -/
  | call (subtype data length : Int)
deriving DecidableEq, Repr

namespace Machine

variable {σ : Type}

/-- The machine with one more instruction counted, at the address where it goes on. -/
def goOn (m : Machine σ) (next : Int) : Machine σ :=
  { m with registers := { m.registers with counter := next, steps := m.registers.steps + 1 } }

/-- The text whose words are at an address and whose length is at another. -/
def textAt (m : Machine σ) (data length : Int) : List CodePoint :=
  (List.range (m.memory.read length).toNat).map fun (i : Nat) =>
    CodePoint.ofWord (m.memory.read (data + (i : Int)))

variable [Terminal σ]

/-- The machine after it has stored a line, if there is one: the characters from one address on and
their number at another. -/
def takeLine (m : Machine σ) (data length next : Int) : Except Fault Bool × Machine σ :=
  match Terminal.request inputPrompt m.terminal with
  | none => (.error (Terminal.shortage inputPrompt m.terminal), m)
  | some (line, terminal) =>
    match m.memory.writeAll (lineWords data length line) with
    | (.ok (), memory) => (.ok true, { m with terminal, memory }.goOn next)
    | (.error e, memory) => (.error (.negativeAddress e.address), { m with terminal, memory })

/-- The machine after it has put out a text, if that can be written. -/
def putText (m : Machine σ) (data length next : Int) : Except Fault Bool × Machine σ :=
  match Terminal.emit (m.textAt data length) m.terminal with
  | .ok terminal => (.ok true, { m with terminal }.goOn next)
  | .error cause => (.error (.unencodable cause), m)

end Machine

/-- The machine after an order, and whether the program goes on. A call with another sub-type than
those of input and output does nothing, and the program goes on with the word behind it and not
with the next row. -/
def Order.run {σ : Type} [Terminal σ] (next : Int) (m : Machine σ) :
    Order → Except Fault Bool × Machine σ
  | stop => (.ok false, m)
  | instruction mnemonic first place =>
    match mnemonic.effect first place next m.toCore with
    | .ok (core, address) => (.ok true, { m.noteTrace with toCore := core }.goOn address)
    | .error fault => (.error fault, m.noteTrace)
  | call subtype data length =>
    if subtype = inputSubtype then m.noteTrace.takeLine data length next
    else if subtype = outputSubtype then m.noteTrace.putText data length next
    else (.ok true, m.noteTrace.goOn (m.registers.counter + 1))

/-! ## Reading rows -/

theorem registers_pos : 0 < 8 := by decide

/-- The register that is meant where none is written. -/
def registerZero : Fin 8 := ⟨0, registers_pos⟩

section Reading

variable (value? : String → Option Int)

/-- The place that an address operand and perhaps an index register name. -/
def Place.ofOperands? : List String → Option Place
  | [operand] => (value? operand).map fun value => memory value none
  | [operand, index] => do
    let value ← value? operand
    let x ← Operand.register? index
    return memory value (some x)
  | _ => none

/-- The place that the operands behind a register name: a register, or else a word in memory. -/
def Place.ofSecond? : List String → Option Place
  | [operand] =>
    match Operand.register? operand with
    | some index => some (register index)
    | none => ofOperands? value? [operand]
  | operands => ofOperands? value? operands

/-- The order of an instruction with operands. -/
def Mnemonic.order? (m : Mnemonic) (operands : List String) : Option Order :=
  if operands.isEmpty then some (.instruction m registerZero (.register registerZero))
  else if m.takesAddressFirst then
    (Place.ofOperands? value? operands).map (.instruction m registerZero)
  else do
    let first ← operands.head?.bind Operand.register?
    let place ← Place.ofSecond? value? operands.tail
    return .instruction m first place

/-- The order of a supervisor call with two address operands. -/
def Order.ofCall? (subtype : Int) : List String → Option Order
  | [buffer, length] => do
    let data ← value? buffer
    let length ← value? length
    return call subtype data length
  | _ => none

/-- The order of a row that holds an instruction or a macro for input or output. -/
def Row.order? (r : Row) : Option Order :=
  match r.directive? with
  | some .input => Order.ofCall? value? inputSubtype r.given
  | some .output => Order.ofCall? value? outputSubtype r.given
  | some _ => none
  | none =>
    match Mnemonic.ofName? r.name with
    | some .ret => some .stop
    | some .svc => r.subtype?.bind fun subtype => Order.ofCall? value? subtype r.given.tail
    | some m => m.order? value? r.given
    | none => none

/-- Whether a row is executed: it holds an instruction or a macro for input or output. -/
def Row.isExecuted (r : Row) : Bool :=
  match r.directive? with
  | some d => d.subtype?.isSome
  | none => r.isInstruction

end Reading

end WordMachine
