import WordMachine.Machine.Operation
import WordMachine.Machine.Terminal

/-!
# Steps

The machine is its core with a terminal. A step executes the instruction at the program counter;
the instruction that ends a program is not executed. A step that fails leaves the machine as the
instruction had changed it: only a line that was taken and cannot be stored leaves its traces.

## Main definitions

* `Machine`: core, terminal, table of operations and trace
* `Progress`: the outcome of a step that did not fail
* `Machine.step`: one instruction
-/

namespace WordMachine

/-- A machine with its terminal. -/
structure Machine (σ : Type) extends Core where
  /-- The terminal. -/
  terminal : σ
  /-- The operations by operation code. -/
  dispatch : Dispatch := Dispatch.standard
  /-- Whether steps are traced. -/
  tracing : Bool := false
  /-- The trace: a line for each instruction that was begun while steps were traced. -/
  trace : Array String := #[]

/-- The outcome of a step that did not fail. -/
inductive Progress where
  /-- The program has ended. -/
  | ended
  /-- An instruction was executed; the program goes on by a number of words, or, if that is zero,
  where the instruction went. -/
  | went (words : Nat)
deriving DecidableEq, Repr

namespace Machine

variable {σ : Type}

/-- The line that the trace has for the instruction at the program counter. -/
def traceLine (m : Machine σ) : String :=
  let name := ((Mnemonic.ofOpcode? m.opcode).map Mnemonic.name).getD "?"
  Word.hex m.registers.counter ++ ": " ++ Text.padEnd 5 name ++ " " ++ m.registers.display

/-- The machine with a line in its trace, if steps are traced. -/
def noteTrace (m : Machine σ) : Machine σ :=
  if m.tracing then { m with trace := m.trace.push m.traceLine } else m

/-- The machine with one more instruction counted, and the program counter moved on from an address
by a number of words unless that is zero. -/
def advance (m : Machine σ) (address : Int) (words : Nat) : Machine σ :=
  let counter := if words = 0 then m.registers.counter else address + words
  { m with registers := { m.registers with counter, steps := m.registers.steps + 1 } }

/-! ## The supervisor call -/

/-- The address of the characters that a supervisor call moves. -/
def dataAddress (m : Machine σ) : Int :=
  m.memory.read (m.registers.counter + 1)

/-- The address of the number of characters that a supervisor call moves. -/
def lengthAddress (m : Machine σ) : Int :=
  m.memory.read (m.registers.counter + 2)

/-- What taking a line stores: its characters one by one, and then their number. -/
def lineWords (data length : Int) (line : String) : List (Int × Int) :=
  Memory.placed data (line.toList.map fun c => (c.toNat : Int)) ++ [(length, (line.length : Int))]

/-- The text that a call puts out: the low sixteen bits of the words at its data address, as many
as the word at its length address says. -/
def outputText (m : Machine σ) : List CodePoint :=
  (List.range (m.memory.read m.lengthAddress).toNat).map fun (i : Nat) =>
    CodePoint.ofWord (m.memory.read (m.dataAddress + (i : Int)))

section SupervisorCall

variable [Terminal σ]

/-- The call that takes a line of input and stores it. Without a line nothing happens. -/
def input (m : Machine σ) : Except Fault Nat × Machine σ :=
  match Terminal.request inputPrompt m.terminal with
  | none => (.error (Terminal.shortage inputPrompt m.terminal), m)
  | some (line, terminal) =>
    match m.memory.writeAll (lineWords m.dataAddress m.lengthAddress line) with
    | (.ok (), memory) => (.ok 3, { m with terminal, memory })
    | (.error e, memory) => (.error (.negativeAddress e.address), { m with terminal, memory })

/-- The call that puts out a text. -/
def output (m : Machine σ) : Except Fault Nat × Machine σ :=
  match Terminal.emit m.outputText m.terminal with
  | .ok terminal => (.ok 3, { m with terminal })
  | .error cause => (.error (.unencodable cause), m)

/-- The supervisor call: its sub-type takes a line or puts out a text, and any other sub-type does
nothing and is one word long. -/
def supervisorCall (m : Machine σ) : Except Fault Nat × Machine σ :=
  if m.second = inputSubtype then m.input
  else if m.second = outputSubtype then m.output
  else (.ok 1, m)

end SupervisorCall

/-! ## One instruction -/

/-- The machine after an action of its core. -/
def act (m : Machine σ) (a : Action) : Except Fault Nat × Machine σ :=
  match a.run m.toCore with
  | .ok (core, words) => (.ok words, { m with toCore := core })
  | .error fault => (.error fault, m)

variable [Terminal σ]

/-- The machine after an operation, with the number of words to go on by. -/
def perform (m : Machine σ) : Operation → Except Fault Nat × Machine σ
  | .action a => m.act a
  | .supervisor => m.supervisorCall

/-- One instruction. -/
def step (m : Machine σ) : Except Fault Progress × Machine σ :=
  if m.opcode = returnOpcode then (.ok .ended, m)
  else
    match m.dispatch m.opcode with
    | none => (.error (.undefinedOpcode m.opcode m.registers.counter), m)
    | some operation =>
      match m.noteTrace.perform operation with
      | (.ok words, n) => (.ok (.went words), n.advance m.registers.counter words)
      | (.error fault, n) => (.error fault, n)

end Machine

end WordMachine
