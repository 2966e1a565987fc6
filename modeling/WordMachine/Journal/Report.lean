import WordMachine.Assembly.Workspace
import WordMachine.Journal.Record
import WordMachine.Machine.Session

/-!
# Reports

The records that report what the assembler and the machine do. A report is read off the states
before and after the work, so that the work itself knows of no records.

## Main definitions

* `Workspace.report`: the records of an assembly
* `Machine.stepReport`, `Machine.runReport`: the records of a step and of a run
* `Session.report`: the records of a session's step
-/

namespace WordMachine

/-- A detail that the assembler reports. -/
def assemblerDetail (message : String) : Record :=
  ⟨Level.debug, "casl2.assembler", message⟩

/-- The record of the first pass. -/
def Workspace.layOutRecord (w : Workspace) : Record :=
  assemblerDetail <|
    "Pass 1: " ++ Numeral.decimal (w.address - w.base) ++ " words at " ++ Word.signedHex w.base ++
      "-" ++ Word.signedHex w.address ++ ", " ++ Numeral.decimal w.labels.size ++ " labels, " ++
      Numeral.decimal w.references.length ++ " references"

/-- The record of the second pass. -/
def Workspace.patchRecord (w : Workspace) : Record :=
  assemblerDetail ("Pass 2: patched " ++ Numeral.decimal w.references.length ++ " references")

/-- The records of an assembly: one for each pass that comes to its end. -/
def Workspace.report (w : Workspace) : List Record :=
  match w.layOut with
  | (.error _, _) => []
  | (.ok (), w) =>
    match w.patch with
    | (.error _, _) => [w.layOutRecord]
    | (.ok (), _) => [w.layOutRecord, w.patchRecord]

/-- A record of the machine's course. -/
def courseRecord (level : Int) (message : String) : Record :=
  ⟨level, "comet2.emu", message⟩

/-- The record of the start of a run. -/
def startRecord (begin : Int) : Record :=
  courseRecord Level.info ("Execution start at " ++ Word.hex begin)

namespace Machine

variable {σ : Type}

/-- A record of an instruction's work. -/
def callRecord (level : Int) (message : String) : Record :=
  ⟨level, "comet2.cpu.instructions", message⟩

/-- The record of an instruction that was executed. -/
def stepRecord (before after : Machine σ) (words : Nat) : Record :=
  courseRecord Level.debug <|
    Word.hex before.registers.counter ++ " op=#" ++ Numeral.hexadecimal 2 before.opcode ++
      " step=" ++ Numeral.decimal words ++ " -> PC " ++ Word.hex after.registers.counter

variable [Terminal σ]

/-- The records of a line that is taken: one, if it is stored. -/
def inputReport (m : Machine σ) : List Record :=
  match Terminal.request inputPrompt m.terminal, m.input.1 with
  | some (line, _), .ok _ =>
    [callRecord Level.debug ("IN  to " ++ Word.hex m.dataAddress ++ " length " ++
      Numeral.decimal line.length)]
  | _, _ => []

/-- The records of a supervisor call. -/
def callReport (m : Machine σ) : List Record :=
  if m.second = inputSubtype then m.inputReport
  else if m.second = outputSubtype then
    [callRecord Level.debug ("OUT from " ++ Word.hex m.dataAddress ++ " length " ++
      Numeral.decimal (m.memory.read m.lengthAddress))]
  else
    [callRecord Level.warning ("SVC with unknown sub-type " ++ Numeral.decimal m.second ++ " at " ++
      Word.hex m.registers.counter ++ " ignored")]

/-- The records of the step that a machine takes next. -/
def stepReport (m : Machine σ) : List Record :=
  let calls :=
    if m.opcode ≠ returnOpcode ∧ m.dispatch m.opcode = some .supervisor then m.callReport else []
  match m.step with
  | (.ok (.went words), after) => calls ++ [stepRecord m after words]
  | _ => calls

/-- The records of the steps of a run that has executed a number of instructions, behind records
that are already there. -/
def stepReports (limit : Option Int) : Nat → Nat → Machine σ → Array Record → Array Record
  | 0, _, _, records => records
  | fuel + 1, executed, m, records =>
    if mustStop limit executed m then records
    else
      let records := records ++ m.stepReport.toArray
      match m.step with
      | (.ok (.went _), m) => stepReports limit fuel (executed + 1) m records
      | (.ok .ended, m) =>
        records.push <| courseRecord Level.info
          ("Execution stopped at RET " ++ Word.hex m.registers.counter ++ " after " ++
            Numeral.decimal executed ++ " steps")
      | (.error _, _) => records

/-- The records of a run from an address. -/
def runReport (m : Machine σ) (begin : Int) (limit : Option Int) (fuel : Nat) : List Record :=
  (stepReports limit fuel 0 (m.startAt begin) #[startRecord begin]).toList

end Machine

/-- The records of a session's step: those of the machine's step, and one if it suspends. -/
def Session.report {σ : Type} [Terminal σ] (s : Session) (m : Machine σ) : List Record :=
  if s.running then
    match m.step with
    | (.error (.inputPending _), after) =>
      m.stepReport ++
        [courseRecord Level.debug ("Waiting for input at " ++ Word.hex after.registers.counter)]
    | _ => m.stepReport
  else []

end WordMachine
