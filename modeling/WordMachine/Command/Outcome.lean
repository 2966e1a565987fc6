import WordMachine.Command.FileContents
import WordMachine.Command.Options
import WordMachine.Command.StandardInput
import WordMachine.Journal.Basic
import WordMachine.Journal.Report
import WordMachine.Listing

/-!
# The command

The command assembles a source file and runs the program on the console, or steps it with one
instruction for each line of input. What a command does is a function of its arguments, the files
and the input: what it writes, its exit code and its journal.

## Main definitions

* `Surroundings`: what a command finds, its files and its input
* `Report`, `Outcome`: what a command says at its end, and all that it leaves behind
* `Ending`: how a run or a sitting ended
* `Sitting`: a session at the console, one instruction for each line of input
* `Command.outcome`: the outcome of a command line
-/

namespace WordMachine

/-- Why a command ends without a report of its own. -/
inductive Uncaught where
  /-- The name of the source file is none that a file can have. -/
  | badName
  /-- The base address is no integer. -/
  | badInteger
  /-- The source file is no UTF-8. -/
  | undecodable
  /-- A file for records cannot be opened, for the given reason. -/
  | badLogFile (reason : String)
deriving DecidableEq, Repr

/-- What a command finds. -/
structure Surroundings where
  /-- What becomes of opening a source file. -/
  file : String → FileContents
  /-- What keeps a logger's file from being opened, if anything does. -/
  logObstacle : String → Option String := fun _ => none
  /-- The standard input. -/
  stdin : StandardInput := {}

/-- What a command says at its end. -/
structure Report where
  /-- The exit code. -/
  exitCode : Nat := 0
  /-- What is written to standard error, apart from a traceback. -/
  stderr : String := ""
  /-- Whether a traceback follows. -/
  traceback : Bool := false
deriving DecidableEq, Repr

/-- The report of an error that the command does not expect; who asks for details gets a
traceback. -/
def Report.internal (verbose : Bool) (message : String) : Report :=
  { exitCode := 2, stderr := "Internal error: " ++ message ++ "\n", traceback := verbose }

/-- What a command leaves behind. -/
structure Outcome extends Report where
  /-- What was written to standard output. -/
  stdout : String := ""
  /-- Why the command ended without a report, if it did. -/
  uncaught : Option Uncaught := none
  /-- The journal. -/
  journal : Journal := {}
deriving DecidableEq, Repr

namespace Command

/-- What is shown for a malformed command line, or when help is asked for. -/
def usage : String := "usage"

/-- The version of the assembler and of the machine. -/
def version : String := "0.1.0"

/-- What is shown when the version is asked for. -/
def versionText : String := "casl2run " ++ version ++ "\n"

/-- The address where a program is loaded unless another one is asked for. -/
def defaultBase : Int := 0

/-- What becomes of a logger's file. -/
def logFile (o : Options) (s : Surroundings) (name : String) : LogFile :=
  if o.logFile then (s.logObstacle name).elim .opened .refused else .absent

/-- The journal after a command has set some loggers up, or has failed to. -/
def setUpAll (o : Options) (s : Surroundings) (j : Journal) :
    List String → Except String Unit × Journal
  | [] => (.ok (), j)
  | name :: names =>
    let consoleLevel := if o.verbose then Level.debug else Level.warning
    match j.setup .standard name Level.debug consoleLevel (logFile o s name) with
    | (.ok (), j) => setUpAll o s j names
    | (.error reason, j) => (.error reason, j)

/-- The journal of a command, with one logger for the machine and one for the assembler. -/
def openJournal (o : Options) (s : Surroundings) : Except String Unit × Journal :=
  setUpAll o s {} ["comet2", "casl2"]

/-- How a run or a sitting ended. -/
inductive Ending where
  /-- It ended as it should. -/
  | finished
  /-- It ended with a fault of the machine at an address. -/
  | stopped (fault : Fault) (address : Int)
  /-- There was no number to compare the steps with. -/
  | uncounted

/-- The report of an ending. -/
def Ending.report (verbose : Bool) : Ending → Report
  | finished => {}
  | stopped fault address =>
    match fault with
    | .invalidRegister _ | .undefinedOpcode _ _ | .stepLimit _ _ =>
      { exitCode := 1
        stderr := "Machine error: " ++ fault.message ++ " (PC=" ++ Word.hex address ++ ")\n" }
    | .unwritable | .negativeAddress _ | .inputPending _ | .undecodable _ | .unencodable _ =>
      .internal verbose fault.message
  | uncounted => .internal verbose "'>=' not supported between instances of 'int' and 'list'"

/-- The report for a program that cannot be assembled. -/
def failureReport (verbose : Bool) : Failure → Report
  | .refused d =>
    if d.complaint.kind = .number then .internal verbose d.message
    else { exitCode := 1, stderr := "Assembler error: " ++ d.message ++ "\n" }
  | .negativeAddress e => .internal verbose e.message

/-- The console with a line of text written. -/
def print (c : Console) (line : String) : Console :=
  c.writeLine (CodePoint.ofString line)

/-- The console with the listing of a core written. -/
def printCore (c : Console) (core : Core) (w : Workspace) : Console :=
  print (print c (core.memory.listing w.addressMap w.rows)) core.registers.display

/-! ## Running -/

/-- The console of a run that ends with a fault: the prompt for a line that cannot be decoded was
written before the line was read. -/
def closeConsole (c : Console) : Fault → Console
  | .undecodable _ => print c inputPrompt
  | _ => c

/-- The ending of a run under a limit, with its console and its records; none if the fuel does not
suffice. -/
def runWithin (limit : Option Int) (dump : Bool) (w : Workspace) (entry : Int)
    (keyboard : Keyboard) (fuel : Nat) : Option (Ending × Console × List Record) :=
  let m : Machine Keyboard := { memory := w.memory, terminal := keyboard }
  (m.execute entry limit fuel).map fun (result, after) =>
    let records := m.runReport entry limit fuel
    let console := after.terminal.console
    match result with
    | .ok _ => (.finished, if dump then printCore console after.toCore w else console, records)
    | .error fault => (.stopped fault after.registers.counter, closeConsole console fault, records)

/-- The ending of a run, with its console and its records; none if the fuel does not suffice. -/
def runProgram (o : Options) (w : Workspace) (entry : Int) (keyboard : Keyboard) (fuel : Nat) :
    Option (Ending × Console × List Record) :=
  match o.maxSteps with
  | .unlimited => runWithin none o.dump w entry keyboard fuel
  | .atMost count => runWithin (some count) o.dump w entry keyboard fuel
  | .unspecified => some (.uncounted, keyboard.console, [startRecord entry])

/-! ## Stepping -/

/-- A session at the console: the machine takes its lines from a buffer. -/
structure Sitting where
  /-- The session. -/
  session : Session := {}
  /-- The machine. -/
  machine : Machine Buffer
  /-- The console. -/
  console : Console
  /-- The records. -/
  records : Array Record := #[]

/-- The console with the texts that a program has put out written, one after the other, up to one
that cannot be written. -/
def printOutput (c : Console) : List (List CodePoint) → Except Fault Unit × Console
  | [] => (.ok (), c)
  | text :: texts =>
    match c.emit text with
    | .ok c => printOutput c texts
    | .error cause => (.error (.unencodable cause), c)

namespace Sitting

/-- The sitting in which a line is handed to the program, if the program waits for one. -/
def handOver (s : Sitting) (line : List Char) : Sitting :=
  if s.session.awaiting then
    let terminal := s.machine.terminal.feed (String.ofList (Text.trim line))
    { s with machine := { s.machine with terminal } }
  else s

/-- The sitting after a step of its machine. -/
def step (s : Sitting) : Except Fault Bool × Sitting :=
  let records := s.records ++ (s.session.report s.machine).toArray
  let (result, session, machine) := s.session.step s.machine
  (result, { s with session, machine, records })

/-- The sitting in which all that the program has put out is written. -/
def flush (s : Sitting) : Except Fault Unit × Sitting :=
  let terminal := s.machine.terminal
  match printOutput s.console terminal.output.toList with
  | (.ok (), console) =>
    let terminal := { terminal with output := #[] }
    (.ok (), { s with console, machine := { s.machine with terminal } })
  | (.error fault, console) => (.error fault, { s with console })

/-- The sitting after a line of input: whether it goes on. -/
def takeLine (w : Workspace) (s : Sitting) (line : List Char) : Except Fault Bool × Sitting :=
  let s := s.handOver line
  let s := { s with console := print s.console ("PC: " ++ Word.hex s.machine.registers.counter) }
  match s.step with
  | (.error fault, s) => (.error fault, s)
  | (.ok running, s) =>
    match s.flush with
    | (.error fault, s) => (.error fault, s)
    | (.ok (), s) =>
      if s.session.awaiting then (.ok true, { s with console := print s.console s.session.prompt })
      else
        let console := print (printCore s.console s.machine.toCore w) "---"
        if running then (.ok true, { s with console })
        else (.ok false, { s with console := print console "Execution finished" })

/-- The sitting after all lines of input, or after the one with which it ended. -/
def takeLines (w : Workspace) (s : Sitting) : List (List Char) → Except Fault Unit × Sitting
  | [] => (.ok (), s)
  | line :: lines =>
    match s.takeLine w line with
    | (.error fault, s) => (.error fault, s)
    | (.ok true, s) => s.takeLines w lines
    | (.ok false, s) => (.ok (), s)

end Sitting

/-- How a sitting ends whose lines have been read: a program that is still running goes on to what
cannot be decoded, if there is any. -/
def Sitting.ending (s : Sitting) (obstacle : Option String) : Ending :=
  match s.session.running, obstacle with
  | true, some reason => .stopped (.undecodable reason) s.machine.registers.counter
  | _, _ => .finished

/-- The ending of a program that is stepped, with the console and the records. -/
def stepProgram (w : Workspace) (entry : Int) (console : Console) (stdin : StandardInput) :
    Ending × Console × List Record :=
  let m : Machine Buffer := { memory := w.memory, terminal := {} }
  match ({ machine := m.startAt entry, console } : Sitting).takeLines w stdin.lines with
  | (.ok (), s) => (s.ending stdin.obstacle, s.console, s.records.toList)
  | (.error fault, s) =>
    (.stopped fault s.machine.registers.counter, s.console, s.records.toList)

/-! ## The whole command -/

/-- The console of a program that is assembled, before the program begins. -/
def openConsole (o : Options) (w : Workspace) (stdin : StandardInput) : Console :=
  let console : Console := { input := stdin.readable, encoding := .utf8 }
  if o.dump || o.interactive then
    printCore (print console "Assembly complete") { memory := w.memory } w
  else console

/-- The outcome for a program that is assembled, with its entry; none if the fuel does not
suffice. -/
def runAssembled (o : Options) (w : Workspace) (entry : Int) (stdin : StandardInput)
    (journal : Journal) (fuel : Nat) : Option Outcome :=
  let journal := journal.log .standard
    ⟨Level.info, "comet2.cli", "Assembled " ++ Numeral.decimal w.memory.size ++ " words, entry " ++
      Word.hex entry⟩
  let console := openConsole o w stdin
  let course :=
    if o.interactive then some (stepProgram w entry console stdin)
    else runProgram o w entry { console, obstacle := stdin.obstacle } fuel
  course.map fun (ending, console, records) =>
    { ending.report o.verbose with
      stdout := console.text
      journal := journal.logAll .standard records }

/-- The outcome for a program text. -/
def runSource (o : Options) (base : Int) (source : String) (stdin : StandardInput)
    (journal : Journal) (fuel : Nat) : Option Outcome :=
  let refuse (journal : Journal) (f : Failure) : Option Outcome :=
    some { failureReport o.verbose f with journal }
  match Workspace.ofSource ∅ base source with
  | .error d => refuse journal (.refused d)
  | .ok w =>
    let journal := journal.logAll .standard w.report
    match w.assemble with
    | (.error f, _) => refuse journal f
    | (.ok _, w) =>
      match w.entryAddress with
      | .error d => refuse journal (.refused d)
      | .ok entry => runAssembled o w entry stdin journal fuel

/-- The base address that options ask for, if it is an integer; an empty text asks for the
default. -/
def baseAddress? (o : Options) : Option Int :=
  match o.base with
  | none => some defaultBase
  | some text => if text = "" then some defaultBase else IntegerText.readOption? text

/-- The outcome of running a program with given options. -/
def runOptions (o : Options) (s : Surroundings) (fuel : Nat) : Option Outcome :=
  match openJournal o s with
  | (.error reason, journal) =>
    some { exitCode := 1, uncaught := some (.badLogFile reason), journal }
  | (.ok (), journal) =>
    match s.file o.source with
    | .missing =>
      some { exitCode := 1, stderr := "Error: File not found: " ++ o.source ++ "\n", journal }
    | .unnameable => some { exitCode := 1, uncaught := some .badName, journal }
    | .unreadable cause =>
      let stderr := "Error reading " ++ o.source ++ ": " ++ cause.message o.source ++ "\n"
      some { exitCode := 1, stderr, journal }
    | .bytes contents =>
      match String.fromUTF8? contents with
      | none => some { exitCode := 1, uncaught := some .undecodable, journal }
      | some text =>
        match baseAddress? o with
        | none => some { exitCode := 1, uncaught := some .badInteger, journal }
        | some base =>
          runSource o base (String.ofList (Text.unifyLineEnds text.toList)) s.stdin journal fuel

/-- The outcome of a command line; none if the fuel does not suffice. -/
def outcome (arguments : List String) (s : Surroundings) (fuel : Nat) : Option Outcome :=
  match Request.parse? arguments with
  | none => some { exitCode := 2, stderr := usage }
  | some .help => some { stdout := usage }
  | some .version => some { stdout := versionText }
  | some (.run o) => runOptions o s fuel

end Command

end WordMachine
