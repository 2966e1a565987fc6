import WordMachine.Command.Outcome

/-!
# The command line program

The program reads its source file and its input, and carries out what the command leaves behind:
it writes the two standard outputs, the records of the console and those of the files.
-/

namespace WordMachine

/-- The text that bytes begin with, and up to three bytes behind it that a character may begin with;
none if there is something else. -/
def decodePart (bytes : ByteArray) : Option (String × ByteArray) :=
  (List.range 4).findSome? fun left =>
    let cut := bytes.size - left
    (String.fromUTF8? (bytes.extract 0 cut)).map (·, bytes.extract cut bytes.size)

/-- What is left of a stream, behind a text and bytes that a character may begin with. -/
partial def readRest (stream : IO.FS.Stream) (text : List Char) (begun : ByteArray) :
    IO StandardInput := do
  let undecodable := "'utf-8' codec can't decode standard input"
  let part ← stream.read 8192
  if part.isEmpty then
    return { text, obstacle := if begun.isEmpty then none else some undecodable }
  match decodePart (begun ++ part) with
  | some (more, begun) => readRest stream (text ++ more.toList) begun
  | none => return { text, obstacle := some undecodable }

/-- Why a file cannot be read; the system may give the number of a reason as a negative one. -/
def fileError (e : IO.Error) : FileError :=
  let reason (code : UInt32) (details : String) : FileError :=
    FileError.ofNumber (if code < 0x80000000 then code else 0 - code).toNat details
  match e with
  | .inappropriateType _ code details => reason code details
  | .invalidArgument _ code details => reason code details
  | .permissionDenied _ code details => reason code details
  | e => .other 5 (toString e)

/-- What becomes of opening a file. -/
def openFile (name : String) : IO FileContents := do
  if name.contains '\x00' then return .unnameable
  try
    return .bytes (← IO.FS.readBinFile name)
  catch
    | .noFileOrDirectory .. => return .missing
    | e => return .unreadable (fileError e)

/-- What keeps the files for records from being opened. -/
def logObstacle (o : Options) : IO (Option String) := do
  unless o.logFile do return none
  try
    IO.FS.createDirAll "logs"
    return none
  catch e => return some (toString e)

/-- What a command line finds, as far as it needs it. -/
def surroundings (arguments : List String) : IO Surroundings := do
  match Request.parse? arguments with
  | some (.run o) =>
    let contents ← openFile o.source
    let obstacle ← logObstacle o
    let stdin ← readRest (← IO.getStdin) [] .empty
    return { file := fun _ => contents, logObstacle := fun _ => obstacle, stdin }
  | _ => return { file := fun _ => .missing }

/-- A record as one line. -/
def recordLine (r : Record) : String :=
  Text.padEnd 7 (Level.name r.level) ++ " | " ++ r.logger ++ " | " ++ r.message ++ "\n"

/-- Writes the records that the files of a journal have taken. -/
def writeFiles (j : Journal) : IO Unit := do
  for (name, records) in j.files do
    IO.FS.createDirAll "logs"
    IO.FS.writeFile ("logs/" ++ name ++ ".log") (String.join (records.map recordLine))

/-- More steps than a run can take in a lifetime. -/
def lifetime : Nat := 4000000000000000000

end WordMachine

open WordMachine in
/-- Runs the command with the arguments of the command line. -/
def main (arguments : List String) : IO UInt32 := do
  match Command.outcome arguments (← surroundings arguments) lifetime with
  | none => return 2
  | some o =>
    (← IO.getStdout).putStr o.stdout
    let stderr ← IO.getStderr
    for r in o.journal.console do
      stderr.putStr (recordLine r)
    stderr.putStr o.stderr
    if o.traceback then stderr.putStr "Traceback\n"
    writeFiles o.journal
    return o.exitCode.toUInt32
