import WordMachine.Text.IntegerText

/-!
# Options

The command line names one source file and may hold options before and behind it. Long options may
be cut short as long as they stay unambiguous, and a value may be attached to one behind an equals
sign; short options without values may share one dash. Behind a double dash everything is a file
name, and a negative number is never an option. A double dash that is attached in place of a value
takes the value away.

## Main definitions

* `StepLimit`, `Options`, `Request`: what a command line asks for
* `Argument.classify?`: what one argument of a command line is
* `Request.parse?`: the request of a command line, unless it is malformed
-/

namespace WordMachine

/-- How many instructions a run may execute. -/
inductive StepLimit where
  /-- As many as it takes. -/
  | unlimited
  /-- At most a number. -/
  | atMost (count : Int)
  /-- There is a limit, but no number was given for it. -/
  | unspecified
deriving DecidableEq, Repr

/-- How a program is to be assembled and run. -/
structure Options where
  /-- The name of the source file. -/
  source : String
  /-- The text of the base address. -/
  base : Option String := none
  /-- Whether to execute one instruction for each line of input. -/
  interactive : Bool := false
  /-- How many instructions to execute. -/
  maxSteps : StepLimit := .unlimited
  /-- Whether to list memory and registers. -/
  dump : Bool := false
  /-- Whether to show all records. -/
  verbose : Bool := false
  /-- Whether to write records to files. -/
  logFile : Bool := false
deriving DecidableEq, Repr

/-- What a command line asks for. -/
inductive Request where
  /-- To run a program. -/
  | run (options : Options)
  /-- To show the version. -/
  | version
  /-- To show how the command is used. -/
  | help
deriving DecidableEq, Repr

/-- The options of the command line. -/
inductive Switch where
  | help | base | interactive | maxSteps | dump | verbose | logFile | version
deriving DecidableEq, Repr

namespace Switch

/-- The spellings of the options. -/
def spellings : List (String × Switch) :=
  [("-h", help), ("--help", help), ("--base", base), ("--interactive", interactive),
    ("-i", interactive), ("--max-steps", maxSteps), ("--dump", dump), ("--verbose", verbose),
    ("-v", verbose), ("--log-file", logFile), ("--version", version)]

/-- The option that a letter behind a single dash stands for. -/
def ofLetter? (c : Char) : Option Switch :=
  spellings.lookup (String.ofList ['-', c])

/-- Whether an option has a value. -/
def takesValue : Switch → Bool
  | base | maxSteps => true
  | _ => false

end Switch

/-- What an argument of a command line is. -/
inductive Argument where
  /-- A file name, or the value of an option. -/
  | value (s : String)
  /-- The double dash. -/
  | separator
  /-- A long option, perhaps with a value attached. -/
  | long (switch : Switch) (attached : Option String)
  /-- A short option, perhaps with letters attached; an equals sign in front of them is left out. -/
  | short (switch : Switch) (attached : Option (List Char))
  /-- What looks like an option and is none. -/
  | unknown
deriving DecidableEq, Repr

namespace Argument

/-- A digit of any script. -/
def isDecimal (c : Char) : Bool :=
  ('0' ≤ c && c ≤ '9') || (Text.decimalDigit? c).isSome

/-- Whether a text is a negative number: a dash, digits, and perhaps a point with digits. -/
def isNegativeNumber (cs : List Char) : Bool :=
  let cs := if cs.getLast? = some '\n' then cs.dropLast else cs
  match cs with
  | '-' :: cs =>
    let fraction := cs.dropWhile isDecimal
    match fraction with
    | [] => !cs.isEmpty
    | '.' :: digits => !digits.isEmpty && digits.all isDecimal
    | _ => false
  | _ => false

/-- A text up to its first equals sign, and behind it if there is one. -/
def splitEquals (cs : List Char) : String × Option String :=
  let name := cs.takeWhile (· ≠ '=')
  (String.ofList name, (cs.drop name.length).tail?.map String.ofList)

/-- The value that an attached text gives to an option; a double dash gives none. -/
def attachedValue? (s : String) : Option String :=
  if s = "--" then none else some s

/-- The letters that are attached to a short option, if there is anything behind it. -/
def attachedLetters? : List Char → Option (List Char)
  | [] => none
  | '=' :: letters => some letters
  | letters => some letters

/-- The long options whose spellings a text starts. -/
def candidates (start : String) : List Switch :=
  (Switch.spellings.filter fun (spelling, _) => start.toList.isPrefixOf spelling.toList).map (·.2)

/-- What an argument is that is spelled like no option as a whole. -/
def notAnOption (s : String) : Argument :=
  if isNegativeNumber s.toList || s.toList.contains ' ' then .value s else .unknown

/-- What an argument in front of the double dash is; none if it is an ambiguous option. -/
def classify? (s : String) : Option Argument :=
  match s.toList with
  | '-' :: '-' :: _ =>
    let (name, attached) := splitEquals s.toList
    match Switch.spellings.lookup name with
    | some switch => some (.long switch attached)
    | none =>
      match candidates name with
      | [] => some (notAnOption s)
      | [switch] => some (.long switch attached)
      | _ => none
  | '-' :: c :: tail =>
    match Switch.ofLetter? c with
    | some switch => some (.short switch (attachedLetters? tail))
    | none => some (notAnOption s)
  | _ => some (.value s)

/-- What the arguments of a command line are; none if one of them is an ambiguous option. -/
def classifyAll? : List String → Option (List Argument)
  | [] => some []
  | s :: rest =>
    if s = "--" then some (.separator :: rest.map value)
    else do
      let argument ← classify? s
      let arguments ← classifyAll? rest
      return argument :: arguments

end Argument

namespace Request

/-- The part of a command line that is understood so far. -/
structure Reading where
  /-- The name of the source file. -/
  source : Option String := none
  /-- The options, for a source file without a name. -/
  options : Options := { source := "" }
  /-- There are arguments that have no place. -/
  stray : Bool := false

/-- The short options that share one dash; none if nothing follows an equals sign, or a letter is no
option. -/
def cluster? (switch : Switch) : Option (List Char) → Option (List Switch)
  | none => some [switch]
  | some [] => none
  | some letters => (letters.mapM Switch.ofLetter?).map (switch :: ·)

/-- The reading with an option that has no value, unless the option is a request of its own. -/
def Reading.turnOn (r : Reading) : Switch → Reading ⊕ Request
  | .help => .inr .help
  | .version => .inr .version
  | .interactive => .inl { r with options := { r.options with interactive := true } }
  | .dump => .inl { r with options := { r.options with dump := true } }
  | .verbose => .inl { r with options := { r.options with verbose := true } }
  | .logFile => .inl { r with options := { r.options with logFile := true } }
  | .base => .inl r
  | .maxSteps => .inl r

/-- The reading with options that have no values, up to one that is a request of its own. -/
def Reading.turnAllOn (r : Reading) : List Switch → Reading ⊕ Request
  | [] => .inl r
  | switch :: switches =>
    match r.turnOn switch with
    | .inl r => r.turnAllOn switches
    | .inr request => .inr request

/-- The reading with an option and its value, if there is one and it fits. -/
def Reading.give? (r : Reading) (switch : Switch) (value : Option String) : Option Reading :=
  match switch, value with
  | .base, value => some { r with options := { r.options with base := value } }
  | .maxSteps, none => some { r with options := { r.options with maxSteps := .unspecified } }
  | .maxSteps, some value =>
    (IntegerText.read? 10 value.toList).map fun n =>
      { r with options := { r.options with maxSteps := .atMost n } }
  | _, _ => none

/-- The reading with one more argument that is no option: the source file, or one too many. -/
def Reading.place (r : Reading) (s : String) : Reading :=
  if r.source.isSome then { r with stray := true } else { r with source := some s }

/-- The request of a reading: there must be a source file and nothing that has no place. -/
def Reading.finish? (r : Reading) : Option Request :=
  match r.source, r.stray with
  | some source, false => some (.run { r.options with source })
  | _, _ => none

/-- The request of a reading with more arguments. -/
def ofArguments? (r : Reading) : List Argument → Option Request
  | [] => r.finish?
  | .value s :: .separator :: rest =>
    ofArguments? (if r.source.isSome then { r with stray := true } else r.place s) rest
  | .value s :: rest => ofArguments? (r.place s) rest
  | .separator :: .value s :: rest => ofArguments? (r.place s) rest
  | .separator :: rest => ofArguments? { r with stray := true } rest
  | .unknown :: rest => ofArguments? { r with stray := true } rest
  | .short switch attached :: rest => do
    match r.turnAllOn (← cluster? switch attached) with
    | .inl r => ofArguments? r rest
    | .inr request => some request
  | .long switch attached :: rest =>
    if switch.takesValue then
      match attached, rest with
      | some text, rest =>
        (r.give? switch (Argument.attachedValue? text)).bind fun r => ofArguments? r rest
      | none, .value value :: rest =>
        (r.give? switch (some value)).bind fun r => ofArguments? r rest
      | none, _ => none
    else
      match attached, r.turnOn switch with
      | some _, _ => none
      | none, .inl r => ofArguments? r rest
      | none, .inr request => some request

/-- The request of a command line; none if the command line is malformed. -/
def parse? (arguments : List String) : Option Request :=
  (Argument.classifyAll? arguments).bind (ofArguments? {})

end Request

end WordMachine
