import WordMachine.Journal.Hierarchy
import WordMachine.Journal.Record

/-!
# Journals

A journal delivers records to the console and to files. Loggers have dotted names; a record goes to
the handlers of its logger and of all loggers above it. It is dropped at once if it lies below the
level of its logger or if its level is not admitted, and it is passed over by a handler if it lies
below the handler's level. A logger becomes known when it is set up or when it first gets a record,
and it decides only once what becomes of the records of a level, until the level of a logger is set
again.

A logger is set up in two steps, first its level and then its handlers. If its file cannot be opened
it is left with the level and without handlers.

## Main definitions

* `Rules`: which names lie above a name, and which levels are admitted
* `Handler`, `Logger`, `Delivery`: what takes records, what has handlers, and a record that was
  taken
* `Journal`: all loggers with all deliveries
* `Journal.setup`: sets a logger up, unless it was set up before
* `Journal.log`: delivers a record
* `Journal.console`, `Journal.files`: what the console and the files have taken
-/

namespace WordMachine

/-- What a journal goes by. -/
structure Rules where
  /-- A name and the names above it, the nearest first, among names that are given in the order in
  which they became known. -/
  lineage : List String → String → List String
  /-- Whether records of a level may pass at all. -/
  admits : Int → Bool

/-- Names lie above each other by the hierarchy of names, and positive levels are admitted. -/
def Rules.standard : Rules where
  lineage := WordMachine.lineage
  admits level := 0 < level

/-- Where a handler delivers. -/
inductive Outlet where
  | file
  | console
deriving DecidableEq, Repr

/-- What takes records from a level on. -/
structure Handler where
  /-- Where records are delivered. -/
  outlet : Outlet
  /-- The lowest level that is taken. -/
  level : Int
deriving DecidableEq, Repr

/-- Whether a handler takes a record. -/
def Handler.takes (h : Handler) (r : Record) : Bool :=
  h.level ≤ r.level

/-- A known logger. -/
structure Logger where
  /-- The dotted name. -/
  name : String
  /-- The lowest level that passes; zero if the logger above decides. -/
  level : Int := 0
  /-- The handlers; none unless the logger was set up. -/
  handlers : List Handler := []
deriving DecidableEq, Repr

/-- Whether a logger was set up. -/
def Logger.isSetUp (l : Logger) : Bool :=
  !l.handlers.isEmpty

/-- A record has been taken by a handler of a logger. -/
structure Delivery where
  /-- The name of the logger. -/
  logger : String
  /-- The handler. -/
  handler : Handler
  /-- The record. -/
  record : Record
deriving DecidableEq, Repr

/-- What becomes of the file of a logger that is set up. -/
inductive LogFile where
  /-- There is to be no file. -/
  | absent
  /-- The file is opened. -/
  | opened
  /-- The file, or the directory that it belongs to, cannot be opened, for the given reason. -/
  | refused (reason : String)
deriving DecidableEq, Repr

/-- All loggers, in the order in which they became known, and what their handlers have taken. -/
structure Journal where
  /-- The loggers. -/
  loggers : List Logger := []
  /-- Whether records of a logger and a level pass, where that is decided. -/
  verdicts : List ((String × Int) × Bool) := []
  /-- The records that the handlers have taken. -/
  taken : Array Delivery := #[]
deriving DecidableEq, Repr, Inhabited

namespace Journal

/-- The logger with a name, if it is known. -/
def logger? (j : Journal) (name : String) : Option Logger :=
  j.loggers.find? (·.name == name)

/-- The names of the loggers, in the order in which they became known. -/
def names (j : Journal) : List String :=
  j.loggers.map (·.name)

/-- The level of a name; zero if it is not known. -/
def levelOf (j : Journal) (name : String) : Int :=
  (j.logger? name).elim 0 Logger.level

/-- The handlers of a name; none if it is not known. -/
def handlersOf (j : Journal) (name : String) : List Handler :=
  (j.logger? name).elim [] Logger.handlers

/-- The journal in which the logger with a name is known. -/
def know (j : Journal) (name : String) : Journal :=
  if (j.logger? name).isSome then j else { j with loggers := j.loggers ++ [{ name }] }

/-- The journal in which a logger has a level of its own. -/
def setLevel (j : Journal) (name : String) (level : Int) : Journal :=
  { j with
    loggers := j.loggers.map fun l => if l.name = name then { l with level } else l
    verdicts := [] }

/-- The journal in which a logger has handlers. -/
def setHandlers (j : Journal) (name : String) (handlers : List Handler) : Journal :=
  { j with loggers := j.loggers.map fun l => if l.name = name then { l with handlers } else l }

section

variable (rules : Rules)

/-- The level from which on records of a logger pass: that of the nearest logger with a level of
its own, else that of warnings. -/
def effectiveLevel (j : Journal) (name : String) : Int :=
  (((rules.lineage j.names name).map j.levelOf).find? (· ≠ 0)).getD Level.warning

/-- Whether records of a logger and a level pass by the levels of the loggers. -/
def passes (j : Journal) (name : String) (level : Int) : Bool :=
  rules.admits level && j.effectiveLevel rules name ≤ level

/-- Whether records of a logger and a level pass, as it was decided before if it was. -/
def verdict (j : Journal) (name : String) (level : Int) : Bool :=
  (j.verdicts.lookup (name, level)).getD (j.passes rules name level)

/-- The journal in which it is decided whether records of a logger and a level pass. -/
def settle (j : Journal) (name : String) (level : Int) : Journal :=
  if (j.verdicts.lookup (name, level)).isSome then j
  else { j with verdicts := j.verdicts ++ [((name, level), j.passes rules name level)] }

/-- The deliveries of a record to the handlers of one name. -/
def deliveriesAt (j : Journal) (r : Record) (name : String) : List Delivery :=
  ((j.handlersOf name).filter (·.takes r)).map (⟨name, ·, r⟩)

/-- The journal after all handlers of a record's logger and of the loggers above it have been
handed the record. -/
def deliver (j : Journal) (r : Record) : Journal :=
  let deliveries := (rules.lineage j.names r.logger).flatMap (j.deliveriesAt r)
  { j with taken := j.taken ++ deliveries.toArray }

/-- The journal after a record has come in. -/
def log (j : Journal) (r : Record) : Journal :=
  let j := (j.know r.logger).settle rules r.logger r.level
  if j.verdict rules r.logger r.level then j.deliver rules r else j

/-- The journal after records have come in in turn. -/
def logAll (j : Journal) (rs : List Record) : Journal :=
  rs.foldl (log rules) j

/-- The handlers of a logger that is set up: a file that takes all details, if there is one, and
the console. -/
def newHandlers (consoleLevel : Int) (file : LogFile) : List Handler :=
  (if file = .opened then [⟨.file, Level.debug⟩] else []) ++ [⟨.console, consoleLevel⟩]

/-- The journal in which a logger is set up, or the reason why it is not. A logger that was set up
before stays as it is. -/
def setup (j : Journal) (name : String) (level consoleLevel : Int) (file : LogFile) :
    Except String Unit × Journal :=
  let j := j.know name
  if (j.logger? name).any Logger.isSetUp then (.ok (), j)
  else
    let j := j.setLevel name level
    match file with
    | .refused reason => (.error reason, j)
    | _ =>
      let j := j.setHandlers name (newHandlers consoleLevel file)
      (.ok (), j.log rules ⟨Level.debug, name, "Logger initialized: " ++ name⟩)

/-- A logger can be set up unless its file cannot be opened. -/
theorem file_of_setup_error {rules : Rules} {j j' : Journal} {name : String}
    {level consoleLevel : Int} {file : LogFile} {reason : String}
    (h : j.setup rules name level consoleLevel file = (.error reason, j')) :
    file = .refused reason := by
  unfold setup at h
  dsimp only at h
  split at h
  · cases h
  · split at h
    · rw [Except.error.inj (Prod.mk.inj h).1]
    · cases h

end

/-- The records that the handlers of an outlet have taken, of those loggers that are chosen. -/
def recordsOf (j : Journal) (outlet : Outlet) (chosen : String → Bool) : List Record :=
  (j.taken.toList.filter fun d => d.handler.outlet = outlet && chosen d.logger).map (·.record)

/-- The records that the console handlers have taken. -/
def console (j : Journal) : List Record :=
  j.recordsOf .console fun _ => true

/-- The records that the files have taken, by the names of their loggers. -/
def files (j : Journal) : List (String × List Record) :=
  (j.loggers.filter fun l => l.handlers.any (·.outlet = .file)).map fun l =>
    (l.name, j.recordsOf .file (· = l.name))

end Journal

end WordMachine
