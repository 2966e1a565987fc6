import WordMachine.Text.Numeral

/-!
# Records

What the assembler and the machine do is reported in records. A record has a level of importance
and belongs to the part of the program that reports it.

## Main definitions

* `Level`: the levels that have names
* `Record`: a report
-/

namespace WordMachine

namespace Level

/-- The level of details. -/
def debug : Int := 10

/-- The level of events. -/
def info : Int := 20

/-- The level of warnings. -/
def warning : Int := 30

/-- The name of a level. -/
def name (level : Int) : String :=
  match level with
  | 0 => "NOTSET"
  | 10 => "DEBUG"
  | 20 => "INFO"
  | 30 => "WARNING"
  | 40 => "ERROR"
  | 50 => "CRITICAL"
  | _ => "Level " ++ Numeral.decimal level

end Level

/-- A report. -/
structure Record where
  /-- How important the report is. -/
  level : Int
  /-- The part of the program that reports. -/
  logger : String
  /-- What is reported. -/
  message : String
deriving DecidableEq, Repr

end WordMachine
