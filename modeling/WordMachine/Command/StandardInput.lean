import WordMachine.Machine.Terminal

/-!
# Standard input

Standard input is decoded part by part while it is read. Where a part holds bytes that are no text
reading fails: the lines that have come to their ends in front of that part are read, and a line
that is still unfinished there is lost.

## Main definitions

* `StandardInput`: a text, and perhaps what cannot be decoded behind it
* `StandardInput.readable`, `StandardInput.lines`: what can be read of it
* `Keyboard`: a console that reads standard input
-/

namespace WordMachine

/-- Standard input as it is decoded. -/
structure StandardInput where
  /-- The text up to the end, or up to the part that cannot be decoded. -/
  text : List Char := []
  /-- Why the part behind the text cannot be decoded; none if there is none. -/
  obstacle : Option String := none
deriving DecidableEq, Repr, Inhabited

namespace StandardInput

/-- The text that can be read line by line: all of it, or, in front of what cannot be decoded, the
lines that have come to their ends. -/
def readable (s : StandardInput) : List Char :=
  if s.obstacle.isSome then (s.text.reverse.dropWhile (· ≠ '\n')).reverse else s.text

/-- The lines that can be read. -/
def lines (s : StandardInput) : List (List Char) :=
  Text.lines s.readable

example : lines { text := "a\nb".toList } = [['a'], ['b']] := by decide

example : lines { text := "a\nb".toList, obstacle := some "no text" } = [['a']] := by decide

end StandardInput

/-- A console that reads standard input. -/
structure Keyboard where
  /-- The console, with what can be read. -/
  console : Console
  /-- Why what comes behind that cannot be decoded; none if nothing comes. -/
  obstacle : Option String := none
deriving DecidableEq, Repr, Inhabited

namespace Keyboard

/-- The next line of input, unless it cannot be decoded. -/
def request (prompt : String) (k : Keyboard) : Option (String × Keyboard) :=
  if k.obstacle.isSome && k.console.input.isEmpty then none
  else
    let (line, console) := k.console.request prompt
    some (line, { k with console })

/-- The keyboard with a text written on its console, if it can be. -/
def emit (text : List CodePoint) (k : Keyboard) : Except Unencodable Keyboard :=
  (k.console.emit text).map fun console => { k with console }

instance : Terminal Keyboard where
  request := request
  emit := emit
  obstacle := obstacle

end Keyboard

end WordMachine
