import WordMachine.Machine.Run

/-!
# Sessions

A session steps a machine for a user. A step that finds no line of input suspends: the program is
still running and waits for a line, and the next step executes the same instruction again.

## Main definitions

* `Session`: what a user is told about the program
* `Session.step`: one step of the machine
-/

namespace WordMachine

/-- What a user is told about a program that is stepped. -/
structure Session where
  /-- The program has not ended. -/
  running : Bool := true
  /-- The last step waits for a line of input. -/
  awaiting : Bool := false
  /-- The prompt for the line that the last step waits for. -/
  prompt : String := ""
deriving DecidableEq, Repr, Inhabited

/-- One step of a session's machine: whether the program is still running. A step that fails leaves
the session as it was. -/
def Session.step {σ : Type} [Terminal σ] (s : Session) (m : Machine σ) :
    Except Fault Bool × Session × Machine σ :=
  if s.running then
    match m.step with
    | (.ok .ended, m) => (.ok false, {running := false}, m)
    | (.ok (.went _), m) => (.ok true, {running := true}, m)
    | (.error (.inputPending prompt), m) => (.ok true, { s with awaiting := true, prompt }, m)
    | (.error fault, m) => (.error fault, s, m)
  else (.ok false, s, m)

end WordMachine
