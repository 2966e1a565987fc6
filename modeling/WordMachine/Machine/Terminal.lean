import WordMachine.Text.Blank
import WordMachine.Machine.Fault
import WordMachine.Text.Line

/-!
# Terminals

A terminal hands lines of input to a program and takes the texts that the program puts out. There
are two: a buffer, which is fed with lines ahead of time and may run out of them, and a console,
which reads a text line by line and never runs out.

## Main definitions

* `Terminal`: what a program needs of a terminal
* `Buffer`: a terminal with a queue of lines
* `Console`: a terminal that reads one text and writes another
-/

namespace WordMachine

/-- What a program needs of a terminal. -/
class Terminal (σ : Type) where
  /-- The next line of input, asked for with a prompt; none if it cannot be had. -/
  request : String → σ → Option (String × σ)
  /-- The terminal after a text is put out. -/
  emit : List CodePoint → σ → Except Unencodable σ
  /-- What keeps the line that cannot be had from being decoded; none if the line has just not
  arrived yet. -/
  obstacle : σ → Option String := fun _ => none

/-- The fault of a program that asks for a line which cannot be had. -/
def Terminal.shortage {σ : Type} [Terminal σ] (prompt : String) (t : σ) : Fault :=
  match obstacle t with
  | none => .inputPending prompt
  | some reason => .undecodable reason

theorem Terminal.shortage_eq_inputPending_iff {σ : Type} [Terminal σ] {prompt asked : String}
    {t : σ} : shortage prompt t = .inputPending asked ↔ obstacle t = none ∧ asked = prompt := by
  unfold shortage
  split <;> simp [*, eq_comm]

theorem Terminal.shortage_eq {σ : Type} [Terminal σ] (prompt : String) (t : σ) :
    shortage prompt t = .inputPending prompt ∨
      ∃ reason, shortage prompt t = .undecodable reason := by
  unfold shortage
  split
  · exact .inl rfl
  · exact .inr ⟨_, rfl⟩

/-- A terminal with a queue of lines; it keeps what is put out. -/
structure Buffer where
  /-- The lines of input that wait to be taken. -/
  queue : List String := []
  /-- The texts put out. -/
  output : Array (List CodePoint) := #[]
  /-- The prompts with which lines were taken. -/
  prompts : Array String := #[]
deriving DecidableEq, Repr, Inhabited

namespace Buffer

/-- The buffer with one more line of input. -/
def feed (b : Buffer) (line : String) : Buffer :=
  { b with queue := b.queue ++ [line] }

/-- The first line of the queue, and the buffer without it. -/
def request (prompt : String) (b : Buffer) : Option (String × Buffer) :=
  match b.queue with
  | [] => none
  | line :: queue => some (line, { b with queue, prompts := b.prompts.push prompt })

/-- The buffer with one more text put out. -/
def emit (text : List CodePoint) (b : Buffer) : Buffer :=
  { b with output := b.output.push text }

instance : Terminal Buffer where
  request := request
  emit text b := .ok (b.emit text)

/-- A line is missing exactly when the queue is empty. -/
theorem request_eq_none_iff {prompt : String} {b : Buffer} :
    b.request prompt = none ↔ b.queue = [] := by
  unfold request
  split <;> simp [*]

end Buffer

/-- What a console can write. -/
inductive Charset where
  /-- Any code point. -/
  | any
  /-- Characters only, as UTF-8. -/
  | utf8
deriving DecidableEq, Repr, Inhabited

/-- A terminal that reads one text and writes another. -/
structure Console where
  /-- The input that is not read yet. -/
  input : List Char := []
  /-- All that was written. -/
  written : Array CodePoint := #[]
  /-- What can be written. -/
  encoding : Charset := .any
deriving DecidableEq, Repr, Inhabited

namespace Console

/-- The console with one more line written. -/
def writeLine (text : List CodePoint) (c : Console) : Console :=
  { c with written := c.written ++ text.toArray |>.push (CodePoint.ofChar '\n') }

/-- The next line of input without blanks at its ends, after a prompt that is not empty was
written; behind the end of the input all lines are empty. -/
def request (prompt : String) (c : Console) : String × Console :=
  let c := if prompt = "" then c else c.writeLine (CodePoint.ofString prompt)
  let (line, rest) := Text.takeLine c.input
  (String.ofList (Text.trim line), { c with input := rest })

/-- The console with a text written, if it can be. -/
def emit (text : List CodePoint) (c : Console) : Except Unencodable Console :=
  match c.encoding, firstSurrogates? text with
  | .utf8, some cause => .error cause
  | _, _ => .ok (c.writeLine text)

instance : Terminal Console where
  request prompt c := some (c.request prompt)
  emit := emit

/-- The text written by a console. -/
def text (c : Console) : String :=
  CodePoint.toText c.written.toList

end Console

end WordMachine
