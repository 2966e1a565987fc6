import WordMachine.Text.CodePoint
import WordMachine.Memory

/-!
# Faults

Why the machine stops short of the end of a program.

## Main definitions

* `Fault`: the causes, with `Fault.message`
* `Fault.ofLimit`: the fault of a program that took the steps it was allowed
-/

namespace WordMachine

/-- Why the machine stops short of the end of a program. -/
inductive Fault where
  /-- An instruction names a register that does not exist. -/
  | invalidRegister (index : Int)
  /-- The word at an address is no instruction. -/
  | undefinedOpcode (opcode : Nat) (address : Int)
  /-- The program took the steps it was allowed and has not ended. -/
  | stepLimit (limit : Int) (address : Int)
  /-- The number that a fault should tell has more digits than can be written. -/
  | unwritable
  /-- A word was to be written at an address below zero. -/
  | negativeAddress (address : Int)
  /-- A line of input is due and none is there. -/
  | inputPending (prompt : String)
  /-- A line of input is due and what comes next cannot be decoded, for the given reason. -/
  | undecodable (reason : String)
  /-- A text that was put out cannot be written. -/
  | unencodable (cause : Unencodable)
deriving DecidableEq, Repr

/-- What keeps a text from being written, and where it stands. -/
def Unencodable.message (e : Unencodable) : String :=
  let reason := ": surrogates not allowed"
  if e.count = 1 then
    "'utf-8' codec can't encode character '\\u" ++ String.ofList (Nat.toDigits 16 e.first.val) ++
      "' in position " ++ Numeral.decimal e.position ++ reason
  else
    "'utf-8' codec can't encode characters in position " ++ Numeral.decimal e.position ++ "-" ++
      Numeral.decimal (e.position + e.count - 1 : Nat) ++ reason

/-- The message of a fault. -/
def Fault.message : Fault → String
  | invalidRegister index => "Invalid general register: GR" ++ Numeral.decimal index
  | undefinedOpcode opcode address =>
    "Undefined opcode #" ++ Numeral.hexadecimal 2 opcode ++ " at " ++ Word.signedHex address
  | stepLimit limit address =>
    "Stopped after " ++ Numeral.decimal limit ++ " steps at " ++ Word.signedHex address
  | unwritable => Numeral.unwritableText
  | negativeAddress address => NegativeAddress.message ⟨address⟩
  | inputPending prompt => if prompt = "" then "input pending" else prompt
  | undecodable reason => reason
  | unencodable cause => cause.message

/-- The fault of a program that took the steps it was allowed: it tells their number, if that can be
written. -/
def Fault.ofLimit (limit address : Int) : Fault :=
  if Numeral.isUnwritable limit then unwritable else stepLimit limit address

end WordMachine
