import WordMachine.Instruction

/-!
# Diagnostics

What can be wrong with a program, and how it is reported: a complaint says what is wrong, a
diagnostic also says where.

## Main definitions

* `Complaint`: the causes for which a program is refused, with `Complaint.text`
* `Complaint.Kind`: the classes of causes, six of the assembler's own and one of numbers
* `Diagnostic`: a complaint with its line, with `Diagnostic.message`
-/

namespace WordMachine

/-- What is wrong with a program. -/
inductive Complaint where
  /-- A line has more operands than three. -/
  | tooManyOperands (count : Nat)
  /-- A mnemonic names no instruction. -/
  | unknownMnemonic (name : String)
  /-- A reference at an address names a label that is defined nowhere. -/
  | undefinedLabel (label : String) (address : Int)
  /-- A label is defined twice. -/
  | duplicateLabel (label : String)
  /-- A macro needs a stack, which the machine lacks. -/
  | unsupported (name : String)
  /-- A label is spelled like a register or a number. -/
  | invalidLabelName (label : String)
  /-- An instruction lacks its operands. -/
  | missingOperand (name : String)
  /-- An instruction has no form with two registers. -/
  | noRegisterForm (name : String)
  /-- An instruction has operands and takes none. -/
  | unexpectedOperands (name : String) (operands : List String)
  /-- The first operand is no register. -/
  | firstOperandNotRegister (name : String)
  /-- The address and index operands are too few or too many. -/
  | expectedAddress (name : String)
  /-- A register stands where an address belongs. -/
  | registerAsAddress (name operand : String)
  /-- The index operand is no index register. -/
  | badIndexRegister (name operand : String)
  /-- A constant definition has no operand, or more than one. -/
  | expectedOneConstant
  /-- A constant definition has a string of no or of several characters. -/
  | badString (operand : String)
  /-- An input or output macro lacks its two operands. -/
  | expectedBuffer (name : String)
  /-- A supervisor call lacks its three operands. -/
  | expectedCall
  /-- The sub-type of a supervisor call is no number of four bits. -/
  | badSubtype (operand : String)
  /-- A literal holds no constant. -/
  | badLiteral (operand : String)
  /-- A string or a register stands where an address belongs. -/
  | notAnAddress (operand : String)
  /-- A decimal number has more digits than can be read. -/
  | overlongNumber (digits : Nat)
deriving DecidableEq, Repr

namespace Complaint

/-- The classes of complaints. -/
inductive Kind where
  /-- A line cannot be split into fields. -/
  | line
  /-- A mnemonic is unknown. -/
  | mnemonic
  /-- A label is undefined. -/
  | reference
  /-- A label is defined twice. -/
  | duplicate
  /-- A macro is not supported. -/
  | pseudo
  /-- The operands or the label do not fit. -/
  | operand
  /-- A number cannot be read: this is no error of the assembler's own. -/
  | number
deriving DecidableEq, Repr

/-- The class of a complaint. -/
def kind : Complaint → Kind
  | tooManyOperands _ => .line
  | unknownMnemonic _ => .mnemonic
  | undefinedLabel _ _ => .reference
  | duplicateLabel _ => .duplicate
  | unsupported _ => .pseudo
  | overlongNumber _ => .number
  | _ => .operand

/-- The wording of a complaint. -/
def text : Complaint → String
  | tooManyOperands count => "Too many operands (" ++ Numeral.decimal count ++ ")"
  | unknownMnemonic name => "Unknown mnemonic: " ++ name
  | undefinedLabel label address =>
    "Undefined label: '" ++ label ++ "' (referenced at " ++ Word.signedHex address ++ ")"
  | duplicateLabel label => "Duplicate label: '" ++ label ++ "'"
  | unsupported name => "Unsupported pseudo-instruction: " ++ name
  | invalidLabelName label => "Invalid label name: '" ++ label ++ "'"
  | missingOperand name => name ++ ": missing operand"
  | noRegisterForm name => name ++ ": register-register form not supported"
  | unexpectedOperands name operands =>
    name ++ ": unexpected operands " ++ ",".intercalate operands
  | firstOperandNotRegister name => name ++ ": first operand must be GR0-GR7"
  | expectedAddress name => name ++ ": expected adr[,x]"
  | registerAsAddress name operand => name ++ ": address operand cannot be " ++ operand
  | badIndexRegister name operand => name ++ ": index register must be GR1-GR7, got " ++ operand
  | expectedOneConstant => "DC: exactly one constant expected"
  | badString operand => "DC: only one-character strings are supported: " ++ operand
  | expectedBuffer name => name ++ ": expected buffer,length"
  | expectedCall => "SVC: expected type,buffer,length"
  | badSubtype operand => "SVC: bad sub-type " ++ operand
  | badLiteral operand => "Bad literal: " ++ operand
  | notAnAddress operand => "Not an address: " ++ operand
  | overlongNumber digits => Numeral.unreadableText digits

end Complaint

/-- A complaint with the line it is about. -/
structure Diagnostic where
  /-- What is wrong. -/
  complaint : Complaint
  /-- The number of the line; zero if the complaint is about no line. -/
  line : Int := 0
  /-- The text of the line. -/
  lineText : String := ""
deriving DecidableEq, Repr

/-- The message of a diagnostic: the line's number, if there is one, and the complaint. -/
def Diagnostic.message (d : Diagnostic) : String :=
  if d.line = 0 then d.complaint.text
  else "Line " ++ Numeral.decimal d.line ++ ": " ++ d.complaint.text

end WordMachine
