import WordMachine.Text.Blank
import WordMachine.Text.Quoted
import WordMachine.Text.Padding
import WordMachine.Text.UpperCase
import WordMachine.Text.IntegerText
import WordMachine.Text.CodePoint
import WordMachine.Text.Line
import WordMachine.Memory
import WordMachine.Registers
import WordMachine.Instruction
import WordMachine.Source.Operand
import WordMachine.Source.Statement
import WordMachine.Assembly.Workspace
import WordMachine.Machine.Session
import WordMachine.Listing
import WordMachine.Journal.Basic
import WordMachine.Journal.Report
import WordMachine.Command.Outcome
import WordMachine.Main
import WordMachine.Proofs.Relocation
import WordMachine.Proofs.Agreement
import WordMachine.Proofs.Stepping
import WordMachine.Proofs.Failures
import WordMachine.Proofs.Reuse
import WordMachine.Proofs.InstructionSet
import WordMachine.Proofs.OperandForms
import WordMachine.Proofs.Limits
import WordMachine.Proofs.LiteralPool
import WordMachine.Proofs.Refusal
import WordMachine.Proofs.Quoting
import WordMachine.Proofs.Reachability
import WordMachine.Proofs.Tracing
import WordMachine.Proofs.Exchanges
import WordMachine.Proofs.Interchange
import WordMachine.Proofs.Sittings
import WordMachine.Proofs.UpperCase
import WordMachine.Proofs.Fields
import WordMachine.Proofs.Printing
import WordMachine.Proofs.Renaming
import WordMachine.Proofs.References
import WordMachine.Proofs.Echo
import WordMachine.Proofs.Invariants
import WordMachine.Proofs.Awaiting
import WordMachine.Proofs.Likeness
import WordMachine.Proofs.Reading
import WordMachine.Proofs.Macros
import WordMachine.Proofs.AddressMap
import WordMachine.Proofs.Unwritten
import WordMachine.Proofs.LineNumbers
import WordMachine.Proofs.Lineage
import WordMachine.Proofs.Delivery
import WordMachine.Proofs.Outcomes
import WordMachine.Proofs.OperandLists
import WordMachine.Proofs.InstructionWords
import WordMachine.Proofs.Notations
import WordMachine.Proofs.WordStore
