import Std.Data.ExtTreeMap
import WordMachine.Assembly.Directive
import WordMachine.Memory

/-!
# Drafts

The first pass over a program lays out its cells one behind the other and binds its labels. It
ends with a draft: object code in which the symbols are still open.

## Main definitions

* `SymbolTable`: the addresses of symbols
* `Failure`: why a program cannot be assembled
* `Draft`: object code with open symbols, and the labels bound so far
* `Draft.addRow`, `Draft.ofRows`: the draft with one more row, and the draft of a whole program
* `Draft.references`: the cells that wait for symbols
* `Draft.pool`: the literals of the draft, each once
-/

namespace WordMachine

/-- The addresses of symbols. -/
abbrev SymbolTable : Type := Std.ExtTreeMap String Int

/-- Why a program cannot be assembled. -/
inductive Failure where
  /-- The program is refused. -/
  | refused (diagnostic : Diagnostic)
  /-- A word lies at an address below zero. -/
  | negativeAddress (fault : NegativeAddress)
deriving DecidableEq, Repr

/-- The message of a failure. -/
def Failure.message : Failure → String
  | refused d => d.message
  | negativeAddress e => e.message

/-- A literal that the program uses: its pool word holds the value. -/
structure Literal where
  /-- The literal as it is written. -/
  token : String
  /-- The value of the pool word. -/
  value : Int
  /-- The index of the first row that uses the literal. -/
  row : Nat
deriving DecidableEq, Repr

/-- Object code whose symbols are open. -/
structure Draft where
  /-- The address of the first cell. -/
  base : Int
  /-- The cells so far, each with the index of its row. -/
  cells : Array (Cell × Nat) := #[]
  /-- The labels bound so far. -/
  labels : SymbolTable := ∅
  /-- The address of the row that begins the program. -/
  start : Option Int := none
  /-- The label where the program is entered. -/
  entry : Option String := none
  /-- The cell for which there is no address. -/
  refused : Option Cell := none

namespace Draft

/-- The address of the next cell. -/
def address (d : Draft) : Int :=
  d.base + d.cells.size

/-- The draft in which a row's label is bound to the next address. -/
def bindLabel (d : Draft) (row : Row) : Except Complaint Draft :=
  if row.label = "" then .ok d
  else if Operand.isRegisterLike row.label || (Operand.number? row.label).isSome then
    .error (.invalidLabelName row.label)
  else
    Operand.readable row.label <|
      if row.label ∈ d.labels then .error (.duplicateLabel row.label)
      else .ok { d with labels := d.labels.insert row.label d.address }

/-- The draft in which the beginning of the program is noted, if it is the row that begins it. -/
def noteStart (d : Draft) (row : Row) : Draft :=
  if row.directive? = some .start then
    { d with start := some d.address, entry := row.given.head?.or d.entry }
  else d

/-- The draft with the cells of a row, up to the first complaint. -/
def addItems (d : Draft) (row : Row) (index : Nat) : List Item → Except Failure Unit × Draft
  | [] => (.ok (), d)
  | .error c :: _ => (.error (.refused (row.diagnostic index c)), d)
  | .ok cell :: items =>
    if d.address < 0 then (.error (.negativeAddress ⟨d.address⟩), { d with refused := some cell })
    else addItems { d with cells := d.cells.push (cell, index) } row index items

/-- The draft with one more row. -/
def addRow (d : Draft) (row : Row) (index : Nat) : Except Failure Unit × Draft :=
  match d.bindLabel row with
  | .error c => (.error (.refused (row.diagnostic index c)), d)
  | .ok d => (d.noteStart row).addItems row index row.items

/-- The draft with more rows, which are counted from an index on. -/
def addRows (d : Draft) (index : Nat) : List Row → Except Failure Unit × Draft
  | [] => (.ok (), d)
  | row :: rows =>
    match d.addRow row index with
    | (.ok (), d) => d.addRows (index + 1) rows
    | (.error f, d) => (.error f, d)

/-- The draft of a program that starts at a base address. -/
def ofRows (base : Int) (rows : List Row) : Except Failure Unit × Draft :=
  addRows { base } 0 rows

/-- The symbols that cells wait for, with the addresses of the cells. -/
def references (d : Draft) : List (Int × String) :=
  (d.cells.toList.map (·.1) ++ d.refused.toList).zipIdx.filterMap fun (cell, i) =>
    cell.symbol?.map fun symbol => (d.base + i, symbol)

/-- A list of literals with one more, unless it is there. -/
def noteLiteral (pool : List Literal) : Cell × Nat → List Literal
  | (.literal token value, row) =>
    if pool.any (·.token == token) then pool else pool ++ [⟨token, value, row⟩]
  | _ => pool

/-- The literals of the draft in the order of their first use. -/
def pool (d : Draft) : List Literal :=
  d.cells.toList.foldl noteLiteral []

/-- The words of the draft, with placeholders where symbols are open. -/
def words (d : Draft) : List Int :=
  d.cells.toList.map (·.1.placeholder)

/-- The indices of the rows that made the words of the draft. -/
def owners (d : Draft) : List Nat :=
  d.cells.toList.map (·.2)

end Draft

end WordMachine
