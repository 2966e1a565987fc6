import WordMachine.Assembly.Draft
import WordMachine.Source.Statement

/-!
# Workspaces

A workspace assembles a program into a memory. The first pass lays out the words, with placeholders
for symbols, and a pool of literals behind them; the second pass puts the addresses of the symbols
into their places. A workspace can be used again: what it shows is the outcome of the last
assembly, and a failed assembly leaves behind what was written before the failure.

## Main definitions

* `resolve`: puts the addresses of symbols into memory
* `Workspace`: a program, its base address, a memory, and the outcome of the last assembly
* `Workspace.layOut`, `Workspace.patch`, `Workspace.assemble`: the two passes, and both in turn
* `Workspace.entryAddress`: where the program is to be entered
-/

namespace WordMachine

/-- The index of the row that made the word at an address. -/
abbrev AddressMap : Type := Std.ExtTreeMap Int Int

/-- Memory after the addresses of symbols are put into it, one reference after the other, up to the
first that fails. -/
def resolve (m : Memory) (symbols : SymbolTable) :
    List (Int × String) → Except Failure Unit × Memory
  | [] => (.ok (), m)
  | (address, symbol) :: references =>
    match symbols[symbol]? with
    | none => (.error (.refused { complaint := .undefinedLabel symbol address }), m)
    | some target =>
      match m.write address target with
      | .error e => (.error (.negativeAddress e), m)
      | .ok m => resolve m symbols references

/-- A program, a memory to assemble it into, and the outcome of the last assembly. -/
structure Workspace where
  /-- The memory. -/
  memory : Memory := ∅
  /-- The address of the first word. -/
  base : Int := 0
  /-- The program. -/
  rows : List Row := []
  /-- The labels of the program. -/
  labels : SymbolTable := ∅
  /-- The pool addresses of the literals. -/
  literals : SymbolTable := ∅
  /-- The symbols to be put into memory, with their places. -/
  references : List (Int × String) := []
  /-- The address behind the last word. -/
  address : Int := base
  /-- The address of the row that begins the program. -/
  start : Option Int := none
  /-- The label where the program is entered. -/
  entry : Option String := none
  /-- The rows that made the words. -/
  addressMap : AddressMap := ∅

namespace Workspace

/-- An address map in which words at consecutive addresses belong to given rows. -/
def mapRows (map : AddressMap) (address : Int) : List Nat → AddressMap
  | [] => map
  | row :: rows => mapRows (map.insert address row) (address + 1) rows

/-- A symbol table in which literals have consecutive addresses. -/
def placeLiterals (address : Int) : List Literal → SymbolTable → SymbolTable
  | [], symbols => symbols
  | literal :: literals, symbols =>
    placeLiterals (address + 1) literals (symbols.insert literal.token address)

/-- The workspace with the words of a draft in memory. -/
def store (w : Workspace) (d : Draft) : Workspace :=
  { w with
    memory := (w.memory.load d.words w.base).2
    labels := d.labels
    literals := ∅
    references := d.references
    address := d.address
    start := d.start
    entry := d.entry
    addressMap := mapRows ∅ w.base d.owners }

/-- The workspace with a pool of literals behind the last word. -/
def storePool (w : Workspace) (pool : List Literal) : Workspace :=
  { w with
    memory := (w.memory.load (pool.map (·.value)) w.address).2
    literals := placeLiterals w.address pool ∅
    address := w.address + pool.length
    addressMap := mapRows w.addressMap w.address (pool.map (·.row)) }

/-- The first pass: the words of the program and the pool of its literals. -/
def layOut (w : Workspace) : Except Failure Unit × Workspace :=
  match Draft.ofRows w.base w.rows with
  | (.ok (), d) => (.ok (), (w.store d).storePool d.pool)
  | (.error f, d) => (.error f, w.store d)

/-- The addresses of all symbols: a literal stands for its pool word even if a label is spelled
like it. -/
def symbols (w : Workspace) : SymbolTable :=
  w.labels ∪ w.literals

/-- A symbol has the address of its pool word if it is a literal, else that of the label. -/
theorem getElem?_symbols (w : Workspace) (symbol : String) :
    w.symbols[symbol]? = (w.literals[symbol]?).or w.labels[symbol]? :=
  Std.ExtTreeMap.getElem?_union

/-- The second pass: the addresses of the symbols in their places. -/
def patch (w : Workspace) : Except Failure Unit × Workspace :=
  let (result, memory) := resolve w.memory w.symbols w.references
  (result, { w with memory })

/-- Both passes; the answer is the map from addresses to rows. -/
def assemble (w : Workspace) : Except Failure AddressMap × Workspace :=
  match w.layOut with
  | (.error f, w) => (.error f, w)
  | (.ok (), w) =>
    match w.patch with
    | (.error f, w) => (.error f, w)
    | (.ok (), w) => (.ok w.addressMap, w)

/-- The address where the program is to be entered: that of the label that its beginning names,
else that of its beginning, else the base address. -/
def entryAddress (w : Workspace) : Except Diagnostic Int :=
  match w.entry with
  | some label =>
    match w.labels[label]? with
    | some address => .ok address
    | none =>
      let place := (w.start.filter (· ≠ 0)).getD w.base
      .error { complaint := .undefinedLabel label place }
  | none => .ok (w.start.getD w.base)

/-- The workspace of a program text, before its assembly. -/
def ofSource (memory : Memory) (base : Int) (source : String) : Except Diagnostic Workspace := do
  let rows ← readSource source
  return { memory, base, rows }

end Workspace

end WordMachine
