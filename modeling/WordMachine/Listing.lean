import WordMachine.Assembly.Workspace

/-!
# Listings

A listing shows every word of a memory with its address, and the row that made it where that is
known.

## Main definitions

* `listing`: the listing of words
-/

namespace WordMachine

/-- The row with an index among the rows of a program. -/
def rowAt? (rows : List Row) (index : Int) : Option Row :=
  if 0 ≤ index then rows[index.toNat]? else none

/-- The line of a word: its address, its value, and, if a row made it, the row's index and text. -/
def listingLine (map : AddressMap) (rows : List Row) (address w : Int) : String :=
  let shown := Word.hex address ++ " " ++ Word.hex w
  match map[address]? with
  | none => shown
  | some index =>
    shown ++ " " ++ Text.padStart 4 ' ' (Numeral.decimal index) ++ "  " ++
      ((rowAt? rows index).map Row.text).getD ""

/-- The two lines above the words. -/
def listingHeader : List String :=
  ["ADDR   WORD   LINE  SOURCE", String.ofList (List.replicate 48 '-')]

/-- The listing of words in a given order. -/
def listing (words : List (Int × Int)) (map : AddressMap) (rows : List Row) : String :=
  "\n".intercalate (listingHeader ++ words.map fun (address, w) => listingLine map rows address w)

/-- The listing of a memory. -/
def Memory.listing (m : Memory) (map : AddressMap) (rows : List Row) : String :=
  WordMachine.listing (m.dump.map fun (address, w) => ((address : Int), w)) map rows

end WordMachine
