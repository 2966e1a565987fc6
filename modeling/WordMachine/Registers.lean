import WordMachine.Word

/-!
# Registers

The eight general registers, the program counter and the three condition flags, with the counter
of the instructions executed. Registers one to seven also serve as index registers.

## Main definitions

* `Flags`: the condition flags, and `Flags.ofResult`, the flags that summarise a result
* `Registers`: the register set
* `Registers.get?`, `Registers.set?`: a general register by its number
* `Registers.display`: the line that shows the registers in a listing

## Main results

* `Registers.get?_set?`: a general register holds what was put into it last
-/

namespace WordMachine

/-- The condition flags. -/
structure Flags where
  /-- The overflow flag, which no instruction raises. -/
  overflow : Int := 0
  /-- The sign flag: the result was negative. -/
  sign : Int := 0
  /-- The zero flag: the result was zero. -/
  zero : Int := 0
deriving DecidableEq, Repr, Inhabited

namespace Flags

/-- The flags that summarise a result by its sign. -/
def ofResult (w : Int) : Flags :=
  if 0 < w then ⟨0, 0, 0⟩ else if w = 0 then ⟨0, 0, 1⟩ else ⟨0, 1, 0⟩

/-- The last result was zero. -/
def isZero (f : Flags) : Bool :=
  f.zero == 1

/-- The last result was negative. -/
def isNegative (f : Flags) : Bool :=
  f.sign == 1

end Flags

/-- The register set. -/
structure Registers where
  /-- The general registers. -/
  general : Vector Int 8 := Vector.replicate 8 0
  /-- The program counter: the address of the current instruction. -/
  counter : Int := 0
  /-- The condition flags. -/
  flags : Flags := {}
  /-- The number of instructions executed. -/
  steps : Nat := 0
deriving DecidableEq, Repr, Inhabited

namespace Registers

/-- The contents of a general register. -/
def get? (r : Registers) (index : Int) : Option Int :=
  if 0 ≤ index then r.general[index.toNat]? else none

/-- The registers with a general register set. -/
def set? (r : Registers) (index : Int) (w : Int) : Option Registers :=
  if h : 0 ≤ index ∧ index < 8 then
    some { r with general := r.general.set index.toNat w (by omega) }
  else none

/-- The registers whose first general registers hold given words. -/
def ofWords (ws : List Int) : Registers where
  general := Vector.ofFn fun i => ws[i.val]?.getD 0

/-- The line that shows the registers: the program counter, the general registers and the flags. -/
def display (r : Registers) : String :=
  let shown := r.general.toList.zipIdx.map fun (w, i) =>
    "GR" ++ Numeral.decimal i ++ "=" ++ Word.hex w
  "PC=" ++ Word.signedHex r.counter ++ " " ++ " ".intercalate shown ++ " FR=[OF=" ++
    Numeral.decimal r.flags.overflow ++ " SF=" ++ Numeral.decimal r.flags.sign ++ " ZF=" ++
    Numeral.decimal r.flags.zero ++ "]"

/-- A general register holds what was put into it last. -/
theorem get?_set? {r s : Registers} {i : Int} {w : Int} (h : r.set? i w = some s) (j : Int) :
    s.get? j = if j = i then some w else r.get? j := by
  unfold set? at h
  split at h
  · next hi =>
    obtain rfl : _ = s := Option.some.inj h
    unfold get?
    by_cases hj : 0 ≤ j
    · simp only [hj, if_true, Vector.getElem?_set]
      by_cases hji : j = i
      · simp [hji]
      · rw [if_neg (by omega), if_neg hji]
    · rw [if_neg hj, if_neg hj, if_neg (by omega)]
  · cases h

/-- The general registers are those numbered from zero to seven. -/
theorem get?_isSome_iff {r : Registers} {i : Int} : (r.get? i).isSome ↔ 0 ≤ i ∧ i < 8 := by
  unfold get?
  split
  · next h =>
    by_cases hi : i.toNat < 8
    · simp only [Vector.getElem?_eq_getElem hi, Option.isSome_some, true_iff]
      omega
    · simp only [Vector.getElem?_eq_none (Nat.le_of_not_lt hi), Option.isSome_none]
      simp
      omega
  · next h => simp [h]

theorem set?_isSome_iff {r : Registers} {i : Int} {w : Int} :
    (r.set? i w).isSome ↔ 0 ≤ i ∧ i < 8 := by
  unfold set?
  split <;> simp [*]

end Registers

end WordMachine
