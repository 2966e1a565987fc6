import Std.Data.ExtTreeMap
import WordMachine.Word

/-!
# Memory

Memory holds a word at every address that was ever written, and reads as zero everywhere else.
Addresses may be any integers when they are read; only addresses from zero on can be written.

## Main definitions

* `Memory`: the words written so far, in the order of their addresses
* `Memory.get?`, `Memory.read`: the word written at an address, and the word read there
* `Memory.write`, `Memory.writeAll`, `Memory.load`: storing one word, several words in turn, and
  words at consecutive addresses
* `Memory.dump`: all words written, by increasing address

## Main results

* `Memory.ext`: memories with the same words are equal
* `Memory.get?_write`, `Memory.read_write`: the last word written at an address is the one found
* `Memory.mem_dump`: the dump holds the words written
-/

namespace WordMachine

/-- A word was to be written at an address below zero. -/
structure NegativeAddress where
  /-- The address. -/
  address : Int
deriving DecidableEq, Repr

/-- What a negative address is reported as, if it can be written. -/
def NegativeAddress.message (e : NegativeAddress) : String :=
  if Numeral.isUnwritable e.address then Numeral.unwritableText
  else "Negative memory address: " ++ Numeral.decimal e.address

/-- The words written so far. -/
structure Memory where
  /-- The words by address. -/
  words : Std.ExtTreeMap Nat Int := ∅

namespace Memory

instance : EmptyCollection Memory := ⟨{}⟩

instance : Inhabited Memory := ⟨∅⟩

instance : DecidableEq Memory := fun m n =>
  decidable_of_iff (m.words = n.words) ⟨fun h => by cases m; cases n; simp_all, fun h => by rw [h]⟩

/-- The word written at an address. -/
def get? (m : Memory) : Int → Option Int
  | .ofNat a => m.words[a]?
  | .negSucc _ => none

/-- The word read at an address: zero where none was written. -/
def read (m : Memory) (address : Int) : Int :=
  (m.get? address).getD 0

/-- Memory with a word written at an address. -/
def write (m : Memory) (address : Int) (w : Int) : Except NegativeAddress Memory :=
  match address with
  | .ofNat a => .ok ⟨m.words.insert a w⟩
  | .negSucc a => .error ⟨.negSucc a⟩

/-- Memory after words are written one after the other, up to the first address that cannot be
written. -/
def writeAll (m : Memory) : List (Int × Int) → Except NegativeAddress Unit × Memory
  | [] => (.ok (), m)
  | (address, w) :: rest =>
    match m.write address w with
    | .ok m => m.writeAll rest
    | .error e => (.error e, m)

/-- Words with the consecutive addresses they have from a base on. -/
def placed (base : Int) : List Int → List (Int × Int)
  | [] => []
  | w :: ws => (base, w) :: placed (base + 1) ws

/-- Memory after words are written at consecutive addresses. -/
def load (m : Memory) (ws : List Int) (base : Int) : Except NegativeAddress Unit × Memory :=
  m.writeAll (placed base ws)

/-- Whether a word was written at an address. -/
def contains (m : Memory) (address : Int) : Bool :=
  (m.get? address).isSome

/-- The number of addresses written. -/
def size (m : Memory) : Nat :=
  m.words.size

/-- All words written with their addresses, by increasing address. -/
def dump (m : Memory) : List (Nat × Int) :=
  m.words.toList

/-! ## The words found -/

@[simp] theorem get?_empty (a : Int) : (∅ : Memory).get? a = none := by
  cases a with
  | ofNat a => exact Std.ExtTreeMap.getElem?_empty
  | negSucc a => rfl

@[simp] theorem read_empty (a : Int) : (∅ : Memory).read a = 0 := by
  simp [read]

/-- Memories with the same words are equal. -/
theorem ext {m n : Memory} (h : ∀ a, m.get? a = n.get? a) : m = n := by
  cases m
  cases n
  congr 1
  exact Std.ExtTreeMap.ext_getElem? fun a => h (.ofNat a)

/-- The word written last at an address is the one found there. -/
theorem get?_write {m n : Memory} {a : Int} {w : Int} (h : m.write a w = .ok n) (b : Int) :
    n.get? b = if b = a then some w else m.get? b := by
  cases a with
  | negSucc a => simp [write] at h
  | ofNat a =>
    obtain rfl : _ = n := Except.ok.inj h
    cases b with
    | negSucc b => simp [get?]
    | ofNat b =>
      by_cases hab : a = b
      · simp [get?, hab]
      · have hba : ¬(b : Int) = a := by omega
        simp [get?, Std.ExtTreeMap.getElem?_insert, hab, hba]

theorem read_write {m n : Memory} {a : Int} {w : Int} (h : m.write a w = .ok n) (b : Int) :
    n.read b = if b = a then w else m.read b := by
  rw [read, get?_write h, read]
  split <;> rfl

/-- A word can be written at an address exactly if it is not below zero. -/
theorem write_eq_error_iff {m : Memory} {a : Int} {w : Int} {e : NegativeAddress} :
    m.write a w = .error e ↔ a < 0 ∧ e = ⟨a⟩ := by
  cases a with
  | ofNat a => simp [write, Int.not_lt.2 (Int.natCast_nonneg a)]
  | negSucc a =>
    simp only [write, Except.error.injEq, Int.negSucc_lt_zero, true_and]
    exact eq_comm

/-- The dump holds the words written. -/
theorem mem_dump {m : Memory} {a : Nat} {w : Int} : (a, w) ∈ m.dump ↔ m.get? a = some w :=
  Std.ExtTreeMap.mem_toList_iff_getElem?_eq_some

end Memory

end WordMachine
