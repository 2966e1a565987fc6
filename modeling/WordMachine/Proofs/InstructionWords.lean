import WordMachine.Proofs.InstructionSet
import WordMachine.Proofs.Lockstep

/-!
# Instruction words

A program may jump into its data, so any integer can stand at the program counter, also one that is
negative or wider than sixteen bits. Its three fields are cut out of it by masks and shifts, in
two's complement without end, and they are the digits of its residue modulo 65536: put together
again they give this residue, and an instruction word that was put together gives its fields back.
The bits above the sixteenth play no part in what is executed.

## Main definitions

* `Word.IsSplit`: a word is taken apart into three fields
* `Machine.SameInstruction`: two machines are at the same instruction
* `Machine.ReadsItself`: an instruction uses its own word as an operand
* `Memory.Recoded`: two memories that differ at most in the high bits of one word

## Main results

* `Word.land_mask`: masks and shifts are divisions and remainders, for all integers
* `Word.isSplit`, `Word.isSplit_encode`: words are taken apart and put together
* `Machine.step_recoded`: a step does the same whatever the high bits of its instruction word are
* `Machine.decoded_exactly`: all of it, for the words at the program counters of two machines
-/

namespace WordMachine

/-! ## Fields -/

namespace Word

/-- A word is taken apart into an operation code and two register fields. -/
structure IsSplit (w : Int) (o f s : Nat) : Prop where
  /-- The operation code is the byte above the lowest one. -/
  opcode : (o : Int) = w.land 0xFF00 >>> (8 : Nat)
  /-- The first field is the upper half of the lowest byte. -/
  first : (f : Int) = w.land 0xF0 >>> (4 : Nat)
  /-- The second field is the lower half of the lowest byte. -/
  second : (s : Int) = w.land 0x0F
  opcode_lt : o < 256
  first_lt : f < 16
  second_lt : s < 16
  /-- Put together again the fields give the low sixteen bits of the word. -/
  encode : Word.encode o f s = w % 65536
  /-- So they show the same four digits. -/
  hex : Word.hex (Word.encode o f s) = Word.hex w

/-- A mask of `j` bits from the bit `k` on, shifted down, takes the digit at `k` of a number. -/
theorem nat_and_mask (n j k : Nat) : (n &&& (2 ^ j - 1) * 2 ^ k) >>> k = n / 2 ^ k % 2 ^ j := by
  apply Nat.eq_of_testBit_eq
  intro i
  rw [Nat.testBit_shiftRight, Nat.testBit_and, Nat.testBit_mul_two_pow, Nat.testBit_mod_two_pow,
    Nat.testBit_div_two_pow, Nat.testBit_two_pow_sub_one]
  simp [Nat.add_comm, Bool.and_comm]

/-- The bits that a number does not have, under the same mask. -/
theorem nat_ldiff_mask (n j k : Nat) :
    (Nat.ldiff ((2 ^ j - 1) * 2 ^ k) n) >>> k = 2 ^ j - (n / 2 ^ k % 2 ^ j + 1) := by
  have hlt : n / 2 ^ k % 2 ^ j < 2 ^ j := Nat.mod_lt _ (Nat.two_pow_pos j)
  apply Nat.eq_of_testBit_eq
  intro i
  rw [Nat.testBit_shiftRight, Nat.testBit_ldiff, Nat.testBit_mul_two_pow,
    Nat.testBit_two_pow_sub_succ hlt, Nat.testBit_mod_two_pow, Nat.testBit_div_two_pow,
    Nat.testBit_two_pow_sub_one]
  by_cases hi : i < j <;> simp [hi, Nat.add_comm]

/-- A mask and a shift take a digit of an integer, also of a negative one. -/
theorem land_mask (w : Int) (j k : Nat) :
    w.land ((2 ^ j - 1) * 2 ^ k : Nat) >>> k = w / 2 ^ k % 2 ^ j := by
  -- A negative integer has the bits that the number under it does not have.
  cases w with
  | ofNat n =>
    have hland : Int.land (Int.ofNat n) ((2 ^ j - 1) * 2 ^ k : Nat) =
        (n &&& (2 ^ j - 1) * 2 ^ k : Nat) := rfl
    rw [hland, ← Int.natCast_shiftRight, nat_and_mask]
    push_cast
    rfl
  | negSucc n =>
    have hland : Int.land (Int.negSucc n) ((2 ^ j - 1) * 2 ^ k : Nat) =
        (Nat.ldiff ((2 ^ j - 1) * 2 ^ k) n : Nat) := rfl
    have hlt : n / 2 ^ k % 2 ^ j < 2 ^ j := Nat.mod_lt _ (Nat.two_pow_pos j)
    have hdiv : Int.negSucc n / 2 ^ k = Int.negSucc (n / 2 ^ k) := by
      rw [← Nat.shiftRight_eq_div_pow, ← Int.negSucc_shiftRight, Int.shiftRight_eq_div_pow]
      push_cast
      rfl
    rw [hland, ← Int.natCast_shiftRight, nat_ldiff_mask, hdiv,
      Int.negSucc_emod _ (Int.pow_pos (by decide)), Nat.cast_sub hlt]
    push_cast
    ring

/-- Every word is taken apart into its three fields. -/
theorem isSplit (w : Int) : IsSplit w (Word.opcode w) (Word.first w) (Word.second w) := by
  have hencode : Word.encode (Word.opcode w) (Word.first w) (Word.second w) = w % 65536 := by
    rw [encode_natCast _ (first_lt w) (second_lt w), emod_eq_fields w]
    push_cast
    rfl
  refine ⟨?_, ?_, ?_, opcode_lt w, first_lt w, second_lt w, hencode, ?_⟩
  -- the three masks are the general one for one width and place
  · have hmask := land_mask w 8 8
    norm_num at hmask
    rw [hmask, Word.opcode]
    omega
  · have hmask := land_mask w 4 4
    norm_num at hmask
    rw [hmask, Word.first]
    omega
  · have hmask := land_mask w 4 0
    norm_num at hmask
    rw [hmask, Word.second]
    omega
  · rw [hencode, Word.hex, Word.hex, Int.emod_emod]

/-- Fields of the right widths are those of the word that they are put together to. -/
theorem isSplit_encode {o f s : Nat} (ho : o < 256) (hf : f < 16) (hs : s < 16) :
    IsSplit (Word.encode o f s) o f s := by
  have hsplit := isSplit (Word.encode o f s)
  rwa [opcode_encode hf hs ho, first_encode hf hs, second_encode hf hs] at hsplit

/-- The fields of a word depend on its residue only, and determine it. -/
theorem fields_eq_iff {v w : Int} : v % 65536 = w % 65536 ↔
    Word.opcode v = Word.opcode w ∧ Word.first v = Word.first w ∧
      Word.second v = Word.second w := by
  rw [emod_eq_fields v, emod_eq_fields w]
  have hv := And.intro (first_lt v) (second_lt v)
  have hw := And.intro (first_lt w) (second_lt w)
  omega

end Word

/-! ## Memories that differ in one word -/

/-- Memories that read alike except at one address, where the words have the same low sixteen
bits. -/
structure Memory.Recoded (p : Int) (m n : Memory) : Prop where
  /-- At all other addresses the words are the same. -/
  elsewhere : ∀ a, a ≠ p → n.read a = m.read a
  /-- The low sixteen bits are the same at the address. -/
  word : n.read p % 65536 = m.read p % 65536

namespace Memory

theorem Recoded.residue {p : Int} {m n : Memory} (h : m.Recoded p n) (a : Int) :
    n.read a % 65536 = m.read a % 65536 := by
  by_cases ha : a = p
  · rw [ha, h.word]
  · rw [h.elsewhere a ha]

/-- A word that is written in both memories is the same in both. -/
theorem keptByWrites_recoded (p : Int) : KeptByWrites (Recoded p) := by
  intro m n m' n' a w h hm hn
  refine ⟨?_, ?_⟩
  · intro b hb
    rw [read_write hm, read_write hn, h.elsewhere b hb]
  · rw [read_write hm, read_write hn]
    split
    · rfl
    · exact h.word

end Memory

/-! ## The core -/

namespace Core.Paired

variable {c d : Core} (h : c.Paired (Memory.Recoded c.registers.counter) d)
include h

/-- The fields of an instruction are the same whatever the high bits of its word are. -/
theorem fields_eq : d.opcode = c.opcode ∧ d.first = c.first ∧ d.second = c.second := by
  refine Word.fields_eq_iff.mp ?_
  rw [word, word, h.registers, h.memory.word]

theorem effectiveAddress_eq : d.effectiveAddress = c.effectiveAddress := by
  have hword : d.addressWord = c.addressWord := by
    rw [addressWord, addressWord, h.registers, h.memory.elsewhere _ (by omega)]
  rw [effectiveAddress, effectiveAddress, h.fields_eq.2.2, hword, h.register_eq]

/-- The second operand is the same unless it is the word itself. -/
theorem secondOperand_eq {form : Form}
    (hown : form = .address → c.effectiveAddress ≠ .ok c.registers.counter) :
    d.secondOperand form = c.secondOperand form := by
  cases form with
  | register => rw [secondOperand, secondOperand, h.fields_eq.2.2, h.register_eq]
  | address =>
    rw [secondOperand, secondOperand, h.effectiveAddress_eq]
    cases ha : c.effectiveAddress with
    | error fault => rfl
    | ok a =>
      -- the operand stands elsewhere, where the memories are the same
      have hne : a ≠ c.registers.counter := by
        rintro rfl
        exact hown rfl ha
      exact congrArg Except.ok (h.memory.elsewhere a hne)

end Core.Paired

/-! ## The machine -/

namespace Machine

variable {σ : Type} {m n : Machine σ}

/-- Two machines are at the same instruction: its operation and its fields are the same. -/
structure SameInstruction (m n : Machine σ) : Prop where
  opcode : n.opcode = m.opcode
  operation : n.dispatch n.opcode = m.dispatch m.opcode
  first : n.first = m.first
  second : n.second = m.second

/-- An operation uses the word at the program counter as an operand: the word at its effective
address, or the number of characters that it puts out. -/
def ReadsItself (m : Machine σ) : Operation → Prop
  | .action a =>
    a.operandForm? = some .address ∧ m.effectiveAddress = .ok m.registers.counter
  | .supervisor => m.second = outputSubtype ∧ m.lengthAddress = m.registers.counter

/-- Machines with the same operations are at the same instruction exactly if the low sixteen bits of
their words are the same. -/
theorem sameInstruction_iff (hd : n.dispatch = m.dispatch) :
    m.SameInstruction n ↔ n.word % 65536 = m.word % 65536 := by
  rw [Word.fields_eq_iff]
  constructor
  · intro h
    exact ⟨h.opcode, h.first, h.second⟩
  · rintro ⟨hopcode, hfirst, hsecond⟩
    have hopcode : n.opcode = m.opcode := hopcode
    exact ⟨hopcode, by rw [hd, hopcode], hfirst, hsecond⟩

section Recoded

variable (h : m.Paired (Memory.Recoded m.registers.counter) n)
include h

/-- The addresses of a supervisor call stand behind its word, and its text has the low sixteen bits
of words only, so it may hold the word itself. -/
theorem callsAlike_of_recoded
    (hown : m.second = outputSubtype → m.lengthAddress ≠ m.registers.counter) :
    m.CallsAlike n := by
  have hdata : n.dataAddress = m.dataAddress := by
    rw [dataAddress, dataAddress, h.core.registers, h.core.memory.elsewhere _ (by omega)]
  have hlength : n.lengthAddress = m.lengthAddress := by
    rw [lengthAddress, lengthAddress, h.core.registers, h.core.memory.elsewhere _ (by omega)]
  have hcode (a : Int) :
      CodePoint.ofWord (n.memory.read a) = CodePoint.ofWord (m.memory.read a) := by
    simp only [CodePoint.ofWord, h.core.memory.residue a]
  refine ⟨h.core.fields_eq.2.2, hdata, hlength, ?_⟩
  intro hout
  simp only [outputText, hdata, hlength, h.core.memory.elsewhere _ (hown hout), hcode]

/-- All that an operation reads is the same, unless it uses its own word as an operand. -/
theorem readsAlike_of_recoded {operation : Operation} (hown : ¬m.ReadsItself operation) :
    m.ReadsAlike n operation := by
  cases operation with
  | action a =>
    refine ⟨h.core.fields_eq.2.1, h.core.effectiveAddress_eq, ?_⟩
    intro form hform
    refine h.core.secondOperand_eq ?_
    rintro rfl haddress
    exact hown ⟨hform, haddress⟩
  | supervisor => exact callsAlike_of_recoded h fun hout hlength => hown ⟨hout, hlength⟩

/-- A step does the same whatever the high bits of its instruction word are, unless the instruction
uses this word as an operand. -/
theorem step_recoded [Terminal σ]
    (hown : ∀ operation ∈ m.dispatch m.opcode, ¬m.ReadsItself operation) :
    PairedResults (Memory.Recoded m.registers.counter) m.step n.step :=
  h.step (Memory.keptByWrites_recoded _) h.core.fields_eq.1 fun operation hoperation =>
    readsAlike_of_recoded h (hown operation hoperation)

end Recoded

/-- **Instruction words.** The word at the program counter, whatever integer it is, is taken apart
into three fields that put its low sixteen bits together again, and fields of the right widths are
those of the word that they are put together to. So two words with the same low sixteen bits are
executed as the same instruction, and if the instruction does not use this very word as an operand,
its execution is the same. -/
theorem decoded_exactly [Terminal σ] (m n : Machine σ) :
    Word.IsSplit m.word m.opcode m.first m.second ∧
      (∀ o f s : Nat, o < 256 → f < 16 → s < 16 → Word.IsSplit (Word.encode o f s) o f s ∧
        Word.opcode (Word.encode o f s) = o ∧ Word.first (Word.encode o f s) = f ∧
          Word.second (Word.encode o f s) = s) ∧
      (n.dispatch = m.dispatch →
        (m.SameInstruction n ↔ n.word % 65536 = m.word % 65536)) ∧
      (m.Paired (Memory.Recoded m.registers.counter) n →
        (∀ operation ∈ m.dispatch m.opcode, ¬m.ReadsItself operation) →
          PairedResults (Memory.Recoded m.registers.counter) m.step n.step) := by
  refine ⟨Word.isSplit m.word, ?_, sameInstruction_iff, fun h => step_recoded h⟩
  intro o f s ho hf hs
  exact ⟨Word.isSplit_encode ho hf hs, Word.opcode_encode hf hs ho, Word.first_encode hf hs,
    Word.second_encode hf hs⟩

/-- An instruction at address zero that adds the second general register to the first one. -/
def atWord (w : Int) : Machine Buffer where
  memory := ((∅ : Memory).load [w] 0).2
  registers := .ofWords [0, 5, 7]
  terminal := {}

/-- A word that has become negative is executed as the word it was. -/
theorem decoded_exactly_negative :
    (atWord 0x2412).Paired (Memory.Recoded 0) (atWord (0x2412 - 0x10000)) ∧
      PairedResults (Memory.Recoded 0) (atWord 0x2412).step (atWord (0x2412 - 0x10000)).step ∧
      (atWord (0x2412 - 0x10000)).step.1 = .ok (.went 1) ∧
      (atWord (0x2412 - 0x10000)).step.2.register 1 = .ok 12 := by
  have hmemory : (atWord 0x2412).memory.Recoded 0 (atWord (0x2412 - 0x10000)).memory := by
    have h0 (w : Int) : (∅ : Memory).write 0 w = .ok (atWord w).memory := rfl
    have hm := h0 0x2412
    have hn := h0 (0x2412 - 0x10000)
    refine ⟨?_, by decide +kernel⟩
    intro a ha
    rw [Memory.read_write hm, Memory.read_write hn, if_neg ha, if_neg ha]
  have hrecoded : (atWord 0x2412).Paired (Memory.Recoded 0) (atWord (0x2412 - 0x10000)) :=
    ⟨⟨hmemory, rfl⟩, rfl, rfl, rfl, rfl⟩
  obtain ⟨-, -, -, hstep⟩ := decoded_exactly (atWord 0x2412) (atWord (0x2412 - 0x10000))
  refine ⟨hrecoded, hstep hrecoded ?_, by decide +kernel, by decide +kernel⟩
  -- the operands of this instruction are registers
  intro operation hoperation
  obtain rfl := Option.some.inj hoperation
  rintro ⟨hform, -⟩
  cases hform

end Machine

end WordMachine
