import WordMachine.Text.Numeral

/-!
# Words

A word is an integer of any size: results are stored as they come. Its low sixteen bits, in two's
complement without end to the left, hold an instruction: an operation code of eight bits and two
fields of four bits. Listings show a word as four hexadecimal digits.

## Main definitions

* `Word.opcode`, `Word.first`, `Word.second`: the three fields of an instruction word
* `Word.encode`: the instruction word with given fields
* `Word.and`, `Word.or`, `Word.xor`: the operations on bits
* `Word.hex`: the written form of a word

## Main results

* `Word.encode_natCast`: the fields of an instruction word do not overlap
* `Word.emod_eq_fields`: the low sixteen bits are the three fields in their places
-/

namespace WordMachine

namespace Word

/-- The operation code of an instruction word: bits eight to fifteen. -/
def opcode (w : Int) : Nat :=
  (w % 65536 / 256).toNat

/-- The first register field of an instruction word: bits four to seven. -/
def first (w : Int) : Nat :=
  (w % 256 / 16).toNat

/-- The second field of an instruction word, a register, an index register or a sub-type: bits
zero to three. -/
def second (w : Int) : Nat :=
  (w % 16).toNat

/-! ## Operations on bits -/

/-- The bits that both words have. -/
def and : Int → Int → Int
  | .ofNat m, .ofNat n => .ofNat (m &&& n)
  | .ofNat m, .negSucc n => .ofNat (m ^^^ (m &&& n))
  | .negSucc m, .ofNat n => .ofNat (n ^^^ (n &&& m))
  | .negSucc m, .negSucc n => .negSucc (m ||| n)

/-- The bits that one word or the other has. -/
def or : Int → Int → Int
  | .ofNat m, .ofNat n => .ofNat (m ||| n)
  | .ofNat m, .negSucc n => .negSucc (n ^^^ (n &&& m))
  | .negSucc m, .ofNat n => .negSucc (m ^^^ (m &&& n))
  | .negSucc m, .negSucc n => .negSucc (m &&& n)

/-- The bits that just one of the words has. -/
def xor : Int → Int → Int
  | .ofNat m, .ofNat n => .ofNat (m ^^^ n)
  | .ofNat m, .negSucc n => .negSucc (m ^^^ n)
  | .negSucc m, .ofNat n => .negSucc (m ^^^ n)
  | .negSucc m, .negSucc n => .ofNat (m ^^^ n)

/-! ## Instruction words -/

/-- The instruction word with an operation code and two register fields, each put in its place
as it is. -/
def encode (opcode first second : Int) : Int :=
  or (or (opcode * 256) (first * 16)) second

/-- The fields of an instruction word do not overlap. -/
theorem encode_natCast (opcode : Nat) {first second : Nat} (hf : first < 16) (hs : second < 16) :
    encode opcode first second = (opcode * 256 + first * 16 + second : Nat) := by
  -- the fields have no bit in common, so they are added
  have hfirst : opcode * 256 ||| first * 16 = opcode * 256 + first * 16 := by
    rw [Nat.mul_comm, show 256 = 2 ^ 8 by rfl, ← Nat.two_pow_add_eq_or_of_lt (by omega)]
  have hsecond : (opcode * 256 + first * 16) ||| second = opcode * 256 + first * 16 + second := by
    rw [show opcode * 256 + first * 16 = 2 ^ 4 * (opcode * 16 + first) by omega,
      ← Nat.two_pow_add_eq_or_of_lt (by omega)]
  rw [← hsecond, ← hfirst]
  rfl

/-- The low sixteen bits of a word are its three fields in their places. -/
theorem emod_eq_fields (w : Int) :
    w % 65536 = (opcode w : Int) * 256 + first w * 16 + second w := by
  simp only [opcode, first, second]
  omega

theorem opcode_lt (w : Int) : opcode w < 256 := by
  simp only [opcode]
  omega

theorem first_lt (w : Int) : first w < 16 := by
  simp only [first]
  omega

theorem second_lt (w : Int) : second w < 16 := by
  simp only [second]
  omega

/-! ## Written form -/

/-- A number sign and the low sixteen bits of a word as four hexadecimal digits. -/
def hex (w : Int) : String :=
  "#" ++ Numeral.hexadecimal 4 (w % 65536)

/-- A number sign and an integer in hexadecimal, at least four characters wide with its sign. -/
def signedHex (n : Int) : String :=
  "#" ++ Numeral.hexadecimal 4 n

example : hex (-4) = "#FFFC" := by decide

example : signedHex (-4) = "#-004" := by decide

end Word

end WordMachine
