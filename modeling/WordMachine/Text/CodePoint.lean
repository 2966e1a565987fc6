/-!
# Code points

A program may put out any sixteen-bit character, so its output is a sequence of code points:
characters, and surrogates, which are no characters. What is written as UTF-8 must be free of
surrogates.

## Main definitions

* `CodePoint`: a number that Unicode can assign
* `CodePoint.ofChar`, `CodePoint.ofWord`: the code point of a character, and of the low sixteen
  bits of a word
* `CodePoint.toText`: the string of the characters among code points
* `Unencodable`, `firstSurrogates?`: what keeps a text from being written as UTF-8
-/

namespace WordMachine

/-- A number that Unicode can assign, to a character or not. -/
abbrev CodePoint : Type := Fin 0x110000

namespace CodePoint

/-- The code point of a character. -/
def ofChar (c : Char) : CodePoint :=
  ⟨c.toNat, by
    have h := c.valid
    simp only [UInt32.isValidChar, Nat.isValidChar] at h
    simp only [Char.toNat]
    omega⟩

/-- The code point of the low sixteen bits of a word. -/
def ofWord (w : Int) : CodePoint :=
  ⟨(w % 65536).toNat, by omega⟩

/-- The code points of a string. -/
def ofString (s : String) : List CodePoint :=
  s.toList.map ofChar

/-- Half of a surrogate pair, and so no character. -/
def isSurrogate (p : CodePoint) : Bool :=
  0xD800 ≤ p.val && p.val ≤ 0xDFFF

/-- The character of a code point. -/
def toChar? (p : CodePoint) : Option Char :=
  if p.isSurrogate then none else some (Char.ofNat p.val)

/-- The string of the characters among code points. -/
def toText (ps : List CodePoint) : String :=
  String.ofList (ps.filterMap toChar?)

@[simp] theorem val_ofChar (c : Char) : (ofChar c).val = c.toNat := rfl

@[simp] theorem val_ofWord (w : Int) : (ofWord w).val = (w % 65536).toNat := rfl

/-- A character is no surrogate. -/
theorem isSurrogate_ofChar (c : Char) : (ofChar c).isSurrogate = false := by
  have h := c.valid
  simp only [UInt32.isValidChar, Nat.isValidChar, Char.toNat_val] at h
  refine Bool.eq_false_iff.2 fun hs => ?_
  have hs := Bool.and_eq_true_iff.1 hs
  have lower : 0xD800 ≤ c.toNat := of_decide_eq_true hs.1
  have upper : c.toNat ≤ 0xDFFF := of_decide_eq_true hs.2
  omega

@[simp] theorem toChar?_ofChar (c : Char) : (ofChar c).toChar? = some c := by
  simp [toChar?, isSurrogate_ofChar]

/-- The code points of a string give the string back. -/
@[simp] theorem toText_ofString (s : String) : toText (ofString s) = s := by
  have h (cs : List Char) : (cs.map ofChar).filterMap toChar? = cs := by
    induction cs with
    | nil => rfl
    | cons c cs ih => rw [List.map_cons, List.filterMap_cons_some (toChar?_ofChar c), ih]
  simp [toText, ofString, h]

end CodePoint

/-- Surrogates that keep a text from being written as UTF-8. -/
structure Unencodable where
  /-- Where the first surrogates of the text start. -/
  position : Nat
  /-- The first surrogate. -/
  first : CodePoint
  /-- How many surrogates stand there in a row. -/
  count : Nat
deriving DecidableEq, Repr

/-- The first surrogates of a text. -/
def firstSurrogates? (ps : List CodePoint) : Option Unencodable :=
  match ps.dropWhile (!·.isSurrogate) with
  | [] => none
  | p :: rest =>
    some ⟨(ps.takeWhile (!·.isSurrogate)).length, p, (rest.takeWhile (·.isSurrogate)).length + 1⟩

/-- A text without surrogates can be written. -/
theorem firstSurrogates?_ofString (s : String) :
    firstSurrogates? (CodePoint.ofString s) = none := by
  have h (cs : List Char) :
      (cs.map CodePoint.ofChar).dropWhile (fun p => !p.isSurrogate) = [] := by
    induction cs with
    | nil => rfl
    | cons c cs ih =>
      rw [List.map_cons, List.dropWhile_cons_of_pos (by simp [CodePoint.isSurrogate_ofChar]), ih]
  simp [firstSurrogates?, CodePoint.ofString, h]

end WordMachine
