import WordMachine.Proofs.Numerals
import WordMachine.Proofs.Spelling

/-!
# Constants

A constant is a decimal number, a hexadecimal number or a quoted character. A decimal number is its
word as it is, and so is a hexadecimal number below `#8000`; a hexadecimal number from there on is
the negative word with the same sixteen bits, and a quoted character is its code point. A decimal
numeral with too many digits is no constant, whatever its value.

## Main definitions

* `Operand.SpellsDecimal`, `Operand.SpellsHexadecimal`: the spellings of numbers
* `Operand.Spells`: the spellings of constants
* `Operand.IsOverlong`, `Row.HasOverlong`: decimal numerals with too many digits

## Main results

* `Operand.overlong?_eq_some_iff`: the operands with too many digits
* `Operand.number?_eq_some_iff`: the operands that are numbers
* `Operand.constant?_eq_some_iff`: the operands that are constants
-/

namespace WordMachine

namespace Operand

variable {s : String} {cs : List Char} {n digits : Nat} {v : Int}

/-- The decimal spellings of an integer: a numeral with no more digits than can be read, behind a
minus sign if the integer is negative. -/
inductive SpellsDecimal : List Char → Int → Prop
  | positive {n : Nat} {cs : List Char} (h : Numeral.IsNumeral 10 n cs)
      (hlength : cs.length ≤ Numeral.maxDigits) : SpellsDecimal cs n
  | negative {n : Nat} {cs : List Char} (h : Numeral.IsNumeral 10 n cs)
      (hlength : cs.length ≤ Numeral.maxDigits) : SpellsDecimal ('-' :: cs) (-n)

/-- The hexadecimal spellings of a number: a numeral of up to four digits behind a number sign. -/
inductive SpellsHexadecimal : List Char → Nat → Prop
  | mk {n : Nat} {cs : List Char} (h : Numeral.IsNumeral 16 n cs) (hlength : cs.length ≤ 4) :
      SpellsHexadecimal ('#' :: cs) n

/-- The word that a constant spells. -/
inductive Spells (s : String) : Int → Prop
  /-- A decimal number is the word as it is. -/
  | decimal {v : Int} (h : SpellsDecimal (spelling s) v) : Spells s v
  /-- A hexadecimal number is the word with a sign that has its sixteen bits. -/
  | hexadecimal {n : Nat} (h : SpellsHexadecimal (spelling s) n) :
      Spells s (if n < 0x8000 then n else n - 0x10000)
  /-- A quoted character is its code point. -/
  | character {c : Char} (h : spelling s = ['\'', c, '\'']) (hc : c ≠ '\n') : Spells s c.toNat

/-- A decimal numeral with more digits than can be read, perhaps behind a minus sign. -/
def IsOverlong (s : String) (digits : Nat) : Prop :=
  ∃ n cs, Numeral.IsNumeral 10 n cs ∧ (spelling s = cs ∨ spelling s = '-' :: cs) ∧
    cs.length = digits ∧ Numeral.maxDigits < digits

/-! ## The limit -/

theorem isDigit_of_digit? {c : Char} (h : (Numeral.digit? 10 c).isSome = true) :
    isDigit c = true := by
  obtain ⟨d, hd⟩ := Option.isSome_iff_exists.mp h
  refine Numeral.forall_ascii (P := fun c => (Numeral.digit? 10 c).isSome = true →
    isDigit c = true) (by decide) ?_ h
  exact Numeral.lt_of_digitValue? (Numeral.digit?_eq_some_iff.mp hd).1

theorem all_isDigit (h : Numeral.IsNumeral 10 n cs) : cs.all isDigit = true :=
  List.all_eq_true.mpr fun c hc => isDigit_of_digit? (h.isSome_digit? Numeral.isBase_ten c hc)

theorem dropMinus_eq_self (h : Numeral.IsNumeral 10 n cs) : dropMinus cs = cs := by
  have hminus : '-' ∉ cs := h.notMem Numeral.isBase_ten rfl
  unfold dropMinus
  split
  · exact absurd List.mem_cons_self hminus
  · rfl

/-- A decimal numeral, perhaps behind a minus sign, is overlong if it has too many digits. -/
theorem overlong?_of_isNumeral (hs : dropMinus (spelling s) = cs) (h : Numeral.IsNumeral 10 n cs) :
    overlong? s = if Numeral.maxDigits < cs.length then some cs.length else none := by
  simp only [overlong?, hs, all_isDigit h, Bool.true_and, Numeral.exceedsLimit_ten]

/-- What starts with neither a digit nor a minus sign is not overlong. -/
theorem overlong?_of_spelling {c : Char} (hs : spelling s = c :: cs) (hc : isDigit c = false)
    (hminus : c ≠ '-') : overlong? s = none := by
  have hdrop : dropMinus (c :: cs) = c :: cs := by
    rw [dropMinus]
    intro ds hds
    exact hminus (List.cons.inj hds).1
  simp [overlong?, hs, hdrop, hc]

theorem overlong?_of_spellsHexadecimal (h : SpellsHexadecimal (spelling s) n) :
    overlong? s = none := by
  generalize hs : spelling s = cs at h
  obtain ⟨-, -⟩ := h
  exact overlong?_of_spelling hs (by decide) (by decide)

theorem overlong?_of_spellsDecimal (h : SpellsDecimal (spelling s) v) : overlong? s = none := by
  generalize hs : spelling s = cs at h
  cases h with
  | positive h hlength =>
    rw [overlong?_of_isNumeral (by rw [hs, dropMinus_eq_self h]) h, if_neg (by omega)]
  | negative h hlength =>
    rw [overlong?_of_isNumeral (by rw [hs, dropMinus]) h, if_neg (by omega)]

theorem length_le_of_overlong? (ho : overlong? s = none) (hs : dropMinus (spelling s) = cs)
    (h : Numeral.IsNumeral 10 n cs) : cs.length ≤ Numeral.maxDigits := by
  rw [overlong?_of_isNumeral hs h] at ho
  split at ho
  · cases ho
  · omega

theorem isSome_digit?_of_isDigit {c : Char} (h : isDigit c = true) :
    (Numeral.digit? 10 c).isSome = true := by
  have hle : '0' ≤ c ∧ c ≤ '9' := by simpa [isDigit] using h
  refine Numeral.forall_ascii (P := fun c => isDigit c = true →
    (Numeral.digit? 10 c).isSome = true) (by decide) ?_ h
  have h9 : c.toNat ≤ '9'.toNat := hle.2
  exact Nat.lt_of_le_of_lt h9 (by decide)

/-- The operands with too many digits are decimal numerals that are too long. -/
theorem overlong?_eq_some_iff : overlong? s = some digits ↔ IsOverlong s digits := by
  constructor
  · intro h
    simp only [overlong?, Option.ite_none_right_eq_some, Bool.and_eq_true, Numeral.exceedsLimit_ten,
      List.all_eq_true, Option.some.injEq] at h
    obtain ⟨⟨hall, hlong⟩, hlength⟩ := h
    have hne : dropMinus (spelling s) ≠ [] := by
      intro hnil
      rw [hnil] at hlong
      cases hlong
    obtain ⟨n, hn⟩ :=
      Numeral.exists_readFrom (fun c hc => isSome_digit?_of_isDigit (hall c hc)) 0
    refine ⟨n, _, Numeral.isNumeral_of_readFrom Numeral.isBase_ten hne hn, ?_, hlength,
      hlength ▸ hlong⟩
    unfold dropMinus
    split
    · next hs => exact .inr hs
    · exact .inl rfl
  · rintro ⟨n, cs, h, hs, hlength, hlong⟩
    have hdrop : dropMinus (spelling s) = cs := by
      rcases hs with hs | hs
      · rw [hs, dropMinus_eq_self h]
      · rw [hs, dropMinus]
    rw [overlong?_of_isNumeral hdrop h, hlength, if_pos hlong]

/-- One digit, written again and again, is too long at last. -/
theorem overlong?_replicate {d : Char} (hd : isDigit d = true)
    (hlong : Numeral.maxDigits < digits) :
    overlong? (String.ofList (List.replicate digits d)) = some digits := by
  obtain ⟨count, rfl⟩ := Nat.exists_eq_add_one_of_ne_zero (Nat.ne_zero_of_lt hlong)
  have hne : d ≠ '\n' ∧ d ≠ '-' := by
    constructor <;> rintro rfl <;> cases hd
  have hspelling : spelling (String.ofList (List.replicate (count + 1) d)) =
      List.replicate (count + 1) d := by
    rw [spelling, String.toList_ofList, dropFinalNewline, List.getLast?_replicate]
    simp [hne.1]
  have hdrop : dropMinus (List.replicate (count + 1) d) = List.replicate (count + 1) d := by
    rw [List.replicate_succ, dropMinus]
    intro cs hcs
    exact hne.2 (List.cons.inj hcs).1
  simp only [overlong?, hspelling, hdrop, List.length_replicate, Numeral.exceedsLimit_ten.mpr hlong,
    Bool.and_true, List.all_replicate, hd]
  simp

/-! ## Numbers -/

theorem decimal?_of_spellsDecimal (h : SpellsDecimal cs v) : decimal? cs = some v := by
  cases h with
  | positive h =>
    have hminus : '-' ∉ cs := h.notMem Numeral.isBase_ten rfl
    unfold decimal?
    split
    · exact absurd List.mem_cons_self hminus
    · rw [(Numeral.read?_eq_some_iff Numeral.isBase_ten).mpr h]
      rfl
  | negative h =>
    simp only [decimal?, (Numeral.read?_eq_some_iff Numeral.isBase_ten).mpr h]
    rfl

theorem spellsDecimal_of_decimal? (ho : overlong? s = none)
    (h : decimal? (spelling s) = some v) : SpellsDecimal (spelling s) v := by
  unfold decimal? at h
  split at h
  · next digits hs =>
    obtain ⟨n, hread, rfl⟩ : ∃ n : Nat, Numeral.read? 10 digits = some n ∧ -(n : Int) = v := by
      simpa [Option.bind_eq_some_iff] using h
    have hn := (Numeral.read?_eq_some_iff Numeral.isBase_ten).mp hread
    rw [hs]
    exact .negative hn (length_le_of_overlong? ho (by rw [hs, dropMinus]) hn)
  · obtain ⟨n, hread, rfl⟩ :
        ∃ n : Nat, Numeral.read? 10 (spelling s) = some n ∧ (n : Int) = v := by
      simpa [Option.bind_eq_some_iff] using h
    have hn := (Numeral.read?_eq_some_iff Numeral.isBase_ten).mp hread
    exact .positive hn (length_le_of_overlong? ho (dropMinus_eq_self hn) hn)

theorem hexadecimal?_eq_some_iff :
    hexadecimal? cs = some v ↔ ∃ n : Nat, SpellsHexadecimal cs n ∧ v = n := by
  constructor
  · intro h
    unfold hexadecimal? at h
    split at h
    · next digits =>
      obtain ⟨hlength, n, hread, rfl⟩ :
          digits.length ≤ 4 ∧ ∃ n : Nat, Numeral.read? 16 digits = some n ∧ (n : Int) = v := by
        simpa [Option.bind_eq_some_iff] using h
      have hn := (Numeral.read?_eq_some_iff Numeral.isBase_sixteen).mp hread
      exact ⟨n, .mk hn hlength, rfl⟩
    · cases h
  · rintro ⟨n, ⟨h, hlength⟩, rfl⟩
    rw [hexadecimal?, if_pos hlength, (Numeral.read?_eq_some_iff Numeral.isBase_sixteen).mpr h]
    rfl

/-- The operands that are numbers. -/
theorem number?_eq_some_iff : number? s = some v ↔
    SpellsDecimal (spelling s) v ∨ ∃ n : Nat, SpellsHexadecimal (spelling s) n ∧ v = n := by
  constructor
  · intro h
    have ho := overlong?_of_number? h
    rw [number?, ho, Option.isSome_none, if_neg Bool.false_ne_true] at h
    rcases Option.or_eq_some_iff.mp h with h | ⟨-, h⟩
    · exact .inl (spellsDecimal_of_decimal? ho h)
    · exact .inr (hexadecimal?_eq_some_iff.mp h)
  · rintro (h | ⟨n, h, rfl⟩)
    · rw [number?, overlong?_of_spellsDecimal h, Option.isSome_none, if_neg Bool.false_ne_true,
        decimal?_of_spellsDecimal h, Option.some_or]
    · have hread := hexadecimal?_eq_some_iff.mpr ⟨n, h, rfl⟩
      have hoverlong := overlong?_of_spellsHexadecimal h
      generalize hs : spelling s = cs at h hread
      obtain ⟨-, -⟩ := h
      rw [number?, hoverlong, Option.isSome_none, if_neg Bool.false_ne_true, hs, hread]
      rfl

/-! ## Words of constants -/

theorem startsWith_sharp_of_spellsHexadecimal (h : SpellsHexadecimal (spelling s) n) :
    startsWith s '#' = true := by
  generalize hs : spelling s = cs at h
  obtain ⟨-, -⟩ := h
  exact startsWith_of_spelling hs

theorem startsWith_sharp_of_spellsDecimal (h : SpellsDecimal (spelling s) v) :
    startsWith s '#' = false := by
  rw [Bool.eq_false_iff]
  intro hstart
  obtain ⟨ds, hs⟩ := spelling_of_startsWith hstart (by decide)
  generalize hd : spelling s = cs at h
  cases h with
  | positive h =>
    refine h.notMem Numeral.isBase_ten (c := '#') rfl ?_
    rw [← hd, hs]
    exact List.mem_cons_self
  | negative h => cases hd.symm.trans hs

theorem character?_eq_some_iff : character? s = some v ↔
    ∃ c : Char, spelling s = ['\'', c, '\''] ∧ c ≠ '\n' ∧ v = c.toNat := by
  unfold character?
  constructor
  · intro h
    split at h
    · next c hs =>
      split at h
      · cases h
      · next hc => exact ⟨c, hs, hc, (Option.some.inj h).symm⟩
    · cases h
  · rintro ⟨c, hs, hc, rfl⟩
    rw [hs]
    exact if_neg hc

/-- A quoted character is no number. -/
theorem number?_of_spelling_quote (hs : spelling s = '\'' :: cs) : number? s = none := by
  rw [Option.eq_none_iff_forall_ne_some]
  intro v hv
  have hdigit : Numeral.digit? 10 '\'' = none := by decide
  rw [number?_eq_some_iff, hs] at hv
  generalize hd : '\'' :: cs = ds at hv
  rcases hv with hdecimal | ⟨n, hhexadecimal, -⟩
  · cases hdecimal with
    | positive h => exact h.notMem Numeral.isBase_ten hdigit (hd ▸ List.mem_cons_self)
    | negative h => cases hd
  · obtain ⟨-, -⟩ := hhexadecimal
    cases hd

/-- **Constants.** The constants are the spellings of their words. -/
theorem constant?_eq_some_iff : constant? s = some v ↔ Spells s v := by
  have hsigned (n : Nat) : signed n = if n < 0x8000 then (n : Int) else n - 0x10000 := by
    rw [signed]
    split <;> split <;> omega
  constructor
  · intro h
    unfold constant? at h
    split at h
    · next m hm =>
      obtain rfl := Option.some.inj h
      rcases number?_eq_some_iff.mp hm with hd | ⟨n, hx, rfl⟩
      · rw [startsWith_sharp_of_spellsDecimal hd]
        exact .decimal hd
      · rw [startsWith_sharp_of_spellsHexadecimal hx, if_pos rfl, hsigned]
        exact .hexadecimal hx
    · obtain ⟨c, hs, hc, rfl⟩ := character?_eq_some_iff.mp h
      exact .character hs hc
  · intro h
    cases h with
    | decimal h =>
      rw [constant?, number?_eq_some_iff.mpr (.inl h), startsWith_sharp_of_spellsDecimal h]
      rfl
    | @hexadecimal n h =>
      rw [constant?, number?_eq_some_iff.mpr (.inr ⟨n, h, rfl⟩),
        startsWith_sharp_of_spellsHexadecimal h, ← hsigned]
      rfl
    | @character c hs hc =>
      rw [constant?, number?_of_spelling_quote hs]
      exact character?_eq_some_iff.mpr ⟨c, hs, hc, rfl⟩

/-- A constant is not overlong. -/
theorem overlong?_of_spells (h : Spells s v) : overlong? s = none := by
  cases h with
  | decimal h => exact overlong?_of_spellsDecimal h
  | hexadecimal h => exact overlong?_of_spellsHexadecimal h
  | character hs => exact overlong?_of_spelling hs (by decide) (by decide)

theorem overlong?_of_constant? (h : constant? s = some v) : overlong? s = none :=
  overlong?_of_spells (constant?_eq_some_iff.mp h)

end Operand

/-- A row has a decimal numeral with too many digits: its label, an operand, or the constant of a
literal. -/
def Row.HasOverlong (r : Row) (digits : Nat) : Prop :=
  Operand.IsOverlong r.label digits ∨ ∃ operand ∈ r.given, Operand.IsOverlong operand digits ∨
    Operand.startsWith operand '=' = true ∧
      Operand.IsOverlong (String.ofList operand.toList.tail) digits

end WordMachine
