import Mathlib
import WordMachine.Text.Numeral

/-!
# Numerals in a base

A numeral of a number is its digits behind any number of zeros, with letters in either case. These
are exactly the texts that are read as the number: reading a further digit appends a digit to the
numeral, and only a numeral of zero shows no difference to one more zero.

## Main definitions

* `Numeral.IsNumeral`: a text is a numeral of a number
* `Numeral.IsBase`: the bases up to sixteen

## Main results

* `Numeral.readFrom_digits`: the digits of a number are read as the number
* `Numeral.read?_eq_some_iff`: the numerals of a number are the texts that are read as it
-/

namespace WordMachine.Numeral

variable {base n d : Nat} {c : Char} {cs : List Char}

/-- A text is a numeral of a number: its digits behind any zeros, with letters in either case. -/
def IsNumeral (base n : Nat) (cs : List Char) : Prop :=
  ∃ zeros, cs.map Char.toUpper = List.replicate zeros '0' ++ digits base n

/-- A base whose digits are the decimal ones and the letters up to `F`. -/
structure IsBase (base : Nat) : Prop where
  one_lt : 1 < base
  le_sixteen : base ≤ 16

theorem IsBase.pos (hb : IsBase base) : 0 < base :=
  Nat.lt_of_succ_lt hb.one_lt

theorem isBase_ten : IsBase 10 :=
  ⟨by decide, by decide⟩

theorem isBase_sixteen : IsBase 16 :=
  ⟨by decide, le_rfl⟩

/-! ## Digits -/

/-- The upper-case digit of a number below the base. -/
def digitOf (d : Nat) : Char :=
  (Nat.digitChar d).toUpper

theorem digitValue?_digitOf : ∀ d < 16, digitValue? (digitOf d) = some d := by decide

theorem digit?_eq_some_iff : digit? base c = some d ↔ digitValue? c = some d ∧ d < base := by
  simp [digit?, Option.filter_eq_some_iff]

theorem digit?_digitOf (hb : IsBase base) (hd : d < base) : digit? base (digitOf d) = some d :=
  digit?_eq_some_iff.mpr ⟨digitValue?_digitOf d (hd.trans_le hb.le_sixteen), hd⟩

/-- What holds of every ASCII code holds of every ASCII character. -/
theorem forall_ascii {P : Char → Prop} (h : ∀ n < 0x80, P (Char.ofNat n)) (hc : c.toNat < 0x80) :
    P c := by
  have hcode := h c.toNat hc
  rwa [Char.ofNat_toNat] at hcode

/-- Digits are ASCII characters. -/
theorem lt_of_digitValue? (h : digitValue? c = some d) : c.toNat < 0x80 := by
  unfold digitValue? at h
  simp only [Char.le_def, UInt32.le_iff_toNat_le, Char.toNat_val] at h
  split_ifs at h with h9 hZ hz
  · exact lt_of_le_of_lt h9.2 (by decide)
  · exact lt_of_le_of_lt hZ.2 (by decide)
  · exact lt_of_le_of_lt hz.2 (by decide)

theorem toUpper_of_le (h : 0x80 ≤ c.toNat) : c.toUpper = c := by
  unfold Char.toUpper
  rw [dif_neg]
  rintro ⟨-, hz⟩
  rw [UInt32.le_iff_toNat_le, Char.toNat_val] at hz
  exact absurd (lt_of_le_of_lt hz (by decide)) (Nat.not_lt.mpr h)

theorem digitValue?_toUpper (c : Char) : digitValue? c.toUpper = digitValue? c := by
  by_cases h : c.toNat < 0x80
  · exact forall_ascii (P := fun c => digitValue? c.toUpper = digitValue? c) (by decide) h
  · rw [toUpper_of_le (Nat.not_lt.mp h)]

/-- A digit has the same value in either case. -/
theorem digit?_toUpper (base : Nat) (c : Char) : digit? base c.toUpper = digit? base c := by
  rw [digit?, digit?, digitValue?_toUpper]

/-- A digit is the digit of its value, in either case. -/
theorem toUpper_eq_digitOf (hb : IsBase base) (h : digit? base c = some d) :
    c.toUpper = digitOf d := by
  obtain ⟨hvalue, hd⟩ := digit?_eq_some_iff.mp h
  have hupper : ∀ e ∈ digitValue? c, e < 16 → c.toUpper = digitOf e :=
    forall_ascii (P := fun c => ∀ e ∈ digitValue? c, e < 16 → c.toUpper = digitOf e) (by decide)
      (lt_of_digitValue? hvalue)
  exact hupper d hvalue (hd.trans_le hb.le_sixteen)

/-! ## The digits of a number -/

theorem digits_of_lt (h : n < base) : digits base n = [digitOf n] := by
  rw [digits, Nat.toDigits_of_lt_base h]
  rfl

/-- A digit behind the digits of a number that is not zero. -/
theorem digits_append (hb : IsBase base) (hn : 0 < n) (hd : d < base) :
    digits base n ++ [digitOf d] = digits base (n * base + d) := by
  rw [digits, digits, Nat.mul_comm, ← Nat.toDigits_append_toDigits hb.one_lt hn hd, List.map_append,
    Nat.toDigits_of_lt_base hd]
  rfl

/-! ## Reading -/

theorem readFrom_map_toUpper (base n : Nat) (cs : List Char) :
    readFrom base n (cs.map Char.toUpper) = readFrom base n cs := by
  induction cs generalizing n with
  | nil => rfl
  | cons c cs ih => simp only [List.map_cons, readFrom, digit?_toUpper, ih]

theorem readFrom_singleton (h : digit? base c = some d) :
    readFrom base n [c] = some (n * base + d) := by
  simp [readFrom, h]

/-- Zeros in front do not count. -/
theorem readFrom_replicate (hb : 0 < base) (zeros : Nat) (cs : List Char) :
    readFrom base 0 (List.replicate zeros '0' ++ cs) = readFrom base 0 cs := by
  induction zeros with
  | zero => rfl
  | succ zeros ih =>
    have hzero : digit? base '0' = some 0 := digit?_eq_some_iff.mpr ⟨rfl, hb⟩
    rw [List.replicate_succ, List.cons_append, readFrom, hzero, Option.bind_some, Nat.zero_mul, ih]

/-- The digits of a number are read as the number. -/
theorem readFrom_digits (hb : IsBase base) (n : Nat) :
    readFrom base 0 (digits base n) = some n := by
  have hone := hb.one_lt
  -- Induction on the number: its last digit stands behind the digits of the quotient.
  induction n using Nat.strongRecOn with
  | ind n ih =>
    by_cases hn : n < base
    · rw [digits_of_lt hn, readFrom_singleton (digit?_digitOf hb hn), Nat.zero_mul, Nat.zero_add]
    · have hq : 0 < n / base := Nat.div_pos (by omega) (by omega)
      have hr : n % base < base := Nat.mod_lt _ (by omega)
      have hsplit : digits base (n / base) ++ [digitOf (n % base)] = digits base n := by
        rw [digits_append hb hq hr, Nat.div_add_mod']
      rw [← hsplit, readFrom_append, ih _ (Nat.div_lt_self (by omega) hone), Option.bind_some,
        readFrom_singleton (digit?_digitOf hb hr), Nat.div_add_mod']

/-! ## Numerals -/

theorem IsNumeral.append (hb : IsBase base) (h : IsNumeral base n cs)
    (hd : digit? base c = some d) : IsNumeral base (n * base + d) (cs ++ [c]) := by
  obtain ⟨zeros, hcs⟩ := h
  have hlt : d < base := (digit?_eq_some_iff.mp hd).2
  have hupper : (cs ++ [c]).map Char.toUpper =
      List.replicate zeros '0' ++ (digits base n ++ [digitOf d]) := by
    rw [List.map_append, hcs, List.append_assoc, List.map_singleton, toUpper_eq_digitOf hb hd]
  rcases Nat.eq_zero_or_pos n with rfl | hn
  · -- the digit of zero becomes one of the zeros in front
    refine ⟨zeros + 1, ?_⟩
    rw [hupper, digits_of_lt hb.pos, Nat.zero_mul, Nat.zero_add, digits_of_lt hlt,
      List.replicate_succ', List.append_assoc]
    rfl
  · exact ⟨zeros, by rw [hupper, digits_append hb hn hlt]⟩

theorem isNumeral_of_readFrom (hb : IsBase base) (hne : cs ≠ []) (h : readFrom base 0 cs = some n) :
    IsNumeral base n cs := by
  -- Induction from the front: what is read so far is a numeral, and a digit follows.
  induction cs using List.reverseRecOn generalizing n with
  | nil => exact absurd rfl hne
  | append_singleton cs c ih =>
    rw [readFrom_append] at h
    obtain ⟨m, hm, h⟩ := Option.bind_eq_some_iff.mp h
    rw [readFrom] at h
    obtain ⟨d, hd, h⟩ := Option.bind_eq_some_iff.mp h
    obtain rfl : m * base + d = n := Option.some.inj h
    cases cs with
    | nil =>
      obtain rfl : 0 = m := Option.some.inj hm
      have hlt : d < base := (digit?_eq_some_iff.mp hd).2
      refine ⟨0, ?_⟩
      rw [Nat.zero_mul, Nat.zero_add, digits_of_lt hlt]
      simp [toUpper_eq_digitOf hb hd]
    | cons b cs => exact (ih (List.cons_ne_nil _ _) hm).append hb hd

/-- The texts that are read as a number are its numerals. -/
theorem read?_eq_some_iff (hb : IsBase base) : read? base cs = some n ↔ IsNumeral base n cs := by
  constructor
  · intro h
    cases cs with
    | nil => cases h
    | cons c cs => exact isNumeral_of_readFrom hb (List.cons_ne_nil _ _) h
  · rintro ⟨zeros, hcs⟩
    have hne : cs ≠ [] := by
      rintro rfl
      simp [digits, Nat.toDigits_ne_nil] at hcs
    rw [read?, List.isEmpty_eq_false_iff.mpr hne, if_neg Bool.false_ne_true,
      ← readFrom_map_toUpper, hcs, readFrom_replicate hb.pos, readFrom_digits hb]

theorem length_digits_le_iff {k : Nat} (hb : IsBase base) (hk : 0 < k) :
    (digits base n).length ≤ k ↔ n < base ^ k := by
  rw [digits, List.length_map, Nat.length_toDigits_le_iff hb.one_lt hk]

/-- The digits of a number are a numeral of it, also behind zeros. -/
theorem isNumeral_digits (hb : IsBase base) (zeros n : Nat) :
    IsNumeral base n (List.replicate zeros '0' ++ digits base n) := by
  have hne : List.replicate zeros '0' ++ digits base n ≠ [] := by
    simp [digits, Nat.toDigits_ne_nil]
  refine isNumeral_of_readFrom hb hne ?_
  rw [readFrom_replicate hb.pos, readFrom_digits hb]

/-- Every character of a numeral is a digit. -/
theorem isSome_digit?_of_readFrom {m : Nat} (h : readFrom base m cs = some n) :
    ∀ c ∈ cs, (digit? base c).isSome = true := by
  induction cs generalizing m with
  | nil => nofun
  | cons c cs ih =>
    rw [readFrom] at h
    obtain ⟨d, hd, h⟩ := Option.bind_eq_some_iff.mp h
    rw [List.forall_mem_cons]
    exact ⟨Option.isSome_of_eq_some hd, ih h⟩

/-- Digits are read. -/
theorem exists_readFrom (h : ∀ c ∈ cs, (digit? base c).isSome = true) (m : Nat) :
    ∃ n, readFrom base m cs = some n := by
  induction cs generalizing m with
  | nil => exact ⟨m, rfl⟩
  | cons c cs ih =>
    rw [List.forall_mem_cons] at h
    obtain ⟨d, hd⟩ := Option.isSome_iff_exists.mp h.1
    rw [readFrom, hd]
    exact ih h.2 _

/-! ## Characters of a numeral -/

section Characters

variable (hb : IsBase base) (h : IsNumeral base n cs)
include hb h

theorem IsNumeral.isSome_digit? : ∀ c ∈ cs, (digit? base c).isSome = true := by
  have hread := (read?_eq_some_iff hb).mpr h
  rw [read?] at hread
  split at hread
  · cases hread
  · exact isSome_digit?_of_readFrom hread

/-- What is no digit is not in a numeral. -/
theorem IsNumeral.notMem (hc : digit? base c = none) : c ∉ cs := by
  intro hmem
  have hsome := h.isSome_digit? hb c hmem
  rw [hc] at hsome
  cases hsome

theorem IsNumeral.ne_nil : cs ≠ [] := by
  rintro rfl
  cases (read?_eq_some_iff hb).mpr h

end Characters

/-! ## The limit -/

theorem exceedsLimit_ten {count : Nat} : exceedsLimit 10 count = true ↔ maxDigits < count := by
  simp [exceedsLimit]

/-- The integers that cannot be written are those with too many digits. -/
theorem isUnwritable_iff {v : Int} : isUnwritable v = true ↔ 10 ^ maxDigits ≤ v.natAbs := by
  rw [isUnwritable, exceedsLimit_ten, ← Nat.not_le,
    length_digits_le_iff isBase_ten (by decide : 0 < maxDigits), Nat.not_lt]

end WordMachine.Numeral
