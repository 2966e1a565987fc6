import WordMachine.Proofs.Constants
import WordMachine.Proofs.Printing
import WordMachine.Text.IntegerText

/-!
# Notations of an integer

An integer is written in decimal or in hexadecimal, and it is read as an operand, as a constant or
as an option value. The readers differ in what they admit and agree on what they read: a number
among the operands is the same integer as an option value. Only a hexadecimal constant is read as a
word with a sign, so that a word that is printed and entered again keeps its sixteen bits. No reader
takes a decimal numeral with too many digits, be they zeros in front.

## Main definitions

* `IsNotation`: a text is a notation of an integer
* `Word.IsSigned`: the integer with a sign that has the low sixteen bits of a word
* `Operand.Agrees`: the readers agree on an integer

## Main results

* `IsNotation.readOption?_eq`: every notation of an integer is read as an option value
* `IntegerText.readOption?_of_overlong`: a decimal numeral with too many digits is none
* `Operand.isNotation_of_number?`: a number among the operands is a notation of its value
* `Operand.notations_agree`: the readers agree on every integer
-/

namespace WordMachine

variable {base n : Nat} {c : Char} {cs : List Char} {v : Int}

/-- The notations of an integer: decimal numerals that are not too long, and hexadecimal numerals,
with their sign and mark. -/
inductive IsNotation : Int → List Char → Prop
  /-- A decimal numeral. -/
  | decimal {n : Nat} {cs : List Char} (h : Numeral.IsNumeral 10 n cs)
      (hlength : cs.length ≤ Numeral.maxDigits) : IsNotation n cs
  /-- A minus sign and a decimal numeral. -/
  | negative {n : Nat} {cs : List Char} (h : Numeral.IsNumeral 10 n cs)
      (hlength : cs.length ≤ Numeral.maxDigits) : IsNotation (-n) ('-' :: cs)
  /-- A zero, an `x` in either case and a hexadecimal numeral. -/
  | marked {n : Nat} {x : Char} {cs : List Char} (hx : x = 'x' ∨ x = 'X')
    (h : Numeral.IsNumeral 16 n cs) : IsNotation n ('0' :: x :: cs)
  /-- A number sign and a hexadecimal numeral. -/
  | sharp {n : Nat} {cs : List Char} (h : Numeral.IsNumeral 16 n cs) : IsNotation n ('#' :: cs)
  /-- A number sign, a minus sign and a hexadecimal numeral. -/
  | negativeSharp {n : Nat} {cs : List Char} (h : Numeral.IsNumeral 16 n cs) :
    IsNotation (-n) ('#' :: '-' :: cs)

namespace IntegerText

/-! ## Reading an integer -/

/-- A character that stands for itself at each place of an integer: ASCII and no blank. -/
def IsVisible (c : Char) : Prop :=
  c.toNat < 0x7F ∧ Text.isBlank c = false

instance : DecidablePred IsVisible :=
  fun c => inferInstanceAs (Decidable (c.toNat < 0x7F ∧ Text.isBlank c = false))

theorem isVisible_of_digit? {d : Nat} (h : Numeral.digit? base c = some d) : IsVisible c := by
  have hvalue := (Numeral.digit?_eq_some_iff.mp h).1
  have hvisible : ∀ e ∈ Numeral.digitValue? c, IsVisible c :=
    Numeral.forall_ascii (P := fun c => ∀ e ∈ Numeral.digitValue? c, IsVisible c) (by decide)
      (Numeral.lt_of_digitValue? hvalue)
  exact hvisible d hvalue

theorem isVisible_of_isNumeral (hb : Numeral.IsBase base) (h : Numeral.IsNumeral base n cs) :
    ∀ c ∈ cs, IsVisible c := by
  intro c hc
  obtain ⟨d, hd⟩ := Option.isSome_iff_exists.mp (h.isSome_digit? hb c hc)
  exact isVisible_of_digit? hd

theorem IsVisible.not_margin (h : IsVisible c) : isMargin c = false :=
  Numeral.forall_ascii (P := fun c => IsVisible c → isMargin c = false) (by decide)
    (Nat.lt_succ_of_lt h.1) h

theorem IsVisible.toAscii_eq (h : IsVisible c) : toAscii c = c :=
  if_pos h.1

/-- Visible characters are kept as they are. -/
theorem dropMargins_toAscii (h : ∀ c ∈ cs, IsVisible c) : dropMargins (cs.map toAscii) = cs := by
  have hmap : cs.map toAscii = cs := by
    rw [List.map_congr_left fun c hc => (h c hc).toAscii_eq, List.map_id']
  have hfront : cs.dropWhile isMargin = cs := by
    refine List.dropWhile_eq_self_iff.mpr ?_
    intro hl
    rw [(h _ (List.getElem_mem hl)).not_margin]
    exact Bool.false_ne_true
  have hend : cs.rdropWhile isMargin = cs := by
    refine List.rdropWhile_eq_self_iff.mpr ?_
    intro hne
    rw [(h _ (List.getLast_mem hne)).not_margin]
    exact Bool.false_ne_true
  rw [dropMargins, hmap, hfront]
  exact hend

/-- Digits that are not grouped. -/
theorem readGrouped_of_notMem (h : '_' ∉ cs) :
    readGrouped base n cs = Numeral.readFrom base n cs := by
  induction cs generalizing n with
  | nil => rfl
  | cons c cs ih =>
    rw [List.mem_cons, not_or] at h
    rw [readGrouped, Numeral.readFrom]
    · exact congrArg _ (funext fun d => ih h.2)
    · rintro d ds rfl
      exact absurd rfl h.1

theorem readMagnitude?_of_notMem (h : '_' ∉ cs) :
    readMagnitude? base cs = Numeral.read? base cs := by
  cases cs with
  | nil => rfl
  | cons c cs =>
    rw [readMagnitude?, Numeral.read?, List.isEmpty_cons, if_neg Bool.false_ne_true,
      Numeral.readFrom]
    simp only [readGrouped_of_notMem (fun hcs => h (List.mem_cons_of_mem c hcs)), Nat.zero_mul,
      Nat.zero_add]

theorem dropMark_of_notMem (h : 'x' ∉ cs) (h' : 'X' ∉ cs) : dropMark cs = cs := by
  unfold dropMark
  split <;> simp_all

theorem dropMark_mark {x : Char} (hx : x = 'x' ∨ x = 'X') (h : '_' ∉ cs) :
    dropMark ('0' :: x :: cs) = cs := by
  rcases hx with rfl | rfl <;> unfold dropMark <;> split <;> simp_all

/-- An integer without a sign. -/
theorem read?_of_unsigned (hvisible : ∀ c ∈ cs, IsVisible c) (hminus : cs.head? ≠ some '-')
    (hplus : cs.head? ≠ some '+') :
    read? base cs = (readUnsigned? base cs).map fun n => (n : Int) := by
  rw [read?, dropMargins_toAscii hvisible]
  split
  · exact absurd rfl hminus
  · exact absurd rfl hplus
  · rfl

section Numeral

variable (hb : Numeral.IsBase base) (h : Numeral.IsNumeral base n cs)
include hb h

theorem readMagnitude?_of_isNumeral : readMagnitude? base cs = some n := by
  have hgroup : '_' ∉ cs := h.notMem hb rfl
  rw [readMagnitude?_of_notMem hgroup, (Numeral.read?_eq_some_iff hb).mpr h]

/-- A numeral has no underscores, so that all of its characters count. -/
theorem countP_of_isNumeral : cs.countP (· ≠ '_') = cs.length := by
  have hgroup : '_' ∉ cs := h.notMem hb rfl
  rw [List.countP_eq_length]
  intro c hc
  exact decide_eq_true fun heq => hgroup (heq ▸ hc)

theorem readUnsigned?_of_isNumeral :
    readUnsigned? base cs = if Numeral.exceedsLimit base cs.length then none else some n := by
  -- an `x` counts thirty-three, which is a digit of no base up to sixteen
  have hmark {x : Char} (hx : Numeral.digitValue? x = some 33) : x ∉ cs := by
    have hlarge : ¬decide (33 < base) = true := by
      rw [decide_eq_true_eq, Nat.not_lt]
      exact hb.le_sixteen.trans (by decide)
    refine h.notMem hb ?_
    rw [Numeral.digit?, hx, Option.filter_some, if_neg hlarge]
  rw [readUnsigned?, dropMark_of_notMem (hmark rfl) (hmark rfl), ite_self,
    countP_of_isNumeral hb h, readMagnitude?_of_isNumeral hb h]

theorem read?_of_isNumeral :
    read? base cs = if Numeral.exceedsLimit base cs.length then none else some (n : Int) := by
  have hminus : '-' ∉ cs := h.notMem hb rfl
  have hplus : '+' ∉ cs := h.notMem hb rfl
  rw [read?_of_unsigned (isVisible_of_isNumeral hb h)
    (fun hhead => hminus (List.mem_of_head? hhead)) (fun hhead => hplus (List.mem_of_head? hhead)),
    readUnsigned?_of_isNumeral hb h]
  split <;> rfl

theorem read?_minus_of_isNumeral :
    read? base ('-' :: cs) =
      if Numeral.exceedsLimit base cs.length then none else some (-n : Int) := by
  have hvisible : ∀ c ∈ '-' :: cs, IsVisible c :=
    List.forall_mem_cons.mpr ⟨by decide, isVisible_of_isNumeral hb h⟩
  simp only [read?, dropMargins_toAscii hvisible, readUnsigned?_of_isNumeral hb h]
  split <;> rfl

end Numeral

/-- Only decimal numerals are limited. -/
theorem exceedsLimit_sixteen (count : Nat) : Numeral.exceedsLimit 16 count = false := rfl

theorem read?_mark_of_isNumeral {x : Char} (hx : x = 'x' ∨ x = 'X')
    (h : Numeral.IsNumeral 16 n cs) : read? 16 ('0' :: x :: cs) = some (n : Int) := by
  have hgroup : '_' ∉ cs := h.notMem Numeral.isBase_sixteen rfl
  have hvisible : ∀ c ∈ '0' :: x :: cs, IsVisible c := by
    rw [List.forall_mem_cons, List.forall_mem_cons]
    exact ⟨by decide, by rcases hx with rfl | rfl <;> decide,
      isVisible_of_isNumeral Numeral.isBase_sixteen h⟩
  rw [read?_of_unsigned hvisible (by simp) (by simp), readUnsigned?, if_pos rfl,
    dropMark_mark hx hgroup, exceedsLimit_sixteen, if_neg Bool.false_ne_true,
    readMagnitude?_of_isNumeral Numeral.isBase_sixteen h]
  rfl

end IntegerText

/-! ## Option values -/

theorem Text.trim_of_visible {before behind : List Char} (hne : cs ≠ [])
    (hcs : ∀ c ∈ cs, isBlank c = false) (hbefore : ∀ c ∈ before, isBlank c = true)
    (hbehind : ∀ c ∈ behind, isBlank c = true) : trim (before ++ cs ++ behind) = cs := by
  have hfront : (before ++ cs ++ behind).dropWhile isBlank = cs ++ behind := by
    rw [List.append_assoc, List.dropWhile_append_of_pos hbefore]
    cases cs with
    | nil => exact absurd rfl hne
    | cons c cs =>
      refine List.dropWhile_cons_of_neg ?_
      rw [hcs c List.mem_cons_self]
      exact Bool.false_ne_true
  rw [trim, hfront, trimEnd_append_blanks hbehind, trimEnd_eq_self_iff]
  intro _ hblank
  rw [hcs _ (List.getLast_mem hne)] at hblank
  cases hblank

namespace IntegerText

variable {before behind : List Char} (hbefore : ∀ c ∈ before, Text.isBlank c = true)
  (hbehind : ∀ c ∈ behind, Text.isBlank c = true)
include hbefore hbehind

theorem trim_of_isVisible (hne : cs ≠ []) (h : ∀ c ∈ cs, IsVisible c) :
    Text.trim (before ++ cs ++ behind) = cs :=
  Text.trim_of_visible hne (fun c hc => (h c hc).2) hbefore hbehind

/-- A decimal numeral with blanks around it is an option value unless it is too long. -/
theorem readOption?_of_isNumeral (h : Numeral.IsNumeral 10 n cs) :
    readOption? (String.ofList (before ++ cs ++ behind)) =
      if Numeral.exceedsLimit 10 cs.length then none else some (n : Int) := by
  -- neither mark can be part of a decimal numeral
  have hsharp : '#' ∉ cs := h.notMem Numeral.isBase_ten rfl
  have hx : 'x' ∉ cs := h.notMem Numeral.isBase_ten rfl
  have hX : 'X' ∉ cs := h.notMem Numeral.isBase_ten rfl
  rw [readOption?, String.toList_ofList, trim_of_isVisible hbefore hbehind
    (h.ne_nil Numeral.isBase_ten) (isVisible_of_isNumeral Numeral.isBase_ten h)]
  split
  · exact absurd List.mem_cons_self hsharp
  · exact absurd (List.mem_cons_of_mem _ List.mem_cons_self) hx
  · exact absurd (List.mem_cons_of_mem _ List.mem_cons_self) hX
  · exact read?_of_isNumeral Numeral.isBase_ten h

theorem readOption?_minus_of_isNumeral (h : Numeral.IsNumeral 10 n cs) :
    readOption? (String.ofList (before ++ '-' :: cs ++ behind)) =
      if Numeral.exceedsLimit 10 cs.length then none else some (-n : Int) := by
  have hvisible : ∀ c ∈ '-' :: cs, IsVisible c :=
    List.forall_mem_cons.mpr ⟨by decide, isVisible_of_isNumeral Numeral.isBase_ten h⟩
  rw [readOption?, String.toList_ofList, trim_of_isVisible hbefore hbehind
    (List.cons_ne_nil _ _) hvisible]
  exact read?_minus_of_isNumeral Numeral.isBase_ten h

/-- A decimal numeral with too many digits is no option value, nor is it behind a minus sign. -/
theorem readOption?_of_overlong (h : Numeral.IsNumeral 10 n cs)
    (hlong : Numeral.maxDigits < cs.length) :
    readOption? (String.ofList (before ++ cs ++ behind)) = none ∧
      readOption? (String.ofList (before ++ '-' :: cs ++ behind)) = none := by
  have hexceeds : Numeral.exceedsLimit 10 cs.length = true := Numeral.exceedsLimit_ten.mpr hlong
  constructor
  · rw [readOption?_of_isNumeral hbefore hbehind h, if_pos hexceeds]
  · rw [readOption?_minus_of_isNumeral hbefore hbehind h, if_pos hexceeds]

end IntegerText

namespace IsNotation

theorem isVisible (h : IsNotation v cs) : ∀ c ∈ cs, IntegerText.IsVisible c := by
  cases h with
  | decimal h => exact IntegerText.isVisible_of_isNumeral Numeral.isBase_ten h
  | negative h =>
    rw [List.forall_mem_cons]
    exact ⟨by decide, IntegerText.isVisible_of_isNumeral Numeral.isBase_ten h⟩
  | marked hx h =>
    rw [List.forall_mem_cons, List.forall_mem_cons]
    exact ⟨by decide, by rcases hx with rfl | rfl <;> decide,
      IntegerText.isVisible_of_isNumeral Numeral.isBase_sixteen h⟩
  | sharp h =>
    rw [List.forall_mem_cons]
    exact ⟨by decide, IntegerText.isVisible_of_isNumeral Numeral.isBase_sixteen h⟩
  | negativeSharp h =>
    rw [List.forall_mem_cons, List.forall_mem_cons]
    exact ⟨by decide, by decide, IntegerText.isVisible_of_isNumeral Numeral.isBase_sixteen h⟩

theorem ne_nil (h : IsNotation v cs) : cs ≠ [] := by
  cases h with
  | decimal h => exact h.ne_nil Numeral.isBase_ten
  | negative h => exact List.cons_ne_nil _ _
  | marked hx h => exact List.cons_ne_nil _ _
  | sharp h => exact List.cons_ne_nil _ _
  | negativeSharp h => exact List.cons_ne_nil _ _

/-- Every notation of an integer is read as an option value, with blanks around it. -/
theorem readOption?_eq (h : IsNotation v cs) (before behind : List Char)
    (hbefore : ∀ c ∈ before, Text.isBlank c = true)
    (hbehind : ∀ c ∈ behind, Text.isBlank c = true) :
    IntegerText.readOption? (String.ofList (before ++ cs ++ behind)) = some v := by
  have hlimit {count : Nat} (hcount : count ≤ Numeral.maxDigits) :
      ¬Numeral.exceedsLimit 10 count = true := by
    rw [Numeral.exceedsLimit_ten]
    omega
  have htrim : Text.trim (before ++ cs ++ behind) = cs :=
    IntegerText.trim_of_isVisible hbefore hbehind h.ne_nil h.isVisible
  cases h with
  | decimal h hlength =>
    rw [IntegerText.readOption?_of_isNumeral hbefore hbehind h, if_neg (hlimit hlength)]
  | negative h hlength =>
    rw [IntegerText.readOption?_minus_of_isNumeral hbefore hbehind h, if_neg (hlimit hlength)]
  | marked hx h =>
    rw [IntegerText.readOption?, String.toList_ofList, htrim]
    rcases hx with rfl | rfl
    · exact IntegerText.read?_mark_of_isNumeral (.inl rfl) h
    · exact IntegerText.read?_mark_of_isNumeral (.inr rfl) h
  | sharp h =>
    rw [IntegerText.readOption?, String.toList_ofList, htrim]
    exact IntegerText.read?_of_isNumeral Numeral.isBase_sixteen h
  | negativeSharp h =>
    rw [IntegerText.readOption?, String.toList_ofList, htrim]
    exact IntegerText.read?_minus_of_isNumeral Numeral.isBase_sixteen h

end IsNotation

/-! ## Written forms -/

namespace Numeral

theorem toList_decimal (v : Int) :
    (decimal v).toList = (if v < 0 then ['-'] else []) ++ digits 10 v.natAbs := by
  rw [decimal, String.toList_append, String.toList_ofList]
  split <;> rfl

theorem isNumeral_natAbs (v : Int) : IsNumeral 10 v.natAbs (digits 10 v.natAbs) :=
  isNumeral_digits isBase_ten 0 v.natAbs

/-- An integer with few enough digits is written in decimal as it is spelled. -/
theorem spellsDecimal_decimal (hv : v.natAbs < 10 ^ maxDigits) :
    Operand.SpellsDecimal (decimal v).toList v := by
  have hlength : (digits 10 v.natAbs).length ≤ maxDigits :=
    (length_digits_le_iff isBase_ten (by decide)).mpr hv
  rw [toList_decimal]
  split
  · next hneg =>
    have hspells := Operand.SpellsDecimal.negative (isNumeral_natAbs v) hlength
    rwa [Int.ofNat_natAbs_of_nonpos (by omega), Int.neg_neg] at hspells
  · next hneg =>
    have hspells := Operand.SpellsDecimal.positive (isNumeral_natAbs v) hlength
    rwa [Int.natAbs_of_nonneg (by omega)] at hspells

end Numeral

/-- A word is written as a number sign and four hexadecimal digits. -/
theorem Word.exists_toList_hex (w : Int) :
    ∃ cs, (hex w).toList = '#' :: cs ∧ cs.length = 4 ∧
      Numeral.IsNumeral 16 (w % 65536).natAbs cs := by
  have hnonneg : ¬ w % 65536 < 0 := by omega
  have hlength : (Numeral.digits 16 (w % 65536).natAbs).length ≤ 4 :=
    (Numeral.length_digits_le_iff Numeral.isBase_sixteen (by decide)).mpr (by omega)
  -- zeros fill the digits up to four
  refine ⟨_, ?_, ?_, Numeral.isNumeral_digits Numeral.isBase_sixteen
    (4 - (Numeral.digits 16 (w % 65536).natAbs).length) _⟩
  · rw [hex, Numeral.hexadecimal, if_neg hnonneg, Text.padStart, String.length_ofList,
      String.toList_append, String.toList_append, String.toList_ofList, String.toList_ofList,
      String.toList_ofList]
    rfl
  · rw [List.length_append, List.length_replicate]
    omega

/-! ## Operands -/

namespace Operand

variable {s : String}

/-- An operand is its spelling, or its spelling and a line feed. -/
theorem exists_newline (s : String) :
    ∃ behind, s.toList = spelling s ++ behind ∧ ∀ c ∈ behind, c = '\n' := by
  unfold spelling dropFinalNewline
  split
  · next h => exact ⟨['\n'], (List.dropLast_append_getLast? _ h).symm, by simp⟩
  · exact ⟨[], (List.append_nil _).symm, by simp⟩

/-- A visible text is its own spelling. -/
theorem spelling_of_isVisible (h : ∀ c ∈ s.toList, IntegerText.IsVisible c) :
    spelling s = s.toList := by
  unfold spelling dropFinalNewline
  split
  · next hlast =>
    -- a line feed is a blank, and a visible text has none
    have hvisible : IntegerText.IsVisible '\n' := h _ (List.mem_of_getLast? hlast)
    exact absurd hvisible (by decide)
  · rfl

theorem isVisible_decimal (v : Int) :
    ∀ c ∈ (Numeral.decimal v).toList, IntegerText.IsVisible c := by
  have hdigits := IntegerText.isVisible_of_isNumeral Numeral.isBase_ten (Numeral.isNumeral_natAbs v)
  rw [Numeral.toList_decimal]
  split
  · exact List.forall_mem_cons.mpr ⟨by decide, hdigits⟩
  · exact hdigits

/-- An operand that is a number is spelled as a notation of it. -/
theorem isNotation_of_number? (h : number? s = some v) : IsNotation v (spelling s) := by
  generalize hs : spelling s = cs
  rcases number?_eq_some_iff.mp h with hdecimal | ⟨n, hhexadecimal, rfl⟩
  · rw [hs] at hdecimal
    cases hdecimal with
    | positive hn hlength => exact .decimal hn hlength
    | negative hn hlength => exact .negative hn hlength
  · rw [hs] at hhexadecimal
    obtain ⟨hn, -⟩ := hhexadecimal
    exact .sharp hn

/-- A number among the operands is the same integer as an option value. -/
theorem readOption?_of_number? (h : number? s = some v) : IntegerText.readOption? s = some v := by
  obtain ⟨behind, hs, hbehind⟩ := exists_newline s
  have hblank : ∀ c ∈ behind, Text.isBlank c = true := by
    intro c hc
    rw [hbehind c hc]
    rfl
  have hread := (isNotation_of_number? h).readOption?_eq [] behind (by simp) hblank
  rwa [List.nil_append, ← hs, String.ofList_toList] at hread

/-- The decimal form of an integer with few enough digits is read as the integer. -/
theorem number?_decimal (hv : v.natAbs < 10 ^ Numeral.maxDigits) :
    number? (Numeral.decimal v) = some v := by
  rw [number?_eq_some_iff, spelling_of_isVisible (isVisible_decimal v)]
  exact .inl (Numeral.spellsDecimal_decimal hv)

/-- The decimal form of any other integer has too many digits. -/
theorem overlong?_decimal (hv : 10 ^ Numeral.maxDigits ≤ v.natAbs) :
    overlong? (Numeral.decimal v) = some (Numeral.digits 10 v.natAbs).length := by
  rw [overlong?_eq_some_iff]
  refine ⟨v.natAbs, _, Numeral.isNumeral_natAbs v, ?_, rfl, ?_⟩
  · rw [spelling_of_isVisible (isVisible_decimal v), Numeral.toList_decimal]
    split
    · exact .inr rfl
    · exact .inl rfl
  · rw [← Nat.not_le, Numeral.length_digits_le_iff Numeral.isBase_ten (by decide)]
    exact Nat.not_lt.mpr hv

/-- The written form of a word is spelled as its low sixteen bits. -/
theorem spellsHexadecimal_hex (w : Int) :
    SpellsHexadecimal (spelling (Word.hex w)) (w % 65536).natAbs := by
  obtain ⟨cs, hs, hlength, hnumeral⟩ := Word.exists_toList_hex w
  have hnotation : IsNotation (w % 65536).natAbs (Word.hex w).toList := hs ▸ .sharp hnumeral
  rw [spelling_of_isVisible hnotation.isVisible, hs]
  exact .mk hnumeral hlength.le

/-- The written form of a word is read as its low sixteen bits. -/
theorem number?_hex (w : Int) : number? (Word.hex w) = some (w % 65536) := by
  rw [number?_eq_some_iff]
  exact .inr ⟨_, spellsHexadecimal_hex w, (Int.natAbs_of_nonneg (by omega)).symm⟩

end Operand

/-! ## Constants -/

/-- An integer of sixteen bits with a sign whose bits are the low sixteen bits of a word. -/
structure Word.IsSigned (v w : Int) : Prop where
  /-- It is not below the least such integer. -/
  lower : -0x8000 ≤ w
  /-- It is not above the greatest such integer. -/
  upper : w ≤ 0x7FFF
  /-- The low sixteen bits are the same. -/
  emod_eq : w % 0x10000 = v % 0x10000

theorem Word.isSigned_iff {v w : Int} : IsSigned v w ↔ Operand.signed (v % 65536) = w := by
  rw [Operand.signed]
  constructor
  · rintro ⟨hlower, hupper, hemod⟩
    split <;> omega
  · intro h
    split at h <;> constructor <;> omega

theorem Word.hex_congr {v w : Int} (h : w % 0x10000 = v % 0x10000) : hex w = hex v :=
  congrArg (fun r => "#" ++ Numeral.hexadecimal 4 r) h

namespace Operand

theorem constant?_decimal (hv : v.natAbs < 10 ^ Numeral.maxDigits) :
    constant? (Numeral.decimal v) = some v := by
  refine constant?_eq_some_iff.mpr (.decimal ?_)
  rw [spelling_of_isVisible (isVisible_decimal v)]
  exact Numeral.spellsDecimal_decimal hv

theorem constant?_hex (v : Int) : constant? (Word.hex v) = some (signed (v % 65536)) := by
  rw [constant?, number?_hex, startsWith_sharp_of_spellsHexadecimal (spellsHexadecimal_hex v)]
  rfl

/-- A constant behind an equals sign is a literal with its word. -/
theorem ofAddress_literal {w : Int} (h : constant? s = some w) :
    Cell.ofAddress ("=" ++ s) = .ok (.literal ("=" ++ s) w) := by
  have hlist : ("=" ++ s).toList = '=' :: s.toList := String.toList_append
  have hstart : startsWith ("=" ++ s) '=' = true := by
    rw [startsWith, hlist]
    rfl
  simp only [Cell.ofAddress, if_pos hstart, hlist, List.tail_cons, String.ofList_toList,
    readable_of_none (overlong?_of_constant? h), h]

/-- The readers agree on an integer, in every notation of it. -/
structure Agrees (v : Int) : Prop where
  /-- The decimal form is read as the integer among the operands. -/
  number_decimal : v.natAbs < 10 ^ Numeral.maxDigits → number? (Numeral.decimal v) = some v
  /-- The decimal form is read as the integer among the constants. -/
  constant_decimal : v.natAbs < 10 ^ Numeral.maxDigits → constant? (Numeral.decimal v) = some v
  /-- A decimal form that is too long is rejected for its digits, among the operands and the
  constants and as an option value. -/
  decimal_overlong : 10 ^ Numeral.maxDigits ≤ v.natAbs →
    IsOverlong (Numeral.decimal v) (Numeral.digits 10 v.natAbs).length ∧
      number? (Numeral.decimal v) = none ∧ constant? (Numeral.decimal v) = none ∧
        IntegerText.readOption? (Numeral.decimal v) = none
  /-- The form of a word is read without a sign among the operands. -/
  number_hex : number? (Word.hex v) = some (v % 0x10000)
  /-- The form of a word is read with its sign among the constants. -/
  constant_hex (w : Int) : constant? (Word.hex v) = some w ↔ Word.IsSigned v w
  /-- There is one integer with these bits and a sign. -/
  existsUnique_isSigned : ∃! w, Word.IsSigned v w
  /-- A word that is printed and entered again, as a constant or as a literal, keeps its bits and
  has their sign. -/
  entered (w : Int) : Word.IsSigned v w →
    Directive.items .constant [Word.hex v] = [.ok (.word w)] ∧
      Cell.ofAddress ("=" ++ Word.hex v) = .ok (.literal ("=" ++ Word.hex v) w) ∧
        Word.hex w = Word.hex v
  /-- A word of sixteen bits with a sign is entered as itself. -/
  kept : -0x8000 ≤ v → v ≤ 0x7FFF → constant? (Word.hex v) = some v
  /-- A number among the operands is the same integer as an option value. -/
  option (s : String) : number? s = some v → IntegerText.readOption? s = some v
  /-- Every notation, with blanks around it, is the integer as an option value. -/
  notations (before cs behind : List Char) : IsNotation v cs →
    (∀ c ∈ before, Text.isBlank c = true) → (∀ c ∈ behind, Text.isBlank c = true) →
      IntegerText.readOption? (String.ofList (before ++ cs ++ behind)) = some v
  /-- A decimal numeral that is too long, by its zeros too, is no option value. -/
  notations_overlong (before cs behind : List Char) : Numeral.IsNumeral 10 v.natAbs cs →
    Numeral.maxDigits < cs.length →
    (∀ c ∈ before, Text.isBlank c = true) → (∀ c ∈ behind, Text.isBlank c = true) →
      IntegerText.readOption? (String.ofList (before ++ cs ++ behind)) = none ∧
        IntegerText.readOption? (String.ofList (before ++ '-' :: cs ++ behind)) = none

/-- The decimal form of an integer with too many digits is read as none. -/
theorem rejected_decimal (hv : 10 ^ Numeral.maxDigits ≤ v.natAbs) :
    IsOverlong (Numeral.decimal v) (Numeral.digits 10 v.natAbs).length ∧
      number? (Numeral.decimal v) = none ∧ constant? (Numeral.decimal v) = none ∧
        IntegerText.readOption? (Numeral.decimal v) = none := by
  have hoverlong := overlong?_decimal hv
  have hlong : Numeral.maxDigits < (Numeral.digits 10 v.natAbs).length := by
    rw [← Nat.not_le, Numeral.length_digits_le_iff Numeral.isBase_ten (by decide)]
    exact Nat.not_lt.mpr hv
  refine ⟨overlong?_eq_some_iff.mp hoverlong, ?_, ?_, ?_⟩
  · refine Option.eq_none_iff_forall_ne_some.mpr fun w hw => ?_
    rw [overlong?_of_number? hw] at hoverlong
    cases hoverlong
  · refine Option.eq_none_iff_forall_ne_some.mpr fun w hw => ?_
    rw [overlong?_of_constant? hw] at hoverlong
    cases hoverlong
  · have hread := IntegerText.readOption?_of_overlong (List.forall_mem_nil _)
      (List.forall_mem_nil _) (Numeral.isNumeral_natAbs v) hlong
    rw [← String.ofList_toList (s := Numeral.decimal v), Numeral.toList_decimal]
    split
    · simpa using hread.2
    · simpa using hread.1

/-- **The notations agree.** -/
theorem notations_agree (v : Int) : Agrees v where
  number_decimal := number?_decimal
  constant_decimal := constant?_decimal
  decimal_overlong := rejected_decimal
  number_hex := number?_hex v
  constant_hex w := by rw [constant?_hex, Option.some_inj, Word.isSigned_iff]
  existsUnique_isSigned := by
    simp only [Word.isSigned_iff]
    exact existsUnique_eq'
  entered w h := by
    have hconstant : constant? (Word.hex v) = some w := by
      rw [constant?_hex, Word.isSigned_iff.mp h]
    refine ⟨?_, ofAddress_literal hconstant, Word.hex_congr h.emod_eq⟩
    simp only [Directive.items, constantItem, hconstant,
      readable_of_none (overlong?_of_constant? hconstant)]
  kept hlower hupper := by rw [constant?_hex, Word.isSigned_iff.mp ⟨hlower, hupper, rfl⟩]
  option s := readOption?_of_number?
  notations before cs behind h := h.readOption?_eq before behind
  notations_overlong before cs behind h hlong hbefore hbehind :=
    IntegerText.readOption?_of_overlong hbefore hbehind h hlong

/-- Zeros in front and large integers reach the limit: neither is every numeral of zero an option
value, nor is the decimal form of every integer a number or a constant. -/
theorem rejected_longNumerals :
    (Numeral.IsNumeral 10 0 (List.replicate 4301 '0') ∧
      IntegerText.readOption? (String.ofList (List.replicate 4301 '0')) = none) ∧
    number? (Numeral.decimal (10 ^ 4300)) = none ∧
    constant? (Numeral.decimal (10 ^ 4300)) = none := by
  have hzeros : Numeral.IsNumeral 10 0 (List.replicate 4301 '0') := by
    have hdigits : Numeral.digits 10 0 = ['0'] := rfl
    have hnumeral := Numeral.isNumeral_digits Numeral.isBase_ten 4300 0
    rwa [hdigits, ← List.replicate_succ'] at hnumeral
  have hread := IntegerText.readOption?_of_overlong (List.forall_mem_nil _) (List.forall_mem_nil _)
    hzeros (by rw [List.length_replicate]; decide)
  have hlarge : 10 ^ Numeral.maxDigits ≤ ((10 : Int) ^ 4300).natAbs := by
    have hten : Int.natAbs 10 = 10 := rfl
    rw [Int.natAbs_pow, hten, Numeral.maxDigits]
  obtain ⟨-, hnumber, hconstant, -⟩ := rejected_decimal hlarge
  rw [List.nil_append, List.append_nil] at hread
  exact ⟨⟨hzeros, hread.1⟩, hnumber, hconstant⟩

/-- The sign is that of the sixteenth bit. -/
example : constant? (Word.hex 0x7FFF) = some 0x7FFF ∧
    constant? (Word.hex 0x8000) = some (-0x8000) := by decide +kernel

end Operand

end WordMachine
