import WordMachine.Assembly.Directive
import WordMachine.Proofs.Sequence

/-!
# Spelling of cells

What the spelling of an operand says about its cell: a literal starts with an equals sign and holds
a constant, a label does neither and is no number.

## Main definitions

* `Cell.OfAddress`: the cells of an operand, by its spelling
* `Cell.Spelled`: the symbol of a cell is spelled like one
* `Cell.resolve?`: the word of a cell when operands stand for words

## Main results

* `Cell.ofAddress_eq_ok`: the cells of operands that stand for addresses
* `Cell.spelled_of_ofAddress`: the cell of an operand is spelled so
* `Cell.resolve?_of_ofAddress`: the cell of an operand has the word that the operand stands for
-/

namespace WordMachine

namespace Operand

theorem dropFinalNewline_cons {c : Char} (h : c ≠ '\n') (cs : List Char) :
    ∃ ds, dropFinalNewline (c :: cs) = c :: ds := by
  unfold dropFinalNewline
  split
  · next hl =>
    cases cs with
    | nil => exact absurd (by simpa using hl) h
    | cons d cs => exact ⟨_, List.dropLast_cons_cons⟩
  · exact ⟨cs, rfl⟩

/-- The first character of an operand spells it too. -/
theorem spelling_of_startsWith {s : String} {c : Char} (h : startsWith s c = true) (hc : c ≠ '\n') :
    ∃ ds, spelling s = c :: ds := by
  cases hl : s.toList with
  | nil => simp [startsWith, hl] at h
  | cons d cs =>
    obtain rfl : d = c := by simpa [startsWith, hl] using h
    obtain ⟨ds, hd⟩ := dropFinalNewline_cons hc cs
    exact ⟨ds, by rw [spelling, hl, hd]⟩

/-- An operand starts with the first character that spells it. -/
theorem startsWith_of_spelling {s : String} {c : Char} {cs : List Char} (h : spelling s = c :: cs) :
    startsWith s c = true := by
  unfold spelling dropFinalNewline at h
  have hhead : s.toList.head? = some c := by
    split at h
    · -- one line feed was dropped behind the character
      cases hs : s.toList with
      | nil => simp [hs] at h
      | cons d ds =>
        cases ds with
        | nil => simp [hs] at h
        | cons e es =>
          rw [hs, List.dropLast_cons_cons] at h
          rw [(List.cons.inj h).1]
          rfl
    · rw [h]
      rfl
  rw [startsWith, hhead, beq_self_eq_true]

/-- A register is spelled with its digit. -/
theorem register?_eq_some_iff {s : String} {r : Fin 8} :
    register? s = some r ↔ spelling s = ['G', 'R', Nat.digitChar r] := by
  unfold register?
  constructor
  · intro h
    split at h
    · next c hs =>
      have hc := List.find?_some h
      obtain rfl : Nat.digitChar r = c := by simpa using hc
      exact hs
    · cases h
  · intro h
    have hfind : ∀ r : Fin 8,
        (List.finRange 8).find? (fun i : Fin 8 => Nat.digitChar i == Nat.digitChar r) =
          some r := by decide
    rw [h]
    exact hfind r

theorem isRegisterLike_of_register? {s : String} {r : Fin 8} (h : register? s = some r) :
    isRegisterLike s = true := by
  have hdigit : ∀ r : Fin 8, isDigit (Nat.digitChar r) = true := by decide
  simp [isRegisterLike, register?_eq_some_iff.mp h, hdigit]

theorem register?_of_isRegisterLike {s : String} (h : isRegisterLike s = false) :
    register? s = none := by
  cases hr : register? s with
  | none => rfl
  | some r => cases h.symm.trans (isRegisterLike_of_register? hr)

theorem overlong?_of_number? {s : String} {n : Int} (h : number? s = some n) :
    overlong? s = none := by
  unfold number? at h
  split at h
  · cases h
  · next ho => simpa using ho

/-- What starts with an equals sign is no number. -/
theorem number?_of_startsWith {s : String} (h : startsWith s '=' = true) : number? s = none := by
  obtain ⟨ds, hd⟩ := spelling_of_startsWith h (by decide)
  have hdigit : Numeral.digit? 10 '=' = none := by decide
  rw [number?, hd]
  simp [decimal?, hexadecimal?, Numeral.read?, Numeral.readFrom, hdigit]

/-- What starts with an equals sign is no constant. -/
theorem constant?_of_startsWith {s : String} (h : startsWith s '=' = true) :
    constant? s = none := by
  obtain ⟨ds, hd⟩ := spelling_of_startsWith h (by decide)
  rw [constant?, number?_of_startsWith h]
  simp [character?, hd]

end Operand

namespace Cell

/-- The cells of operands that stand for addresses. -/
inductive OfAddress (operand : String) : Cell → Prop
  /-- A literal: a constant behind an equals sign. -/
  | literal {value : Int} (hstart : Operand.startsWith operand '=' = true)
      (hvalue : Operand.constant? (String.ofList operand.toList.tail) = some value) :
      OfAddress operand (.literal operand value)
  /-- A number. -/
  | number {n : Int} (hstart : Operand.startsWith operand '=' = false)
      (hnumber : Operand.number? operand = some n) : OfAddress operand (.word n)
  /-- A label. -/
  | label (hstart : Operand.startsWith operand '=' = false)
      (hnumber : Operand.number? operand = none)
      (hstring : Operand.startsWith operand '\'' = false)
      (hlike : Operand.isRegisterLike operand = false) : OfAddress operand (.label operand)

theorem ofAddress_eq_ok {operand : String} {c : Cell} (h : ofAddress operand = .ok c) :
    OfAddress operand c := by
  unfold ofAddress at h
  split at h
  · next hs =>
    obtain ⟨-, h⟩ := Operand.readable_eq_ok_iff.mp h
    split at h
    · next hv => exact Except.ok.inj h ▸ .literal hs hv
    · cases h
  · next hs =>
    have hs := Bool.eq_false_iff.mpr hs
    obtain ⟨-, h⟩ := Operand.readable_eq_ok_iff.mp h
    split at h
    · next hn => exact Except.ok.inj h ▸ .number hs hn
    · next hn =>
      split at h
      · cases h
      · next ho =>
        rw [Bool.or_eq_true, not_or, Bool.not_eq_true, Bool.not_eq_true] at ho
        exact Except.ok.inj h ▸ .label hs hn ho.1 ho.2

/-- The symbol of a cell is spelled like one: a literal starts with an equals sign before a
constant; a label does not, and is no number. -/
def Spelled : Cell → Prop
  | word _ => True
  | label name => Operand.startsWith name '=' = false ∧ Operand.number? name = none
  | literal token value => Operand.startsWith token '=' = true ∧
      Operand.constant? (String.ofList token.toList.tail) = some value

theorem spelled_of_ofAddress {operand : String} {c : Cell} (h : ofAddress operand = .ok c) :
    c.Spelled := by
  cases ofAddress_eq_ok h with
  | literal hs hv => exact ⟨hs, hv⟩
  | number => exact trivial
  | label hs hn => exact ⟨hs, hn⟩

/-- The word of a cell when the operands that are symbols stand for words. -/
def resolve? (value? : String → Option Int) : Cell → Option Int
  | word value => some value
  | label name => value? name
  | literal token _ => value? token

/-- The cell of an operand has the word that the operand stands for. -/
theorem resolve?_of_ofAddress {value? : String → Option Int} {operand : String} {c : Cell}
    (numbers : ∀ n, Operand.number? operand = some n → value? operand = some n)
    (h : ofAddress operand = .ok c) : c.resolve? value? = value? operand := by
  cases ofAddress_eq_ok h with
  | literal => rfl
  | number _ hn => exact (numbers _ hn).symm
  | label => rfl

end Cell

/-! ## Complaints about operands -/

namespace Operand

/-- An operand holds a decimal number with too many digits: it is such a number, or a literal of
one. -/
def HoldsOverlong (operand : String) (digits : Nat) : Prop :=
  overlong? operand = some digits ∨
    startsWith operand '=' = true ∧ overlong? (String.ofList operand.toList.tail) = some digits

/-- What is refused is an overlong number, or refused for another reason. -/
theorem readable_eq_error {α : Type} {s : String} {x : Except Complaint α} {c : Complaint}
    (h : readable s x = .error c) :
    (∃ digits, overlong? s = some digits ∧ c = .overlongNumber digits) ∨ x = .error c := by
  unfold readable at h
  split at h
  · next digits ho => exact .inl ⟨digits, ho, (Except.error.inj h).symm⟩
  · exact .inr h

end Operand

/-- The complaints that a row with operands may get: about an operand that holds an overlong number,
or about anything else than numbers and undefined labels. -/
inductive Complaint.Fits (operands : List String) : Complaint → Prop
  | overlong {operand : String} {digits : Nat} (hm : operand ∈ operands)
      (h : Operand.HoldsOverlong operand digits) : Fits operands (.overlongNumber digits)
  | other {c : Complaint} (hreference : c.kind ≠ .reference) (hnumber : c.kind ≠ .number) :
      Fits operands c

theorem Complaint.Fits.kind_ne {operands : List String} {c : Complaint} (h : c.Fits operands) :
    c.kind ≠ .reference := by
  cases h with
  | overlong => nofun
  | other hreference => exact hreference

theorem Complaint.fits_of_kind {operands : List String} {c : Complaint} {k : Kind} (h : c.kind = k)
    (hreference : k ≠ .reference) (hnumber : k ≠ .number) : c.Fits operands :=
  .other (h ▸ hreference) (h ▸ hnumber)

theorem Cell.fits_of_ofAddress {operands : List String} {operand : String} {c : Complaint}
    (hm : operand ∈ operands) (h : Cell.ofAddress operand = .error c) : c.Fits operands := by
  unfold ofAddress at h
  split at h
  · next hs =>
    obtain ⟨digits, ho, rfl⟩ | h := Operand.readable_eq_error h
    · exact .overlong hm (.inr ⟨hs, ho⟩)
    · split at h
      · cases h
      · exact Except.error.inj h ▸ .other nofun nofun
  · obtain ⟨digits, ho, rfl⟩ | h := Operand.readable_eq_error h
    · exact .overlong hm (.inl ho)
    · split at h
      · cases h
      · split at h
        · exact Except.error.inj h ▸ .other nofun nofun
        · cases h

theorem fits_of_subtypeOf {operands : List String} {operand : String} {c : Complaint}
    (hm : operand ∈ operands) (h : subtypeOf operand = .error c) : c.Fits operands := by
  obtain ⟨digits, ho, rfl⟩ | h := Operand.readable_eq_error h
  · exact .overlong hm (.inl ho)
  · split at h
    · split at h
      · cases h
      · exact Except.error.inj h ▸ .other nofun nofun
    · exact Except.error.inj h ▸ .other nofun nofun

namespace Mnemonic

theorem kind_of_encodeRegisterForm {m : Mnemonic} {r s : Fin 8} {otherwise c : Complaint}
    (ho : otherwise.kind = .operand) (h : m.encodeRegisterForm r s otherwise = .error c) :
    c.kind = .operand := by
  unfold encodeRegisterForm at h
  split at h
  · cases h
  · exact Except.error.inj h ▸ ho

theorem kind_of_leadingRegister {m : Mnemonic} {operands : List String} {c : Complaint}
    (h : m.leadingRegister operands = .error c) : c.kind = .operand := by
  unfold leadingRegister at h
  split at h
  · cases h
  · split at h
    · cases h
    · exact Except.error.inj h ▸ rfl

theorem kind_of_addressOperand {m : Mnemonic} {operand : String} {c : Complaint}
    (h : m.addressOperand operand = .error c) : c.kind = .operand := by
  unfold addressOperand at h
  split at h
  · exact Except.error.inj h ▸ rfl
  · cases h

theorem kind_of_indexRegister {m : Mnemonic} {operand : String} {c : Complaint}
    (h : m.indexRegister operand = .error c) : c.kind = .operand := by
  unfold indexRegister at h
  split at h
  · split at h
    · exact Except.error.inj h ▸ rfl
    · cases h
  · exact Except.error.inj h ▸ rfl

theorem kind_of_addressAndIndex {m : Mnemonic} {operands : List String} {c : Complaint}
    (h : m.addressAndIndex operands = .error c) : c.kind = .operand := by
  unfold addressAndIndex at h
  split at h
  · obtain h | ⟨address, -, h⟩ := bind_eq_error h
    · exact kind_of_addressOperand h
    · cases h
  · obtain h | ⟨address, -, h⟩ := bind_eq_error h
    · exact kind_of_addressOperand h
    · obtain h | ⟨x, -, h⟩ := bind_eq_error h
      · exact kind_of_indexRegister h
      · cases h
  · exact Except.error.inj h ▸ rfl

/-- An encoding that fails complains about the operands. -/
theorem kind_of_encode {m : Mnemonic} {operands : List String} {c : Complaint}
    (h : m.encode operands = .error c) : c.kind = .operand := by
  unfold encode at h
  split at h
  · exact kind_of_encodeRegisterForm rfl h
  · split at h
    · exact kind_of_encodeRegisterForm rfl h
    · unfold encodeAddressForm at h
      split at h
      · exact Except.error.inj h ▸ rfl
      · obtain h | ⟨⟨first, rest⟩, -, h⟩ := bind_eq_error h
        · exact kind_of_leadingRegister h
        · obtain h | ⟨⟨address, index⟩, -, h⟩ := bind_eq_error h
          · exact kind_of_addressAndIndex h
          · cases h

theorem addressOperand_eq_ok {m : Mnemonic} {operand address : String}
    (h : m.addressOperand operand = .ok address) :
    Operand.isRegisterLike operand = false ∧ address = operand := by
  unfold addressOperand at h
  split at h
  · cases h
  · next hlike => exact ⟨Bool.eq_false_iff.mpr hlike, (Except.ok.inj h).symm⟩

theorem indexRegister_eq_ok {m : Mnemonic} {operand : String} {x : Fin 8}
    (h : m.indexRegister operand = .ok x) : Operand.register? operand = some x ∧ x ≠ 0 := by
  unfold indexRegister at h
  split at h
  · next r hr =>
    split at h
    · cases h
    · next hne => exact Except.ok.inj h ▸ ⟨hr, hne⟩
  · cases h

/-- The address and index operands that are encoded: an operand that is not spelled like a register,
and perhaps an index register behind it. -/
theorem addressAndIndex_eq_ok {m : Mnemonic} {operands : List String} {address : String} {x : Fin 8}
    (h : m.addressAndIndex operands = .ok (address, x)) :
    Operand.isRegisterLike address = false ∧
      (operands = [address] ∧ x = 0 ∨
        ∃ index, operands = [address, index] ∧ Operand.register? index = some x ∧ x ≠ 0) := by
  unfold addressAndIndex at h
  split at h
  · obtain ⟨a, ha, hresult⟩ := bind_eq_ok h
    obtain ⟨hlike, rfl⟩ := addressOperand_eq_ok ha
    cases hresult
    exact ⟨hlike, .inl ⟨rfl, rfl⟩⟩
  · obtain ⟨a, ha, hindexed⟩ := bind_eq_ok h
    obtain ⟨x, hx, hresult⟩ := bind_eq_ok hindexed
    obtain ⟨hlike, rfl⟩ := addressOperand_eq_ok ha
    cases hresult
    exact ⟨hlike, .inr ⟨_, rfl, indexRegister_eq_ok hx⟩⟩
  · cases h

theorem address_of_encodeRegisterForm {m : Mnemonic} {r s : Fin 8} {otherwise : Complaint}
    {e : Encoding} (h : m.encodeRegisterForm r s otherwise = .ok e) : e.address = none := by
  unfold encodeRegisterForm at h
  split at h
  · exact Except.ok.inj h ▸ rfl
  · cases h

/-- An address operand is one of the operands, and not spelled like a register. -/
theorem mem_of_encode {m : Mnemonic} {operands : List String} {e : Encoding} {operand : String}
    (h : m.encode operands = .ok e) (ha : e.address = some operand) :
    operand ∈ operands ∧ Operand.isRegisterLike operand = false := by
  unfold encode at h
  split at h
  · rw [address_of_encodeRegisterForm h] at ha
    cases ha
  · split at h
    · rw [address_of_encodeRegisterForm h] at ha
      cases ha
    · unfold encodeAddressForm at h
      split at h
      · cases h
      · obtain ⟨⟨first, rest⟩, hlead, h⟩ := bind_eq_ok h
        obtain ⟨⟨address, x⟩, haddress, h⟩ := bind_eq_ok h
        obtain rfl := Except.ok.inj h
        obtain rfl := Option.some.inj ha
        obtain ⟨hlike, hoperands⟩ := addressAndIndex_eq_ok haddress
        have hmem : address ∈ rest := by
          rcases hoperands with ⟨rfl, -⟩ | ⟨index, rfl, -⟩ <;> exact List.mem_cons_self
        refine ⟨?_, hlike⟩
        -- the operands behind the leading register are among the operands
        unfold leadingRegister at hlead
        split at hlead
        · obtain ⟨-, rfl⟩ := Prod.mk.inj (Except.ok.inj hlead)
          exact hmem
        · split at hlead
          · obtain ⟨-, rfl⟩ := Prod.mk.inj (Except.ok.inj hlead)
            exact List.mem_of_mem_tail hmem
          · cases hlead

end Mnemonic

/-! ## The items of a row -/

theorem subtypeOf_of_number? {operand : String} {subtype : Int}
    (h : Operand.number? operand = some subtype) (range : 0 ≤ subtype ∧ subtype ≤ 15) :
    subtypeOf operand = .ok subtype := by
  rw [subtypeOf, Operand.readable_of_none (Operand.overlong?_of_number? h), h]
  exact if_pos range

theorem subtypeOf_eq_ok {operand : String} {subtype : Int} (h : subtypeOf operand = .ok subtype) :
    Operand.number? operand = some subtype ∧ 0 ≤ subtype ∧ subtype ≤ 15 := by
  obtain ⟨-, h⟩ := Operand.readable_eq_ok_iff.mp h
  split at h
  · next n hn =>
    split at h
    · next range => exact Except.ok.inj h ▸ ⟨hn, range⟩
    · cases h
  · cases h

/-- An item that a row with operands may have: a known word, the cell of an address operand, or a
complaint that fits. -/
inductive Item.Plain (operands : List String) : Item → Prop
  | word (value : Int) : Plain operands (.ok (.word value))
  | address {operand : String} (hm : operand ∈ operands) : Plain operands (Cell.ofAddress operand)
  | complaint {c : Complaint} (h : c.Fits operands) : Plain operands (.error c)

namespace Item.Plain

variable {operands : List String} {item : Item}

theorem call {subtype : Int} {buffer length : String} (hb : buffer ∈ operands)
    (hl : length ∈ operands) (h : item ∈ callItems subtype buffer length) :
    Plain operands item := by
  simp only [callItems, List.mem_cons, List.not_mem_nil, or_false] at h
  rcases h with rfl | rfl | rfl
  · exact .word _
  · exact .address hb
  · exact .address hl

theorem constant {operand : String} (hm : operand ∈ operands) :
    Plain operands (constantItem operand) := by
  unfold constantItem
  cases ho : Operand.overlong? operand with
  | some digits =>
    rw [Operand.readable_of_some ho]
    exact .complaint (.overlong hm (.inl ho))
  | none =>
    rw [Operand.readable_of_none ho]
    split
    · exact .word _
    · split
      · exact .complaint (.other nofun nofun)
      · exact .address hm

theorem single {c : Complaint} (h : item ∈ [(.error c : Item)]) (hc : c.Fits operands) :
    Plain operands item :=
  List.mem_singleton.mp h ▸ .complaint hc

theorem directive {d : Directive} (h : item ∈ d.items operands) : Plain operands item := by
  cases d with
  | start | finish => cases h
  | reserve => exact List.mem_singleton.mp h ▸ .word _
  | push | pop => exact single h (.other nofun nofun)
  | constant =>
    simp only [Directive.items] at h
    split at h
    · exact List.mem_singleton.mp h ▸ constant List.mem_cons_self
    · exact single h (.other nofun nofun)
  | input | output =>
    simp only [Directive.items] at h
    split at h
    · exact call (by simp) (by simp) h
    · exact single h (.other nofun nofun)

theorem supervisor (h : item ∈ supervisorItems operands) : Plain operands item := by
  unfold supervisorItems at h
  split at h
  · split at h
    · exact call (by simp) (by simp) h
    · next hs => exact single h (fits_of_subtypeOf List.mem_cons_self hs)
  · exact single h (.other nofun nofun)

theorem instruction {m : Mnemonic} (h : item ∈ m.items operands) : Plain operands item := by
  unfold Mnemonic.items at h
  split at h
  · exact supervisor h
  · split at h
    · next he =>
      exact single h (Complaint.fits_of_kind (Mnemonic.kind_of_encode he) nofun nofun)
    · next he =>
      -- the instruction word, and the cell of the address operand if there is one
      rcases List.mem_cons.mp h with rfl | h
      · exact .word _
      · obtain ⟨operand, ha, rfl⟩ := List.mem_map.mp h
        exact .address (Mnemonic.mem_of_encode he (Option.mem_toList.mp ha)).1

end Item.Plain

namespace Row

theorem plain_of_mem_items {r : Row} {item : Item} (h : item ∈ r.items) :
    Item.Plain r.given item := by
  unfold items at h
  split at h
  · cases h
  · split at h
    · exact .directive h
    · split at h
      · exact .instruction h
      · exact .single h (.other nofun nofun)

end Row

end WordMachine
