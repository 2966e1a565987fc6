import Mathlib
import WordMachine.Proofs.Spelling

/-!
# Operand forms

Every instruction has a list of operand forms, which say for each operand field what stands in it.
The encoder accepts these forms. It also accepts some rows that have none of them: it looks at the
operands without their empty fields, so that it cannot tell where an empty field was, and it takes
no operands, or two registers, for any instruction with a register form.

## Main definitions

* `OperandForm.Fits`: the operand fields have a form
* `Mnemonic.Documented`: the operand fields have a form that is listed for the instruction
* `Row.Stray`: the row has no such form and is accepted all the same

## Main results

* `Mnemonic.encode_of_fits`, `Mnemonic.fits_of_encode`: the operands that are encoded
* `Row.encodes_iff`: the rows that are encoded are the documented and the stray ones
-/

namespace WordMachine

namespace Operand

/-- An operand names a general register that may serve as an index register. -/
def IsIndex (s : String) : Prop :=
  ∃ r ∈ register? s, 0 < r.val

/-- An operand is there and is not spelled like a register. -/
def IsAddress (s : String) : Prop :=
  s ≠ "" ∧ isRegisterLike s = false

instance (s : String) : Decidable (IsIndex s) :=
  inferInstanceAs (Decidable (∃ r ∈ register? s, 0 < r.val))

instance (s : String) : Decidable (IsAddress s) :=
  inferInstanceAs (Decidable (_ ∧ _))

end Operand

open Operand

/-- An operand field; a field that is not there is empty. -/
def operandField (operands : List String) (i : Nat) : String :=
  operands.getD i ""

/-- What stands in the operand fields. -/
inductive OperandForm where
  /-- Nothing. -/
  | empty
  /-- Two registers. -/
  | registers
  /-- A register, an address and perhaps an index register. -/
  | registerAddress
  /-- An address and perhaps an index register. -/
  | address
deriving DecidableEq, Repr

/-- The operand fields, by position, have a form. -/
def OperandForm.Fits (operands : List String) : OperandForm → Prop
  | empty =>
    operandField operands 0 = "" ∧ operandField operands 1 = "" ∧ operandField operands 2 = ""
  | registers =>
    (register? (operandField operands 0)).isSome ∧ (register? (operandField operands 1)).isSome ∧
      operandField operands 2 = ""
  | registerAddress =>
    (register? (operandField operands 0)).isSome ∧ IsAddress (operandField operands 1) ∧
      (operandField operands 2 = "" ∨ IsIndex (operandField operands 2))
  | address =>
    IsAddress (operandField operands 0) ∧
      (operandField operands 1 = "" ∨ IsIndex (operandField operands 1)) ∧
      operandField operands 2 = ""

instance OperandForm.decidableFits (operands : List String) :
    (f : OperandForm) → Decidable (f.Fits operands)
  | .empty => inferInstanceAs (Decidable (_ ∧ _ ∧ _))
  | .registers => inferInstanceAs (Decidable (_ ∧ _ ∧ _))
  | .registerAddress => inferInstanceAs (Decidable (_ ∧ _ ∧ (_ ∨ _)))
  | .address => inferInstanceAs (Decidable (_ ∧ (_ ∨ _) ∧ _))

namespace Mnemonic

/-- The operand forms of an instruction; the supervisor call is not encoded by them. -/
def operandForms : Mnemonic → List OperandForm
  | nop | ret => [.empty]
  | ld | adda | suba | and | or | xor | cpa => [.registers, .registerAddress]
  | st | lad => [.registerAddress]
  | jmi | jnz | jze | jump | jpl => [.address]
  | svc => []

/-- The forms that an instruction has not, and that are accepted because it has a register form:
two registers for an instruction that takes nothing, and nothing for one that takes two. -/
def looseForms : Mnemonic → List OperandForm
  | nop | ret => [.registers]
  | ld | adda | suba | and | or | xor | cpa => [.empty]
  | st | lad | jmi | jnz | jze | jump | jpl | svc => []

/-- The operand fields have one of the forms of the instruction. -/
def Documented (m : Mnemonic) (operands : List String) : Prop :=
  ∃ f ∈ m.operandForms, f.Fits operands

end Mnemonic

/-- An operand field that is empty stands before one that is not. -/
def Gapped (operands : List String) : Prop :=
  (operandField operands 0 = "" ∧
      (operandField operands 1 ≠ "" ∨ operandField operands 2 ≠ "")) ∨
    (operandField operands 1 = "" ∧ operandField operands 2 ≠ "")

/-- The operand fields have a form that the instruction has not, or they have a gap and get one of
these forms when it is closed. -/
def Row.Stray (r : Row) (m : Mnemonic) : Prop :=
  (∃ f ∈ m.looseForms, f.Fits r.operands) ∨
    Gapped r.operands ∧ ∃ f ∈ m.operandForms ++ m.looseForms, f.Fits r.given

/-! ## Operands without empty ones -/

/-- Operands, none of them empty, that have room in a row. -/
structure Packed (operands : List String) : Prop where
  length_le : operands.length ≤ maxOperands
  ne_empty : ∀ s ∈ operands, s ≠ ""

theorem Row.packed_given (r : Row) : Packed r.given where
  length_le := (List.length_filter_le _ _).trans (List.length_take_le _ _)
  ne_empty s hs := by simpa using (List.mem_filter.mp hs).2

namespace Packed

variable {operands : List String} (h : Packed operands)
include h

/-- An operand field is empty only behind all operands. -/
theorem length_le_of_field {n : Nat} (hempty : operandField operands n = "") :
    operands.length ≤ n := by
  by_contra hlt
  have hget : operandField operands n = operands[n] := by
    rw [operandField, List.getD_eq_getElem _ _ (by omega)]
  exact h.ne_empty _ (List.getElem_mem _) (hget.symm.trans hempty)

theorem tail : Packed operands.tail where
  length_le := (List.length_tail.trans_le (Nat.sub_le _ _)).trans h.length_le
  ne_empty s hs := h.ne_empty s (List.mem_of_mem_tail hs)

theorem eq_nil (hf : OperandForm.empty.Fits operands) : operands = [] :=
  List.length_eq_zero_iff.mp (Nat.le_zero.mp (h.length_le_of_field hf.1))

theorem eq_registers (hf : OperandForm.registers.Fits operands) :
    ∃ x y r s, operands = [x, y] ∧ register? x = some r ∧ register? y = some s := by
  obtain ⟨h0, h1, h2⟩ := hf
  have hlength := h.length_le_of_field h2
  obtain ⟨r, hr⟩ := Option.isSome_iff_exists.mp h0
  obtain ⟨s, hs⟩ := Option.isSome_iff_exists.mp h1
  match operands with
  | [] => cases hr
  | [x] => cases hs
  | [x, y] => exact ⟨x, y, r, s, rfl, hr, hs⟩
  | _ :: _ :: _ :: _ => simp at hlength

theorem eq_registerAddress (hf : OperandForm.registerAddress.Fits operands) :
    ∃ x y r, register? x = some r ∧ IsAddress y ∧
      (operands = [x, y] ∨ ∃ z, operands = [x, y, z] ∧ IsIndex z) := by
  obtain ⟨h0, h1, h2⟩ := hf
  obtain ⟨r, hr⟩ := Option.isSome_iff_exists.mp h0
  match operands with
  | [] => cases hr
  | [x] => exact absurd rfl h1.1
  | [x, y] => exact ⟨x, y, r, hr, h1, .inl rfl⟩
  | [x, y, z] =>
    refine ⟨x, y, r, hr, h1, .inr ⟨z, rfl, ?_⟩⟩
    exact h2.resolve_left (h.ne_empty z (by simp))
  | _ :: _ :: _ :: _ :: _ =>
    have hlength := h.length_le
    simp only [maxOperands, List.length_cons] at hlength
    omega

theorem eq_address (hf : OperandForm.address.Fits operands) :
    ∃ y, IsAddress y ∧ (operands = [y] ∨ ∃ z, operands = [y, z] ∧ IsIndex z) := by
  obtain ⟨h0, h1, h2⟩ := hf
  have hlength := h.length_le_of_field h2
  match operands with
  | [] => exact absurd rfl h0.1
  | [y] => exact ⟨y, h0, .inl rfl⟩
  | [y, z] =>
    refine ⟨y, h0, .inr ⟨z, rfl, ?_⟩⟩
    exact h1.resolve_left (h.ne_empty z (by simp))
  | _ :: _ :: _ :: _ => simp at hlength

end Packed

/-! ## What is encoded -/

namespace Mnemonic

variable {m : Mnemonic} {operands : List String}

theorem indexRegister_of_isIndex {z : String} (h : IsIndex z) : ∃ x, m.indexRegister z = .ok x := by
  obtain ⟨x, hx, hpos⟩ := h
  rw [indexRegister, Option.mem_def.mp hx]
  exact ⟨x, if_neg (Fin.pos_iff_ne_zero.mp hpos)⟩

theorem addressOperand_of_isAddress {y : String} (h : IsAddress y) :
    m.addressOperand y = .ok y := by
  rw [addressOperand, h.2]
  rfl

/-- An address is taken with an index register and without one. -/
theorem addressAndIndex_of_isAddress {y : String} (h : IsAddress y)
    (ho : operands = [y] ∨ ∃ z, operands = [y, z] ∧ IsIndex z) :
    ∃ p, m.addressAndIndex operands = .ok p := by
  rcases ho with rfl | ⟨z, rfl, hz⟩
  · rw [addressAndIndex, addressOperand_of_isAddress h]
    exact ⟨(y, 0), rfl⟩
  · obtain ⟨x, hx⟩ := indexRegister_of_isIndex (m := m) hz
    rw [addressAndIndex, addressOperand_of_isAddress h, hx]
    exact ⟨(y, x), rfl⟩

/-- The forms that are accepted are those for which the instruction has an operation code. -/
theorem mem_forms_iff (hs : m ≠ .svc) (f : OperandForm) :
    f ∈ m.operandForms ++ m.looseForms ↔
      match f with
      | .empty | .registers => (m.opcode? .register).isSome = true
      | .registerAddress => (m.opcode? .address).isSome = true ∧ m.takesAddressFirst = false
      | .address => (m.opcode? .address).isSome = true ∧ m.takesAddressFirst = true := by
  cases m <;> cases f <;> first | contradiction | decide

theorem takesAddressFirst_of_opcode? (h : (m.opcode? .register).isSome = true) :
    m.takesAddressFirst = false := by
  cases m <;> first | rfl | cases h

theorem encodeRegisterForm_isSome {r s : Fin 8} {otherwise : Complaint} :
    (∃ e, m.encodeRegisterForm r s otherwise = .ok e) ↔ (m.opcode? .register).isSome = true := by
  unfold encodeRegisterForm
  cases m.opcode? .register <;> simp

theorem encodeAddressForm_of_leadingRegister (h : (m.opcode? .address).isSome = true)
    {first : Fin 8} {rest : List String} (hlead : m.leadingRegister operands = .ok (first, rest))
    {y : String} (hy : IsAddress y) (ho : rest = [y] ∨ ∃ z, rest = [y, z] ∧ IsIndex z) :
    ∃ e, m.encodeAddressForm operands = .ok e := by
  obtain ⟨opcode, hcode⟩ := Option.isSome_iff_exists.mp h
  obtain ⟨p, hp⟩ := addressAndIndex_of_isAddress (m := m) hy ho
  rw [encodeAddressForm, hcode]
  dsimp only
  rw [hlead]
  show ∃ e, (m.addressAndIndex rest >>= fun p => _) = .ok e
  rw [hp]
  exact ⟨_, rfl⟩

/-- The operands of the forms of an instruction are encoded, and so are those of its loose forms. -/
theorem encode_of_fits (hs : m ≠ .svc) (h : Packed operands) {f : OperandForm}
    (hm : f ∈ m.operandForms ++ m.looseForms) (hf : f.Fits operands) :
    ∃ e, m.encode operands = .ok e := by
  rw [mem_forms_iff hs] at hm
  cases f with
  | empty =>
    obtain rfl := h.eq_nil hf
    exact encodeRegisterForm_isSome.mpr hm
  | registers =>
    have hfirst := takesAddressFirst_of_opcode? hm
    obtain ⟨x, y, r, s, rfl, hr, hs⟩ := h.eq_registers hf
    have hpair : m.registerPair? [x, y] = some (r, s) := by
      rw [registerPair?, hfirst, hr, hs]
      rfl
    rw [encode, if_neg nofun, hpair]
    exact encodeRegisterForm_isSome.mpr hm
  | registerAddress =>
    obtain ⟨hcode, hfirst⟩ := hm
    obtain ⟨x, y, r, hr, hy, ho⟩ := h.eq_registerAddress hf
    have hlead : m.leadingRegister operands = .ok (r, operands.tail) := by
      rcases ho with rfl | ⟨z, rfl, -⟩ <;> simp [leadingRegister, hfirst, hr]
    have hpair : m.registerPair? operands = none := by
      rcases ho with rfl | ⟨z, rfl, -⟩
      · simp [registerPair?, register?_of_isRegisterLike hy.2]
      · rfl
    have hne : operands.isEmpty = false := by
      rcases ho with rfl | ⟨z, rfl, -⟩ <;> rfl
    have hrest : operands.tail = [y] ∨ ∃ z, operands.tail = [y, z] ∧ IsIndex z := by
      rcases ho with rfl | ⟨z, rfl, hz⟩
      · exact .inl rfl
      · exact .inr ⟨z, rfl, hz⟩
    rw [encode, hne, hpair]
    exact encodeAddressForm_of_leadingRegister hcode hlead hy hrest
  | address =>
    obtain ⟨hcode, hfirst⟩ := hm
    obtain ⟨y, hy, ho⟩ := h.eq_address hf
    have hlead : m.leadingRegister operands = .ok (0, operands) := by
      rw [leadingRegister, hfirst]
      rfl
    have hpair : m.registerPair? operands = none := by
      rcases ho with rfl | ⟨z, rfl, -⟩ <;> simp [registerPair?, hfirst]
    have hne : operands.isEmpty = false := by
      rcases ho with rfl | ⟨z, rfl, -⟩ <;> rfl
    rw [encode, hne, hpair]
    exact encodeAddressForm_of_leadingRegister hcode hlead hy ho

/-- Operands that are taken for an address are one, perhaps with an index register behind it. -/
theorem eq_of_addressAndIndex {p : String × Fin 8} (h : Packed operands)
    (hp : m.addressAndIndex operands = .ok p) :
    ∃ y, IsAddress y ∧ (operands = [y] ∨ ∃ z, operands = [y, z] ∧ IsIndex z) := by
  unfold addressAndIndex at hp
  split at hp
  · next y =>
    obtain ⟨address, ha, -⟩ := bind_eq_ok hp
    exact ⟨y, ⟨h.ne_empty y (by simp), (addressOperand_eq_ok ha).1⟩, .inl rfl⟩
  · next y z =>
    obtain ⟨address, ha, hp⟩ := bind_eq_ok hp
    obtain ⟨x, hx, -⟩ := bind_eq_ok hp
    obtain ⟨hz, hne⟩ := indexRegister_eq_ok hx
    exact ⟨y, ⟨h.ne_empty y (by simp), (addressOperand_eq_ok ha).1⟩,
      .inr ⟨z, rfl, x, hz, Fin.pos_iff_ne_zero.mpr hne⟩⟩
  · cases hp

theorem registers_of_registerPair {r s : Fin 8} (h : m.registerPair? operands = some (r, s)) :
    OperandForm.registers.Fits operands := by
  unfold registerPair? at h
  split at h
  · split at h
    · cases h
    · split at h
      · next hr hs => exact ⟨Option.isSome_of_eq_some hr, Option.isSome_of_eq_some hs, rfl⟩
      · cases h
  · cases h

/-- Operands that are encoded as an address form have one. -/
theorem fits_of_encodeAddressForm (hs : m ≠ .svc) (h : Packed operands) {e : Encoding}
    (he : m.encodeAddressForm operands = .ok e) :
    ∃ f ∈ m.operandForms ++ m.looseForms, f.Fits operands := by
  unfold encodeAddressForm at he
  split at he
  · cases he
  · next opcode hcode =>
    have hsome : (m.opcode? .address).isSome = true := Option.isSome_of_eq_some hcode
    obtain ⟨⟨first, rest⟩, hlead, he⟩ := bind_eq_ok he
    obtain ⟨p, hp, -⟩ := bind_eq_ok he
    unfold leadingRegister at hlead
    split at hlead
    · next hfirst =>
      -- the address is the first operand
      cases hlead
      obtain ⟨y, hy, ho⟩ := eq_of_addressAndIndex h hp
      refine ⟨.address, (mem_forms_iff hs _).mpr ⟨hsome, hfirst⟩, ?_⟩
      rcases ho with rfl | ⟨z, rfl, hz⟩
      · exact ⟨hy, .inl rfl, rfl⟩
      · exact ⟨hy, .inr hz, rfl⟩
    · next hfirst =>
      -- the address stands behind a register
      split at hlead
      · next r hr =>
        cases hlead
        refine ⟨.registerAddress, (mem_forms_iff hs _).mpr ⟨hsome, by simpa using hfirst⟩, ?_⟩
        obtain ⟨x, rest, rfl⟩ : ∃ x rest, operands = x :: rest := by
          cases operands with
          | nil => cases hr
          | cons x rest => exact ⟨x, rest, rfl⟩
        have hx : (register? x).isSome := Option.isSome_of_eq_some hr
        obtain ⟨y, hy, ho⟩ := eq_of_addressAndIndex h.tail hp
        rcases ho with rfl | ⟨z, rfl, hz⟩
        · exact ⟨hx, hy, .inl rfl⟩
        · exact ⟨hx, hy, .inr hz⟩
      · cases hlead

/-- Operands that are encoded have a form of the instruction or a loose one. -/
theorem fits_of_encode (hs : m ≠ .svc) (h : Packed operands) {e : Encoding}
    (he : m.encode operands = .ok e) : ∃ f ∈ m.operandForms ++ m.looseForms, f.Fits operands := by
  unfold encode at he
  split at he
  · next hempty =>
    obtain rfl := List.isEmpty_iff.mp hempty
    exact ⟨.empty, (mem_forms_iff hs _).mpr (encodeRegisterForm_isSome.mp ⟨e, he⟩), rfl, rfl, rfl⟩
  · split at he
    · next hpair =>
      exact ⟨.registers, (mem_forms_iff hs _).mpr (encodeRegisterForm_isSome.mp ⟨e, he⟩),
        registers_of_registerPair hpair⟩
    · exact fits_of_encodeAddressForm hs h he

end Mnemonic

/-! ## Rows -/

/-- A form leaves no field empty before one that is not. -/
theorem OperandForm.Fits.not_gapped {f : OperandForm} {operands : List String}
    (h : f.Fits operands) : ¬Gapped operands := by
  have hregister {s : String} (hs : (register? s).isSome) : s ≠ "" := by
    rintro rfl
    cases hs
  have hindex {s : String} (hs : IsIndex s) : s ≠ "" := by
    rintro rfl
    obtain ⟨r, hr, -⟩ := hs
    cases hr
  unfold Gapped
  cases f with
  | empty =>
    obtain ⟨h0, h1, h2⟩ := h
    simp [h0, h1, h2]
  | registers =>
    obtain ⟨h0, h1, h2⟩ := h
    simp [hregister h0, hregister h1]
  | registerAddress =>
    obtain ⟨h0, h1, -⟩ := h
    simp [hregister h0, h1.1]
  | address =>
    obtain ⟨h0, -, h2⟩ := h
    simp [h0.1, h2]

/-- Only one form leaves all fields empty. -/
theorem OperandForm.Fits.eq_empty {f : OperandForm} {operands : List String}
    (hempty : OperandForm.empty.Fits operands) (h : f.Fits operands) : f = .empty := by
  obtain ⟨h0, -, -⟩ := hempty
  cases f with
  | empty => rfl
  | registers | registerAddress =>
    have hregister := h.1
    rw [h0] at hregister
    cases hregister
  | address => exact absurd h0 h.1.1

namespace Row

variable {r : Row} {m : Mnemonic}

theorem given_eq (r : Row) : r.given =
    [operandField r.operands 0, operandField r.operands 1, operandField r.operands 2].filter
      (· ≠ "") := by
  unfold given operandField
  match r.operands with
  | [] => rfl
  | [a] => simp [maxOperands, List.filter_cons]
  | [a, b] => simp [maxOperands, List.filter_cons]
  | a :: b :: c :: rest => simp [maxOperands]

/-- Without a gap the fields are the operands that are given. -/
theorem fits_given_iff (h : ¬Gapped r.operands) (f : OperandForm) :
    f.Fits r.given ↔ f.Fits r.operands := by
  have hfields : operandField r.given 0 = operandField r.operands 0 ∧
      operandField r.given 1 = operandField r.operands 1 ∧
      operandField r.given 2 = operandField r.operands 2 := by
    rw [given_eq]
    unfold Gapped at h
    generalize operandField r.operands 0 = a at h ⊢
    generalize operandField r.operands 1 = b at h ⊢
    generalize operandField r.operands 2 = c at h ⊢
    by_cases ha : a = "" <;> by_cases hb : b = "" <;> by_cases hc : c = "" <;>
      simp_all [operandField]
  obtain ⟨h0, h1, h2⟩ := hfields
  cases f <;> simp only [OperandForm.Fits, h0, h1, h2]

/-- No row is both documented and stray. -/
theorem not_stray_of_documented (h : m.Documented r.operands) : ¬r.Stray m := by
  obtain ⟨f, hf, hfits⟩ := h
  rintro (⟨g, hg, hloose⟩ | ⟨hgap, -⟩)
  · -- of a form of the instruction and a loose one, just one leaves the fields empty
    have hforms : ∀ f ∈ m.operandForms, ∀ g ∈ m.looseForms,
        f ≠ g ∧ (f = .empty ∨ g = .empty) := by
      cases m <;> decide
    obtain ⟨hne, rfl | rfl⟩ := hforms f hf g hg
    · exact hne (hfits.eq_empty hloose).symm
    · exact hne (hloose.eq_empty hfits)
  · exact hfits.not_gapped hgap

/-- **Operand forms.** The rows that are encoded are the documented ones and the stray ones, and
these are no documented ones. Of all others the encoder says that the operands are wrong. -/
theorem encodes_iff (hm : Mnemonic.ofName? r.name = some m) (hs : m ≠ .svc) :
    ((∃ e, encodeNamed r.name r.given = .ok e) ↔ m.Documented r.operands ∨ r.Stray m) ∧
      ¬(m.Documented r.operands ∧ r.Stray m) ∧
      ∀ c, encodeNamed r.name r.given = .error c → c.kind = .operand := by
  rw [encodeNamed, hm]
  refine ⟨?_, fun h => not_stray_of_documented h.1 h.2, fun c => Mnemonic.kind_of_encode⟩
  have hencodes : (∃ e, m.encode r.given = .ok e) ↔
      ∃ f ∈ m.operandForms ++ m.looseForms, f.Fits r.given := by
    constructor
    · rintro ⟨e, he⟩
      exact Mnemonic.fits_of_encode hs r.packed_given he
    · rintro ⟨f, hf, hfits⟩
      exact Mnemonic.encode_of_fits hs r.packed_given hf hfits
  refine hencodes.trans ?_
  by_cases hgap : Gapped r.operands
  · -- no form fits fields with a gap
    constructor
    · intro h
      exact .inr (.inr ⟨hgap, h⟩)
    · rintro (⟨f, -, hf⟩ | ⟨f, -, hf⟩ | ⟨-, h⟩)
      · exact absurd hgap hf.not_gapped
      · exact absurd hgap hf.not_gapped
      · exact h
  · -- the operands that are given stand where they are written
    simp only [fits_given_iff hgap]
    constructor
    · rintro ⟨f, hf, hfits⟩
      rcases List.mem_append.mp hf with hf | hf
      · exact .inl ⟨f, hf, hfits⟩
      · exact .inr (.inl ⟨f, hf, hfits⟩)
    · rintro (⟨f, hf, hfits⟩ | ⟨f, hf, hfits⟩ | ⟨h, -⟩)
      · exact ⟨f, List.mem_append_left _ hf, hfits⟩
      · exact ⟨f, List.mem_append_right _ hf, hfits⟩
      · exact absurd h hgap

theorem encodes_comparison_without_operands :
    (⟨"", "CPA", ["", "", ""]⟩ : Row).Stray .cpa ∧
      ∃ e, encodeNamed "CPA" (⟨"", "CPA", ["", "", ""]⟩ : Row).given = .ok e := by
  have hstray : (⟨"", "CPA", ["", "", ""]⟩ : Row).Stray .cpa :=
    .inl ⟨.empty, by decide, rfl, rfl, rfl⟩
  have hname : Mnemonic.ofName? (⟨"", "CPA", ["", "", ""]⟩ : Row).name = some .cpa := by decide
  exact ⟨hstray, (encodes_iff hname nofun).1.mpr (.inr hstray)⟩

/-- Rows that are encoded and have no form of their instruction: a load without operands, a return
with two registers, and a load with an empty operand between its registers. -/
theorem encodes_undocumented :
    (encodeNamed "LD" (⟨"", "LD", ["", "", ""]⟩ : Row).given = .ok ⟨0x1400, none⟩ ∧
        ¬Mnemonic.ld.Documented ["", "", ""]) ∧
      (encodeNamed "RET" (⟨"", "RET", ["GR1", "GR2", ""]⟩ : Row).given = .ok ⟨0x8112, none⟩ ∧
        ¬Mnemonic.ret.Documented ["GR1", "GR2", ""]) ∧
      encodeNamed "LD" (⟨"", "LD", ["GR1", "", "GR2"]⟩ : Row).given = .ok ⟨0x1412, none⟩ ∧
        ¬Mnemonic.ld.Documented ["GR1", "", "GR2"] := by
  unfold Mnemonic.Documented
  decide +kernel

end Row

end WordMachine
