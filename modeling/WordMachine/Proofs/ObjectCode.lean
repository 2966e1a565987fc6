import WordMachine.Proofs.Constants
import WordMachine.Proofs.Resolution

/-!
# The object code of a program

The words of an assembled program are read off its rows: each row takes as many words as it says,
behind those of the rows before it, and an address operand is the number it spells, the pool
address of the literal it spells, or the address of the row that it names. What an instruction takes
is said by the operation codes of its forms and by the places of registers and addresses among its
operands, and compared with what is encoded.

## Main definitions

* `Mnemonic.addressOperand?`, `Mnemonic.instructionWord?`: the address operand of an instruction,
  and its first word
* `Row.size`, `Workspace.rowAddress`: the number of words of a row, and the address of its first
* `Row.words`: the words of a row when its address operands stand for words
* `Workspace.operandValue?`: what an address operand stands for in an assembled program
* `Workspace.Assembled`: layout and references of an assembled program

## Main results

* `Mnemonic.eq_of_encode`: what is encoded is the instruction word with the address operand
* `Row.words_eq`: the words of a row that is not refused are those of its cells
* `Workspace.assembled_of_assemble`: an assembly that succeeds lays out the program and resolves
  its references
-/

namespace WordMachine

/-! ## Instructions with operands -/

namespace Mnemonic

/-- The operand of an instruction that is an address: a jump begins with it, and any other
instruction has it behind a register, unless a second register stands there. -/
def addressOperand? (m : Mnemonic) (operands : List String) : Option String :=
  (operands[if m.takesAddressFirst then 0 else 1]?).filter fun operand =>
    (Operand.register? operand).isNone

/-- The form in which an instruction with operands is written. -/
def form (m : Mnemonic) (operands : List String) : Form :=
  if (m.addressOperand? operands).isSome then .address else .register

/-- The register fields of an instruction with operands: the registers that the operands name, in
their order; the first field of a jump is zero. -/
def registerFields (m : Mnemonic) (operands : List String) : List Nat :=
  let named := (operands.filterMap Operand.register?).map Fin.val
  if m.takesAddressFirst then 0 :: named else named

/-- The instruction word of an instruction with operands: the operation code of its form above two
hexadecimal digits for the register fields, zero where there is no register. -/
def instructionWord? (m : Mnemonic) (operands : List String) : Option Int :=
  let fields := m.registerFields operands
  (m.opcode? (m.form operands)).map fun opcode =>
    ((opcode * 0x100 + fields.getD 0 0 * 0x10 + fields.getD 1 0 : Nat) : Int)

section Encoded

variable {m : Mnemonic} {operands : List String} {e : Encoding} {first second : Fin 8}

/-- The instruction word of an instruction with two register fields. -/
theorem instructionWord?_eq {form : Form} {opcode : Nat} (hform : m.form operands = form)
    (hcode : m.opcode? form = some opcode) (hfirst : (m.registerFields operands).getD 0 0 = first)
    (hsecond : (m.registerFields operands).getD 1 0 = second) :
    m.instructionWord? operands = some (Word.encode opcode first.val second.val) := by
  rw [Word.encode_natCast _ (by omega) (by omega)]
  simp only [instructionWord?, hform, hcode, hfirst, hsecond, Option.map_some]

/-- The register form is encoded where there is no address operand. -/
theorem eq_of_encodeRegisterForm {otherwise : Complaint} (hnone : m.addressOperand? operands = none)
    (hfirst : (m.registerFields operands).getD 0 0 = first)
    (hsecond : (m.registerFields operands).getD 1 0 = second)
    (h : m.encodeRegisterForm first second otherwise = .ok e) :
    m.instructionWord? operands = some e.word ∧ m.addressOperand? operands = e.address := by
  unfold encodeRegisterForm at h
  split at h
  · next opcode hcode =>
    cases h
    have hform : m.form operands = .register := by rw [form, hnone]; rfl
    exact ⟨instructionWord?_eq hform hcode hfirst hsecond, hnone⟩
  · cases h

theorem fields_of_registerPair {first second : Fin 8}
    (h : m.registerPair? operands = some (first, second)) :
    m.addressOperand? operands = none ∧ m.registerFields operands = [first.val, second.val] := by
  unfold registerPair? at h
  split at h
  · split at h
    · cases h
    · next hfirst =>
      split at h
      · next hr hs =>
        cases h
        simp [addressOperand?, registerFields, hfirst, hr, hs]
      · cases h
  · cases h

/-- The address form is encoded where the operands behind the register name an address. -/
theorem fields_of_leadingRegister {rest : List String} {address : String}
    (hpair : m.registerPair? operands = none)
    (hlead : m.leadingRegister operands = .ok (first, rest))
    (hrest : m.addressAndIndex rest = .ok (address, second)) :
    m.addressOperand? operands = some address ∧
      (m.registerFields operands).getD 0 0 = first ∧
        (m.registerFields operands).getD 1 0 = second := by
  obtain ⟨hlike, hoperands⟩ := addressAndIndex_eq_ok hrest
  have hno := Operand.register?_of_isRegisterLike hlike
  unfold leadingRegister at hlead
  split at hlead
  · next hfirst =>
    -- a jump: the operands are the address and perhaps the index register
    cases hlead
    rcases hoperands with ⟨rfl, rfl⟩ | ⟨index, rfl, hindex, -⟩
    · simp [addressOperand?, registerFields, hfirst, hno]
    · simp [addressOperand?, registerFields, hfirst, hno, hindex]
  · next hfirst =>
    split at hlead
    · next r hr =>
      cases hlead
      cases operands with
      | nil => cases hr
      | cons operand operands =>
        have hregister : Operand.register? operand = some first := hr
        rcases hoperands with ⟨ho, rfl⟩ | ⟨index, ho, hindex, -⟩
        · obtain rfl : operands = [address] := ho
          simp [addressOperand?, registerFields, hfirst, hno, hregister]
        · obtain rfl : operands = [address, index] := ho
          simp [addressOperand?, registerFields, hfirst, hno, hregister, hindex]
    · cases hlead

/-- What is encoded is the instruction word with the address operand. -/
theorem eq_of_encode (h : m.encode operands = .ok e) :
    m.instructionWord? operands = some e.word ∧ m.addressOperand? operands = e.address := by
  unfold encode at h
  split at h
  · next hempty =>
    obtain rfl := List.isEmpty_iff.mp hempty
    refine eq_of_encodeRegisterForm (by simp [addressOperand?]) ?_ ?_ h <;>
      cases hfirst : m.takesAddressFirst <;> simp [registerFields, hfirst]
  · split at h
    · next first second hpair =>
      obtain ⟨hnone, hfields⟩ := fields_of_registerPair hpair
      exact eq_of_encodeRegisterForm hnone (by rw [hfields]; rfl) (by rw [hfields]; rfl) h
    · next hpair =>
      unfold encodeAddressForm at h
      split at h
      · cases h
      · next opcode hcode =>
        obtain ⟨⟨first, rest⟩, hlead, h⟩ := bind_eq_ok h
        obtain ⟨⟨address, second⟩, hrest, h⟩ := bind_eq_ok h
        obtain ⟨hsome, hfirst, hsecond⟩ := fields_of_leadingRegister hpair hlead hrest
        cases h
        have hform : m.form operands = .address := by rw [form, hsome]; rfl
        exact ⟨instructionWord?_eq hform hcode hfirst hsecond, hsome⟩

end Encoded

end Mnemonic

/-- The instruction word of a supervisor call: its operation code above the sub-type. -/
def callWord (subtype : Int) : Int :=
  0xF000 + subtype

/-! ## The words of a row -/

namespace Row

/-- The number of words that a row takes: a constant and a reserved word are one, a supervisor call
is three, and an instruction is one or, with an address operand, two. -/
def size (r : Row) : Nat :=
  if r.name = "" then 0
  else
    match r.directive? with
    | some .constant | some .reserve => 1
    | some .input | some .output => 3
    | some _ => 0
    | none =>
      match Mnemonic.ofName? r.name with
      | some .svc => 3
      | some m => if (m.addressOperand? r.given).isSome then 2 else 1
      | none => 0

/-- The sub-type that the first operand of a supervisor call spells. -/
def subtype? (r : Row) : Option Int :=
  r.given.head?.bind Operand.number?

/-- The words of a row when its address operands stand for words; an operand that stands for
nothing makes no word. -/
def words (value? : String → Option Int) (r : Row) : List (Option Int) :=
  if r.name = "" then []
  else
    match r.directive? with
    | some .constant => r.given.map fun operand => (Operand.constant? operand).or (value? operand)
    | some .reserve => [some 0]
    | some .input => some (callWord inputSubtype) :: r.given.map value?
    | some .output => some (callWord outputSubtype) :: r.given.map value?
    | some _ => []
    | none =>
      match Mnemonic.ofName? r.name with
      | some .svc => r.subtype?.map callWord :: r.given.tail.map value?
      | some m => m.instructionWord? r.given :: (m.addressOperand? r.given).toList.map value?
      | none => []

end Row

/-! ## Words and cells -/

theorem mem_of_mem_cellsOf {items : List Item} {c : Cell} (h : c ∈ cellsOf items) :
    .ok c ∈ items := by
  induction items with
  | nil => cases h
  | cons item items ih =>
    cases item with
    | error _ => cases h
    | ok cell =>
      rcases List.mem_cons.mp h with rfl | h
      · exact List.mem_cons_self
      · exact List.mem_cons_of_mem _ (ih h)

/-- The cells of a row are spelled as they should. -/
theorem Row.spelled_of_mem_cells {r : Row} {c : Cell} (h : c ∈ r.cells) : c.Spelled := by
  have hp := Row.plain_of_mem_items (mem_of_mem_cellsOf h)
  generalize hi : (.ok c : Item) = item at hp
  cases hp with
  | word value => exact Except.ok.inj hi ▸ trivial
  | address operand => exact Cell.spelled_of_ofAddress hi.symm
  | complaint c => cases hi

/-! ## The kinds of rows -/

namespace Row

/-- The kinds of rows that are not refused. -/
inductive Kind (r : Row) : Prop
  /-- A row that makes no word. -/
  | idle (h : r.name = "" ∨ r.directive? = some .start ∨ r.directive? = some .finish)
  /-- A constant. -/
  | constant {operand : String} (hd : r.directive? = some .constant) (hg : r.given = [operand])
  /-- A reserved word. -/
  | reserve (hd : r.directive? = some .reserve)
  /-- A macro for a supervisor call. -/
  | call {d : Directive} {subtype : Nat} {buffer length : String} (hd : r.directive? = some d)
      (hs : d = .input ∧ subtype = inputSubtype ∨ d = .output ∧ subtype = outputSubtype)
      (hg : r.given = [buffer, length])
  /-- A supervisor call. -/
  | supervisor {operand buffer length : String} {subtype : Int} (hd : r.directive? = none)
      (hm : Mnemonic.ofName? r.name = some .svc) (hg : r.given = [operand, buffer, length])
      (hs : Operand.number? operand = some subtype) (range : 0 ≤ subtype ∧ subtype ≤ 15)
  /-- Any other instruction. -/
  | instruction {m : Mnemonic} {e : Encoding} (hd : r.directive? = none)
      (hm : Mnemonic.ofName? r.name = some m) (hne : m ≠ .svc) (he : m.encode r.given = .ok e)

variable {r : Row}

theorem name_ne_of_directive {d : Directive} (hd : r.directive? = some d) : r.name ≠ "" := by
  intro hn
  rw [directive?, hn, show Directive.ofName? "" = none by decide] at hd
  cases hd

theorem name_ne_of_instruction {m : Mnemonic} (hm : Mnemonic.ofName? r.name = some m) :
    r.name ≠ "" := by
  intro hn
  rw [hn, show Mnemonic.ofName? "" = none by decide] at hm
  cases hm

theorem items_of_directive {d : Directive} (hd : r.directive? = some d) :
    r.items = d.items r.given := by
  rw [items, if_neg (name_ne_of_directive hd), hd]

theorem items_of_instruction {m : Mnemonic} (hd : r.directive? = none)
    (hm : Mnemonic.ofName? r.name = some m) : r.items = m.items r.given := by
  rw [items, if_neg (name_ne_of_instruction hm), hd]
  simp only [hm]

/-- A macro with two operands makes a supervisor call with its sub-type. -/
theorem items_of_call {d : Directive} {subtype : Nat} {buffer length : String}
    (hd : r.directive? = some d)
    (hs : d = .input ∧ subtype = inputSubtype ∨ d = .output ∧ subtype = outputSubtype)
    (hg : r.given = [buffer, length]) : r.items = callItems subtype buffer length := by
  rw [items_of_directive hd, hg]
  rcases hs with ⟨rfl, rfl⟩ | ⟨rfl, rfl⟩ <;> rfl

/-- A supervisor call has the sub-type that its first operand spells. -/
theorem items_of_supervisor {operand buffer length : String} {subtype : Int}
    (hd : r.directive? = none) (hm : Mnemonic.ofName? r.name = some .svc)
    (hg : r.given = [operand, buffer, length]) (hs : Operand.number? operand = some subtype)
    (range : 0 ≤ subtype ∧ subtype ≤ 15) : r.items = callItems subtype buffer length := by
  rw [items_of_instruction hd hm, hg]
  simp [Mnemonic.items, supervisorItems, subtypeOf_of_number? hs range]

theorem kind_of_directive {d : Directive} (hd : r.directive? = some d)
    (h : complaintOf? (d.items r.given) = none) : r.Kind := by
  -- Each directive is checked in its own way.
  cases d with
  | start => exact .idle (.inr (.inl hd))
  | finish => exact .idle (.inr (.inr hd))
  | reserve => exact .reserve hd
  | push | pop => cases h
  | constant =>
    simp only [Directive.items] at h
    split at h
    · next hg => exact .constant hd hg
    · cases h
  | input =>
    simp only [Directive.items] at h
    split at h
    · next hg => exact .call hd (.inl ⟨rfl, rfl⟩) hg
    · cases h
  | output =>
    simp only [Directive.items] at h
    split at h
    · next hg => exact .call hd (.inr ⟨rfl, rfl⟩) hg
    · cases h

theorem kind_of_instruction {m : Mnemonic} (hd : r.directive? = none)
    (hm : Mnemonic.ofName? r.name = some m) (h : complaintOf? (m.items r.given) = none) :
    r.Kind := by
  unfold Mnemonic.items at h
  split at h
  · next hs =>
    -- the supervisor call: three operands, of which the first spells a sub-type
    subst hs
    unfold supervisorItems at h
    split at h
    · next hg =>
      split at h
      · next hs =>
        obtain ⟨hn, range⟩ := subtypeOf_eq_ok hs
        exact .supervisor hd hm hg hn range
      · cases h
    · cases h
  · next hne =>
    split at h
    · cases h
    · next he => exact .instruction hd hm hne he

/-- A row that is not refused is of one of the kinds. -/
theorem kind_of_sound (h : r.complaint? = none) : r.Kind := by
  by_cases hn : r.name = ""
  · exact .idle (.inl hn)
  cases hd : r.directive? with
  | some d =>
    rw [complaint?, items_of_directive hd] at h
    exact kind_of_directive hd h
  | none =>
    cases hm : Mnemonic.ofName? r.name with
    | some m =>
      rw [complaint?, items_of_instruction hd hm] at h
      exact kind_of_instruction hd hm h
    | none =>
      simp only [complaint?, items, if_neg hn, hd, hm] at h
      cases h

/-- The instruction word of a call that is assembled. -/
theorem encode_supervisorOpcode {subtype : Int} (range : 0 ≤ subtype ∧ subtype ≤ 15) :
    Word.encode supervisorOpcode 0 subtype = callWord subtype := by
  obtain ⟨n, rfl⟩ := Int.eq_ofNat_of_zero_le range.1
  have hword : Word.encode supervisorOpcode (0 : Nat) n = _ :=
    Word.encode_natCast supervisorOpcode (by omega) (by omega)
  exact hword.trans (by simp [callWord, supervisorOpcode])

theorem words_of_call {d : Directive} {subtype : Nat} {buffer length : String}
    (hd : r.directive? = some d)
    (hs : d = .input ∧ subtype = inputSubtype ∨ d = .output ∧ subtype = outputSubtype)
    (hg : r.given = [buffer, length]) (value? : String → Option Int) :
    r.size = 3 ∧ r.words value? =
      [some (Word.encode supervisorOpcode 0 subtype), value? buffer, value? length] := by
  have hn := name_ne_of_directive hd
  rcases hs with ⟨rfl, rfl⟩ | ⟨rfl, rfl⟩ <;>
    rw [encode_supervisorOpcode (by decide)] <;> simp [size, words, hn, hd, hg]

theorem words_of_supervisor {operand buffer length : String} {subtype : Int}
    (hd : r.directive? = none) (hm : Mnemonic.ofName? r.name = some .svc)
    (hg : r.given = [operand, buffer, length]) (hs : Operand.number? operand = some subtype)
    (range : 0 ≤ subtype ∧ subtype ≤ 15) (value? : String → Option Int) :
    r.size = 3 ∧ r.words value? =
      [some (Word.encode supervisorOpcode 0 subtype), value? buffer, value? length] := by
  have hn := name_ne_of_instruction hm
  rw [encode_supervisorOpcode range]
  constructor <;> simp [size, words, subtype?, hn, hd, hm, hg, hs]

theorem words_of_instruction {m : Mnemonic} {e : Encoding} (hd : r.directive? = none)
    (hm : Mnemonic.ofName? r.name = some m) (hne : m ≠ .svc) (he : m.encode r.given = .ok e)
    (value? : String → Option Int) :
    r.size = e.address.toList.length + 1 ∧
      r.words value? = some e.word :: e.address.toList.map value? := by
  have hn := name_ne_of_instruction hm
  obtain ⟨hword, haddress⟩ := Mnemonic.eq_of_encode he
  cases ha : e.address <;> simp [size, words, hn, hd, hm, hword, haddress, ha]

end Row

/-! ## Words and cells -/

/-- The operand of a constant that is defined can be read. -/
theorem overlong?_of_constantItem {operand : String}
    (h : complaintOf? [constantItem operand] = none) : Operand.overlong? operand = none := by
  cases ho : Operand.overlong? operand with
  | none => rfl
  | some digits =>
    rw [constantItem, Operand.readable_of_some ho] at h
    cases h

section Words

/-- The words that the cells of items stand for. -/
def itemWords (value? : String → Option Int) (items : List Item) : List (Option Int) :=
  (cellsOf items).map (Cell.resolve? value?)

variable {value? : String → Option Int}
  (numbers : ∀ operand n, Operand.number? operand = some n → value? operand = some n)
include numbers

theorem itemWords_address {operand : String} {items : List Item}
    (h : complaintOf? (Cell.ofAddress operand :: items) = none) :
    complaintOf? items = none ∧
      itemWords value? (Cell.ofAddress operand :: items) =
        value? operand :: itemWords value? items := by
  cases hc : Cell.ofAddress operand with
  | error c => rw [hc] at h; cases h
  | ok c =>
    rw [hc] at h
    refine ⟨h, ?_⟩
    rw [itemWords, cellsOf, List.map_cons, Cell.resolve?_of_ofAddress (numbers operand) hc]
    rfl

theorem itemWords_call {subtype : Int} {buffer length : String}
    (h : complaintOf? (callItems subtype buffer length) = none) :
    itemWords value? (callItems subtype buffer length) =
      [some (Word.encode supervisorOpcode 0 subtype), value? buffer, value? length] := by
  obtain ⟨h, hb⟩ := itemWords_address numbers h
  obtain ⟨-, hl⟩ := itemWords_address numbers h
  exact congrArg (some (Word.encode supervisorOpcode 0 subtype) :: ·) (hb.trans (by rw [hl]; rfl))

theorem itemWords_constant {operand : String} (h : complaintOf? [constantItem operand] = none) :
    itemWords value? [constantItem operand] =
      [(Operand.constant? operand).or (value? operand)] := by
  have hread := overlong?_of_constantItem h
  rw [constantItem, Operand.readable_of_none hread] at h ⊢
  cases hc : Operand.constant? operand with
  | some value => rfl
  | none =>
    -- no constant and no string: the operand stands for an address
    simp only [hc] at h ⊢
    split at h
    · cases h
    · next hq =>
      rw [if_neg hq, (itemWords_address numbers h).2]
      rfl

theorem itemWords_encoding {e : Encoding}
    (h : complaintOf? (.ok (.word e.word) :: e.address.toList.map Cell.ofAddress) = none) :
    itemWords value? (.ok (.word e.word) :: e.address.toList.map Cell.ofAddress) =
      some e.word :: e.address.toList.map value? := by
  cases ha : e.address with
  | none => rfl
  | some operand =>
    rw [ha] at h
    exact congrArg (some e.word :: ·) (itemWords_address numbers h).2

/-- The words of a row that is not refused are those of its cells, and as many as the row takes. -/
theorem Row.words_eq {r : Row} (h : r.complaint? = none) :
    r.words value? = r.cells.map (Cell.resolve? value?) ∧ (r.words value?).length = r.size := by
  show _ = itemWords value? r.items ∧ _
  have hk := kind_of_sound h
  unfold complaint? at h
  cases hk with
  | idle hi =>
    rcases hi with hn | hd | hd
    · simp [words, items, size, hn, itemWords, cellsOf]
    · rw [items_of_directive hd]
      simp [words, size, name_ne_of_directive hd, hd, itemWords, cellsOf, Directive.items]
    · rw [items_of_directive hd]
      simp [words, size, name_ne_of_directive hd, hd, itemWords, cellsOf, Directive.items]
  | @constant operand hd hg =>
    rw [items_of_directive hd, hg] at h ⊢
    rw [show Directive.items .constant [operand] = [constantItem operand] from rfl] at h ⊢
    rw [itemWords_constant numbers h]
    simp [words, size, name_ne_of_directive hd, hd, hg]
  | reserve hd =>
    rw [items_of_directive hd]
    simp [words, size, name_ne_of_directive hd, hd, itemWords, cellsOf, Directive.items,
      Cell.resolve?]
  | @call d subtype buffer length hd hs hg =>
    -- a macro makes the words of the call that it stands for
    obtain ⟨hsize, hwords⟩ := words_of_call hd hs hg value?
    rw [items_of_call hd hs hg] at h ⊢
    rw [itemWords_call numbers h, hwords, hsize]
    exact ⟨rfl, rfl⟩
  | @supervisor operand buffer length subtype hd hm hg hs range =>
    obtain ⟨hsize, hwords⟩ := words_of_supervisor hd hm hg hs range value?
    rw [items_of_supervisor hd hm hg hs range] at h ⊢
    rw [itemWords_call numbers h, hwords, hsize]
    exact ⟨rfl, rfl⟩
  | @instruction m e hd hm hne he =>
    obtain ⟨hsize, hwords⟩ := words_of_instruction hd hm hne he value?
    have hi : r.items = .ok (.word e.word) :: e.address.toList.map Cell.ofAddress := by
      rw [items_of_instruction hd hm, Mnemonic.items, if_neg hne, he]
    rw [hi] at h ⊢
    rw [itemWords_encoding numbers h, hwords, hsize]
    exact ⟨rfl, by rw [List.length_cons, List.length_map]⟩

end Words

/-- A row that is not refused takes as many words as it makes cells. -/
theorem Row.length_cells {r : Row} (h : r.complaint? = none) : r.cells.length = r.size := by
  have numbers : ∀ operand n, Operand.number? operand = some n →
      Operand.number? operand = some n := fun _ _ hn => hn
  obtain ⟨heq, hlen⟩ := Row.words_eq numbers h
  rw [← hlen, heq, List.length_map]

/-! ## Assembled programs -/

namespace Workspace

/-- The address of the first word of the row with an index: the base and the words of the rows
before it. -/
def rowAddress (w : Workspace) (i : Nat) : Int :=
  w.base + ((w.rows.take i).map Row.size).sum

/-- What an address operand stands for in an assembled program: a number for itself, a literal for
the address of its pool word, and anything else for the address of the label. -/
def operandValue? (w : Workspace) (operand : String) : Option Int :=
  match Operand.number? operand with
  | some n => some n
  | none =>
    if Operand.startsWith operand '=' then w.literals[operand]? else w.labels[operand]?

/-- The layout and the references of a program that was assembled from `w` into `w'`. -/
structure Assembled (w : Workspace) (map : AddressMap) (w' : Workspace) : Prop where
  /-- The labels are those of the rows, each bound to the address of its row. -/
  label_iff : ∀ name a, w'.labels[name]? = some a ↔
    name ≠ "" ∧ ∃ i r, w.rows[i]? = some r ∧ r.label = name ∧ a = w.rowAddress i
  /-- No two rows have the same label. -/
  label_unique : ∀ (i j : Nat) (r s : Row), w.rows[i]? = some r → w.rows[j]? = some s →
    r.label = s.label → r.label ≠ "" → i = j
  /-- Before the pool a row has made the words from its address on, as many as it takes. -/
  row_iff : ∀ i a : Int, a < w.rowAddress w.rows.length → (map[a]? = some i ↔
    ∃ (n : Nat) (r : Row), i = n ∧ w.rows[n]? = some r ∧ w.rowAddress n ≤ a ∧
      a < w.rowAddress n + r.size)
  /-- The words there are those that the row says: its instruction word, its constant or a zero,
  and the words that its address operands stand for. -/
  words : ∀ (i : Nat) (r : Row), w.rows[i]? = some r →
    (r.words w'.operandValue?).length = r.size ∧
      ∀ k : Nat, k < r.size → ∃ x, (r.words w'.operandValue?)[k]? = some (some x) ∧
        w'.memory.get? (w.rowAddress i + k) = some x
  /-- The word of a constant is the one that its operand spells, if it spells one. -/
  constant : ∀ (i : Nat) (r : Row) (operand : String) (x : Int), w.rows[i]? = some r →
    r.directive? = some .constant → r.given = [operand] → Operand.Spells operand x →
      w'.memory.get? (w.rowAddress i) = some x
  /-- The address of a literal is that of a pool word behind the program, which holds the constant
  behind the equals sign. -/
  literal : ∀ (token : String) (a : Int), w'.literals[token]? = some a →
    w.rowAddress w.rows.length ≤ a ∧ a < w'.address ∧
      ∃ x, Operand.Spells (String.ofList token.toList.tail) x ∧ w'.memory.get? a = some x
  /-- No reference is left open: its place holds what its symbol stands for. -/
  reference : ∀ a symbol, (a, symbol) ∈ w'.references →
    ∃ x, w'.operandValue? symbol = some x ∧ w'.memory.get? a = some x
  /-- No word is written outside the program and its pool. -/
  outside : ∀ a, a < w.base ∨ w'.address ≤ a → w'.memory.get? a = w.memory.get? a

/-- A row starts behind the cells of the rows before it, if none of these is refused. -/
theorem rowAddress_eq_of_sound {w : Workspace} {i : Nat}
    (h : ∀ r ∈ w.rows.take i, r.complaint? = none) :
    w.rowAddress i = w.base + offset w.rows i := by
  have hs : (w.rows.take i).map Row.size = (w.rows.take i).map fun r => r.cells.length :=
    List.map_congr_left fun r hr => (Row.length_cells (h r hr)).symm
  rw [rowAddress, hs, offset]

namespace Assembly

variable {w w' : Workspace} {d : Draft}

theorem rowAddress_eq (h : w.Assembly d w') (i : Nat) :
    w.rowAddress i = w.base + offset w.rows i :=
  rowAddress_eq_of_sound fun r hr => h.laidOut.sound r (List.mem_of_mem_take hr)

theorem rowAddress_length_eq (h : w.Assembly d w') : w.rowAddress w.rows.length = d.address := by
  rw [h.rowAddress_eq, h.laidOut.address_eq]

/-- A literal with an address is in the pool. -/
theorem exists_of_literals (h : w.Assembly d w') {token : String} {a : Int}
    (ha : w'.literals[token]? = some a) :
    ∃ (j : Nat) (literal : Literal), d.pool[j]? = some literal ∧ literal.token = token ∧
      a = d.address + j := by
  have hdistinct : (d.pool.map (·.token)).Nodup := h.pool_eq ▸ nodup_poolOf _
  rw [h.literals_eq] at ha
  by_cases hm : token ∈ d.pool.map (·.token)
  · obtain ⟨literal, hl, rfl⟩ := List.mem_map.mp hm
    obtain ⟨j, hj⟩ := List.getElem?_of_mem hl
    rw [getElem?_placeLiterals_of_getElem? hdistinct hj] at ha
    exact ⟨j, literal, hj, rfl, (Option.some.inj ha).symm⟩
  · rw [getElem?_placeLiterals_of_not_mem hm] at ha
    simp at ha

theorem spelled_of_programCells {rows : List Row} {n i : Nat} {c : Cell}
    (hc : (programCells rows)[n]? = some (c, i)) : c.Spelled := by
  obtain ⟨r, k, -, hk, -⟩ := getElem?_programCells.mp hc
  exact Row.spelled_of_mem_cells (List.mem_of_getElem? hk)

/-- A literal of the pool is spelled like one and has the value that it spells. -/
theorem spelled_of_mem_pool (h : w.Assembly d w') {literal : Literal} (hl : literal ∈ d.pool) :
    (Cell.literal literal.token literal.value).Spelled := by
  rw [h.pool_eq] at hl
  obtain ⟨n, hn⟩ := List.getElem?_of_mem (mem_of_mem_poolOf hl)
  exact spelled_of_programCells hn

/-- What does not start with an equals sign is no literal. -/
theorem getElem?_literals_of_startsWith (h : w.Assembly d w') {symbol : String}
    (hs : Operand.startsWith symbol '=' = false) : w'.literals[symbol]? = none := by
  rw [Option.eq_none_iff_forall_ne_some]
  intro a ha
  obtain ⟨j, literal, hj, rfl, -⟩ := h.exists_of_literals ha
  have hlit := (h.spelled_of_mem_pool (List.mem_of_getElem? hj)).1
  rw [hs] at hlit
  cases hlit

/-- The word of a cell is the one that its operand stands for. -/
theorem value?_eq (h : w.Assembly d w') {n i : Nat} {c : Cell}
    (hc : (programCells w.rows)[n]? = some (c, i)) :
    c.value? w'.symbols = c.resolve? w'.operandValue? := by
  have hspelled := spelled_of_programCells hc
  cases c with
  | word value => rfl
  | label name =>
    obtain ⟨hstart, hnumber⟩ := hspelled
    -- no literal is spelled like a label, so the label is looked up among the labels
    rw [Cell.value?, Cell.resolve?, operandValue?, hnumber, hstart, getElem?_symbols,
      h.getElem?_literals_of_startsWith hstart]
    rfl
  | literal token value =>
    have hstart := hspelled.1
    -- the literal is in the pool, and no number is spelled like it
    have hmem : token ∈ d.pool.map (·.token) :=
      h.pool_eq ▸ token_mem_poolOf (List.mem_of_getElem? hc)
    obtain ⟨literal, hl, rfl⟩ := List.mem_map.mp hmem
    obtain ⟨j, hj⟩ := List.getElem?_of_mem hl
    have hsome : w'.literals[literal.token]? = some (d.address + j) := by
      rw [h.literals_eq]
      exact getElem?_placeLiterals_of_getElem? (h.pool_eq ▸ nodup_poolOf _) hj _ _
    rw [Cell.value?, Cell.resolve?, operandValue?, Operand.number?_of_startsWith hstart, hstart,
      getElem?_symbols, hsome]
    rfl

/-- Each cell of the program has a word. -/
theorem exists_resolve? (h : w.Assembly d w') {n i : Nat} {c : Cell}
    (hc : (programCells w.rows)[n]? = some (c, i)) :
    ∃ x, c.resolve? w'.operandValue? = some x := by
  rw [← h.value?_eq hc]
  cases c with
  | word value => exact ⟨value, rfl⟩
  | label name => exact h.exists_symbol hc rfl
  | literal token value => exact h.exists_symbol hc rfl

theorem operandValue?_number (w : Workspace) {operand : String} {n : Int}
    (h : Operand.number? operand = some n) : w.operandValue? operand = some n := by
  rw [operandValue?, h]

/-- The words of a row are in memory from its address on. -/
theorem get?_row (h : w.Assembly d w') {i : Nat} {r : Row} (hr : w.rows[i]? = some r) {k : Nat}
    (hk : k < r.size) : ∃ x, (r.words w'.operandValue?)[k]? = some (some x) ∧
      w'.memory.get? (w.rowAddress i + k) = some x := by
  have hsound := h.laidOut.sound r (List.mem_of_getElem? hr)
  have hlen : k < r.cells.length := Row.length_cells hsound ▸ hk
  have hcell : r.cells[k]? = some r.cells[k] := List.getElem?_eq_getElem hlen
  have hc : (programCells w.rows)[offset w.rows i + k]? = some (r.cells[k], i) :=
    getElem?_programCells.mpr ⟨r, k, hr, hcell, rfl⟩
  have hget := h.get?_cell hc
  rw [Int.natCast_add, ← Int.add_assoc, ← h.rowAddress_eq, h.value?_eq hc] at hget
  obtain ⟨x, hx⟩ := h.exists_resolve? hc
  refine ⟨x, ?_, by rw [hget, hx]⟩
  rw [(Row.words_eq (fun _ _ => operandValue?_number w') hsound).1, List.getElem?_map, hcell,
    Option.map_some, hx]

/-- An address before the pool belongs to the row whose words lie there. -/
theorem addressMap_iff (h : w.Assembly d w') {i a : Int} (ha : a < w.rowAddress w.rows.length) :
    w'.addressMap[a]? = some i ↔ ∃ (n : Nat) (r : Row), i = n ∧ w.rows[n]? = some r ∧
      w.rowAddress n ≤ a ∧ a < w.rowAddress n + r.size := by
  rw [h.rowAddress_length_eq] at ha
  rw [h.getElem?_addressMap, if_neg (by omega)]
  constructor
  · intro hi
    split at hi
    · -- the cell at the address is one of a row, and lies between the ends of the row
      obtain ⟨⟨c, n⟩, hc, rfl⟩ := Option.map_eq_some_iff.mp hi
      obtain ⟨r, k, hr, hk, hn⟩ := getElem?_programCells.mp hc
      have hlt := (List.getElem?_eq_some_iff.mp hk).1
      rw [Row.length_cells (h.laidOut.sound r (List.mem_of_getElem? hr))] at hlt
      refine ⟨n, r, rfl, hr, ?_, ?_⟩ <;> rw [h.rowAddress_eq] <;> omega
    · cases hi
  · rintro ⟨n, r, rfl, hr, hlo, hhi⟩
    rw [h.rowAddress_eq] at hlo hhi
    have hlen := Row.length_cells (h.laidOut.sound r (List.mem_of_getElem? hr))
    have hk : (a - w.base).toNat - offset w.rows n < r.cells.length := by omega
    rw [if_pos (by omega), getElem?_programCells.mpr
      ⟨r, _, hr, List.getElem?_eq_getElem hk, by omega⟩]
    rfl

end Assembly

/-- An assembly that succeeds lays out the rows one behind the other, binds the labels to their
rows, and puts into every word that refers to a symbol what the symbol stands for. -/
theorem assembled_of_assemble {w w' : Workspace} {map : AddressMap}
    (h : w.assemble = (.ok map, w')) : w.Assembled map w' := by
  obtain ⟨⟨d, ha⟩, rfl⟩ := assemble_eq_ok h
  constructor
  case label_iff =>
    intro name a
    rw [ha.labels_eq, ha.laidOut.labels_iff]
    simp only [LabelAt, ha.rowAddress_eq]
  case label_unique =>
    intro i j r s hr hs he hne
    obtain ⟨hi, rfl⟩ := List.getElem?_eq_some_iff.mp hr
    obtain ⟨hj, rfl⟩ := List.getElem?_eq_some_iff.mp hs
    have hpair := List.pairwise_iff_getElem.mp ha.laidOut.distinct
    -- of two rows with one label the later one would have been refused
    rcases Nat.lt_trichotomy i j with hlt | rfl | hgt
    · exact absurd (hpair i j hi hj hlt he) hne
    · rfl
    · exact absurd (he.trans (hpair j i hj hi hgt he.symm)) hne
  case row_iff =>
    intro i a hlt
    exact ha.addressMap_iff hlt
  case words =>
    intro i r hr
    have hsound := ha.laidOut.sound r (List.mem_of_getElem? hr)
    refine ⟨(Row.words_eq (fun _ _ => Assembly.operandValue?_number w') hsound).2, ?_⟩
    intro k hk
    exact ha.get?_row hr hk
  case constant =>
    intro i r operand x hr hd hg hx
    have hwords : r.words w'.operandValue? = [some x] := by
      simp [Row.words, Row.name_ne_of_directive hd, hd, hg, Operand.constant?_eq_some_iff.mpr hx]
    obtain ⟨y, hy, hget⟩ := ha.get?_row hr (k := 0) (by
      simp [Row.size, Row.name_ne_of_directive hd, hd])
    rw [hwords] at hy
    obtain rfl : x = y := Option.some.inj (Option.some.inj hy)
    simpa using hget
  case literal =>
    intro token a hl
    obtain ⟨j, literal, hj, rfl, rfl⟩ := ha.exists_of_literals hl
    have hlt := (List.getElem?_eq_some_iff.mp hj).1
    rw [ha.rowAddress_length_eq, ha.address_eq]
    exact ⟨by omega, by omega, literal.value, Operand.constant?_eq_some_iff.mp
      (ha.spelled_of_mem_pool (List.mem_of_getElem? hj)).2, ha.get?_pool hj⟩
  case reference =>
    intro a symbol hm
    rw [ha.references_eq, mem_openPlaces_iff] at hm
    obtain ⟨n, c, hc, hs, rfl⟩ := hm
    rw [List.getElem?_map, Option.map_eq_some_iff] at hc
    obtain ⟨⟨c, i⟩, hc, rfl⟩ := hc
    -- the cell waits for the symbol, so its word is what the symbol stands for
    have hv : c.resolve? w'.operandValue? = w'.operandValue? symbol := by
      cases c with
      | word value => cases hs
      | label name => exact Option.some.inj hs ▸ rfl
      | literal token value => exact Option.some.inj hs ▸ rfl
    obtain ⟨x, hx⟩ := ha.exists_resolve? hc
    exact ⟨x, hv ▸ hx, by rw [ha.get?_cell hc, ha.value?_eq hc, hx]⟩
  case outside =>
    intro a hout
    exact ha.get?_outside hout

/-- A program whose operands refer forward, backward and to the row itself, with a literal. -/
def crossReferences : Workspace where
  base := 16
  rows :=
    [⟨"", "START", ["MAIN"]⟩, ⟨"BUF", "DS", []⟩, ⟨"MAIN", "IN", ["BUF", "LEN"]⟩,
      ⟨"", "LD", ["GR1", "=#FFFF", "GR2"]⟩, ⟨"SELF", "JUMP", ["SELF"]⟩, ⟨"LEN", "DC", ["MAIN"]⟩,
      ⟨"", "RET", []⟩, ⟨"", "END", []⟩]

theorem isOk_assemble_crossReferences : crossReferences.assemble.1.isOk = true := by
  decide +kernel

theorem assembled_crossReferences :
    ∃ map w', crossReferences.assemble = (.ok map, w') ∧ crossReferences.Assembled map w' := by
  have hok := isOk_assemble_crossReferences
  generalize h : crossReferences.assemble = outcome at hok
  rcases outcome with ⟨_ | map, w'⟩
  · cases hok
  · exact ⟨map, w', rfl, assembled_of_assemble h⟩

end Workspace

end WordMachine
