import WordMachine.Proofs.Orders
import WordMachine.Proofs.Runs

/-!
# Agreement of assembler and machine

The words that are assembled for a row make the machine carry out what the row orders: the
operation code leads to the operation of the row's instruction, the register fields to the
registers that the row names, and the words behind them to the values of its address operands.

## Main definitions

* `Core.Decodes`: the words at the program counter are those of an instruction
* `Mnemonic.Encoded`: the encodings of an instruction's operands
* `Machine.Holds`: the words of a row are at the program counter

## Main results

* `Machine.conclude_act`: an instruction does what its mnemonic says
* `Mnemonic.encoded_of_encode`: operands are encoded as the order that they stand for
* `Workspace.stepped_of_assemble`: the machine carries out the orders of an assembled program
-/

namespace WordMachine

/-! ## Instruction words -/

namespace Word

variable {o f s : Nat} (hf : f < 16) (hs : s < 16)
include hf hs

theorem opcode_encode (ho : o < 256) : opcode (encode o f s) = o := by
  rw [encode_natCast o hf hs, opcode]
  omega

theorem first_encode : first (encode o f s) = f := by
  rw [encode_natCast o hf hs, first]
  omega

theorem second_encode : second (encode o f s) = s := by
  rw [encode_natCast o hf hs, second]
  omega

end Word

/-! ## Operation codes -/

namespace Mnemonic

theorem opcode_lt {m : Mnemonic} {form : Form} {opcode : Nat} (h : m.opcode? form = some opcode) :
    opcode < 256 := by
  cases m <;> cases form <;> cases h <;> decide

/-- The standard table leads from the operation code of an instruction to its operation. -/
theorem standard_of_opcode? {m : Mnemonic} {form : Form} {opcode : Nat}
    (h : m.opcode? form = some opcode) : Dispatch.standard opcode = m.operation? form := by
  cases m <;> cases form <;> cases h <;> rfl

/-- An instruction is an action of the core, unless it ends the program or calls the supervisor. -/
theorem exists_action {m : Mnemonic} (form : Form) (hret : m ≠ .ret) (hsvc : m ≠ .svc) :
    ∃ a, m.operation? form = some (.action a) := by
  cases m <;> first | exact ⟨_, rfl⟩ | contradiction

/-- Only the instruction that ends a program has its operation code. -/
theorem opcode?_eq_returnOpcode {m : Mnemonic} {form : Form}
    (h : m.opcode? form = some returnOpcode) : m = .ret := by
  cases m <;> cases form <;> first | rfl | cases h

end Mnemonic

/-! ## Operands at the program counter -/

/-- The second field at the program counter and the word behind it lead to a place. -/
inductive Place.Fits (c : Core) : Form → Place → Prop
  /-- In the register form the field is the register. -/
  | register {index : Fin 8} (h : c.second = index.val) : Fits c .register (.register index)
  /-- In the address form a field that is zero is no index register. -/
  | absolute (h : c.second = 0) : Fits c .address (.memory c.addressWord none)
  /-- In the address form any other field is the index register. -/
  | indexed {index : Fin 8} (h : c.second = index.val) (hne : index ≠ 0) :
      Fits c .address (.memory c.addressWord (some index))

namespace Core

theorem register_val (c : Core) (index : Fin 8) :
    c.register (index.val : Nat) = .ok (c.general index) := by
  have hget : c.registers.get? (index.val : Nat) = some (c.general index) := by
    simp [Registers.get?, general]
  rw [register, hget]

theorem setRegister_val (c : Core) (index : Fin 8) (w : Int) :
    c.setRegister (index.val : Nat) w = .ok (c.put index w) := by
  have hset : c.registers.set? (index.val : Nat) w =
      some { c.registers with general := c.registers.general.set index w } := by
    rw [Registers.set?, dif_pos (by omega)]
    rfl
  rw [setRegister, hset]
  rfl

/-- The fields of an assembled instruction word at the program counter. -/
theorem fields_of_word {c : Core} {opcode : Nat} {first second : Fin 8}
    (h : c.word = Word.encode opcode first.val second.val) (ho : opcode < 256) :
    c.opcode = opcode ∧ c.first = first.val ∧ c.second = second.val := by
  have hf : first.val < 16 := by omega
  have hs : second.val < 16 := by omega
  rw [Core.opcode, Core.first, Core.second, h]
  exact ⟨Word.opcode_encode hf hs ho, Word.first_encode hf hs, Word.second_encode hf hs⟩

end Core

namespace Place.Fits

variable {c : Core} {form : Form} {place : Place}

theorem effectiveAddress_eq (h : place.Fits c .address) :
    c.effectiveAddress = .ok (place.address c) := by
  unfold Core.effectiveAddress
  cases h with
  | absolute h => rw [if_pos h, address]
  | @indexed index h hne =>
    have hsecond : c.second ≠ 0 := by
      intro h0
      exact hne (Fin.ext (h.symm.trans h0))
    rw [if_neg hsecond, h, c.register_val]
    rfl

theorem secondOperand_eq (h : place.Fits c form) :
    c.secondOperand form = .ok (place.operand c) := by
  cases form with
  | register =>
    cases h with
    | register h => rw [Core.secondOperand, h, c.register_val, operand]
  | address =>
    rw [Core.secondOperand, h.effectiveAddress_eq]
    cases h <;> rfl

end Place.Fits

/-- The words at the program counter are those of an instruction with a register and a place. -/
structure Core.Decodes (c : Core) (form : Form) (first : Fin 8) (place : Place) : Prop where
  /-- The first register field is the register. -/
  first_eq : c.first = first.val
  /-- The rest leads to the place. -/
  fits : place.Fits c form

namespace Core.Decodes

variable {c : Core} {form : Form} {first : Fin 8} {place : Place} (h : c.Decodes form first place)
include h

theorem register_first : c.register c.first = .ok (c.general first) := by
  rw [h.first_eq, register_val]

theorem setRegister_first (d : Core) (w : Int) : d.setRegister c.first w = .ok (d.put first w) := by
  rw [h.first_eq, setRegister_val]

theorem run_load : (Action.load form).run c =
    .ok ((c.put first (place.operand c)).withFlags (place.operand c), form.length) := by
  rw [Action.run, h.fits.secondOperand_eq]
  show (do let d ← c.setRegister c.first (place.operand c); _) = _
  rw [h.setRegister_first]
  rfl

theorem run_compute (operation : Arithmetic) : (Action.compute operation form).run c =
    .ok (c.combine operation.eval first place, form.length) := by
  rw [Action.run, h.register_first, h.fits.secondOperand_eq]
  show (do
    let d ← c.setRegister c.first (operation.eval (c.general first) (place.operand c)); _) = _
  rw [h.setRegister_first]
  rfl

theorem run_compare : (Action.compare form).run c =
    .ok (c.withFlags (c.general first - place.operand c), form.length) := by
  rw [Action.run, h.register_first, h.fits.secondOperand_eq]
  rfl

end Core.Decodes

namespace Core.Decodes

variable {c : Core} {first : Fin 8} {place : Place} (h : c.Decodes .address first place)
include h

theorem run_store : Action.store.run c =
    (c.store (place.address c) (c.general first)).map fun d => (d, 2) := by
  rw [Action.run, h.fits.effectiveAddress_eq, h.register_first]
  show (do let d ← c.store (place.address c) (c.general first); _) = _
  cases c.store (place.address c) (c.general first) <;> rfl

theorem run_loadAddress : Action.loadAddress.run c = .ok (c.put first (place.address c), 2) := by
  rw [Action.run, h.fits.effectiveAddress_eq]
  show (do let d ← c.setRegister c.first (place.address c); _) = _
  rw [h.setRegister_first]
  rfl

theorem run_jump (condition : Condition) : (Action.jump condition).run c =
    if condition.holds c.registers.flags then .ok (c.withCounter (place.address c), 0)
    else .ok (c, 2) := by
  rw [Action.run, h.fits.effectiveAddress_eq]
  rfl

end Core.Decodes

/-! ## Steps -/

namespace Machine

variable {σ : Type}

/-- The outcome of a step whose operation has ended in a given way. -/
def conclude (address : Int) : Except Fault Nat × Machine σ → Except Fault Bool × Machine σ
  | (.ok words, m) => (.ok true, m.advance address words)
  | (.error fault, m) => (.error fault, m)

theorem conclude_jump {m : Machine σ} {first : Fin 8} {place : Place}
    (h : m.toCore.Decodes .address first place) (condition : Condition) :
    conclude m.registers.counter (m.act (.jump condition)) =
      (.ok true, m.goOn (if condition.holds m.registers.flags then place.address m.toCore
        else m.registers.counter + 2)) := by
  rw [act, h.run_jump]
  by_cases hc : condition.holds m.registers.flags
  · -- the jump has set the program counter, and goes on by no words
    rw [if_pos hc, if_pos hc]
    rfl
  · rw [if_neg hc, if_neg hc]
    rfl

/-- An instruction whose words are at the program counter has its effect. -/
theorem conclude_act {m : Machine σ} {k : Mnemonic} {form : Form} {opcode : Nat} {a : Action}
    {first : Fin 8} {place : Place} (hcode : k.opcode? form = some opcode)
    (hop : k.operation? form = some (.action a)) (h : m.toCore.Decodes form first place) :
    conclude m.registers.counter (m.act a) =
      match k.effect first place (m.registers.counter + form.length) m.toCore with
      | .ok (core, address) => (.ok true, { m with toCore := core }.goOn address)
      | .error fault => (.error fault, m) := by
  -- Compare what the mnemonic does with its action, in each form that it has.
  cases k with
  | ret | svc => cases hop
  | nop =>
    cases form <;> cases hcode
    cases hop
    rfl
  | ld =>
    cases hop
    rw [act, h.run_load]
    cases form <;> rfl
  | adda | suba | and | or | xor =>
    cases hop
    rw [act, h.run_compute]
    cases form <;> rfl
  | cpa =>
    cases hop
    rw [act, h.run_compare]
    cases form <;> rfl
  | st =>
    cases form <;> cases hcode
    cases hop
    rw [act, h.run_store, Mnemonic.effect]
    cases m.store (place.address m.toCore) (m.general first) <;> rfl
  | lad =>
    cases form <;> cases hcode
    cases hop
    rw [act, h.run_loadAddress]
    rfl
  | jmi | jnz | jze | jump | jpl =>
    cases form <;> cases hcode
    cases hop
    exact conclude_jump h _

variable [Terminal σ]

theorem stepped_of_return {m : Machine σ} (h : m.opcode = returnOpcode) :
    m.stepped = (.ok false, m) := by
  rw [stepped, step, if_pos h]
  rfl

theorem stepped_of_dispatch {m : Machine σ} {operation : Operation} (hne : m.opcode ≠ returnOpcode)
    (h : m.dispatch m.opcode = some operation) :
    m.stepped = conclude m.registers.counter (m.noteTrace.perform operation) := by
  rw [stepped, step, if_neg hne, h]
  dsimp only
  rcases m.noteTrace.perform operation with ⟨_ | _, n⟩ <;> rfl

theorem stepped_of_operation {m : Machine σ} (hm : m.dispatch = Dispatch.standard) {k : Mnemonic}
    {form : Form} {a : Action} (hcode : k.opcode? form = some m.opcode) (hret : k ≠ .ret)
    (hop : k.operation? form = some (.action a)) :
    m.stepped = conclude m.registers.counter (m.noteTrace.act a) := by
  have hne : m.opcode ≠ returnOpcode := by
    intro heq
    exact hret (Mnemonic.opcode?_eq_returnOpcode (heq ▸ hcode))
  have hd : m.dispatch m.opcode = some (.action a) := by
    rw [hm, Mnemonic.standard_of_opcode? hcode, hop]
  exact stepped_of_dispatch hne hd

/-- The words of an instruction make the machine carry out the instruction. -/
theorem stepped_instruction {m : Machine σ} (hm : m.dispatch = Dispatch.standard) {k : Mnemonic}
    {form : Form} {first : Fin 8} {place : Place} (hcode : k.opcode? form = some m.opcode)
    (hret : k ≠ .ret) (hsvc : k ≠ .svc) (h : m.toCore.Decodes form first place) :
    m.stepped =
      (Order.instruction k first place).run (m.registers.counter + form.length) m := by
  obtain ⟨a, ha⟩ := Mnemonic.exists_action form hret hsvc
  -- the trace does not change what the action sees
  have hact := conclude_act (m := m.noteTrace) hcode ha (by rwa [noteTrace_toCore])
  rw [noteTrace_toCore] at hact
  rw [stepped_of_operation hm hcode hret ha]
  exact hact

/-- The call of the supervisor moves the characters between the terminal and the addresses behind
the instruction word. -/
theorem conclude_supervisorCall (m : Machine σ) :
    conclude m.registers.counter m.supervisorCall =
      if m.second = inputSubtype then
        m.takeLine m.dataAddress m.lengthAddress (m.registers.counter + 3)
      else if m.second = outputSubtype then
        m.putText m.dataAddress m.lengthAddress (m.registers.counter + 3)
      else (.ok true, m.goOn (m.registers.counter + 1)) := by
  unfold supervisorCall
  split
  · -- a line is taken, if there is one
    unfold input takeLine
    cases Terminal.request inputPrompt m.terminal with
    | none => rfl
    | some answer =>
      rcases hw : m.memory.writeAll (lineWords m.dataAddress m.lengthAddress answer.1) with
        ⟨_ | _, memory⟩ <;> simp only [hw] <;> rfl
  · split
    · -- a text is put out
      unfold output putText
      show conclude _ (match Terminal.emit m.outputText m.terminal with | _ => _) = _
      rw [show m.textAt m.dataAddress m.lengthAddress = m.outputText from rfl]
      cases Terminal.emit m.outputText m.terminal <;> rfl
    · rfl

/-- The words of a supervisor call make the machine carry out the call. -/
theorem stepped_call {m : Machine σ} (hm : m.dispatch = Dispatch.standard) {subtype : Nat}
    (hword : m.word = Word.encode supervisorOpcode (0 : Nat) subtype) (range : subtype < 16) :
    m.stepped = (Order.call subtype m.dataAddress m.lengthAddress).run
      (m.registers.counter + 3) m := by
  have hcode : m.opcode = supervisorOpcode := by
    rw [Core.opcode, hword, Word.opcode_encode (by decide) range (by decide)]
  have hsecond : m.second = subtype := by
    rw [Core.second, hword, Word.second_encode (by decide) range]
  have hd : m.dispatch m.opcode = some .supervisor := by
    rw [hm, hcode]
    rfl
  have hcall := m.noteTrace.conclude_supervisorCall
  simp only [dataAddress, lengthAddress, noteTrace_toCore, hsecond] at hcall
  rw [stepped_of_dispatch (by rw [hcode]; decide) hd]
  simp only [Order.run, Int.ofNat_inj, dataAddress, lengthAddress]
  exact hcall

end Machine

/-! ## Encodings -/

namespace Mnemonic

/-- The encodings of an instruction with operands, with the order that the operands stand for. -/
inductive Encoded (m : Mnemonic) (operands : List String) : Encoding → Prop
  /-- The register form holds both registers in the instruction word. -/
  | register {opcode : Nat} {first index : Fin 8} (hcode : m.opcode? .register = some opcode)
      (horder : ∀ value?,
        m.order? value? operands = some (.instruction m first (.register index))) :
      Encoded m operands ⟨Word.encode opcode first.val index.val, none⟩
  /-- The address form holds the register and the index register, if there is one. -/
  | address {opcode : Nat} {first : Fin 8} {index : Option (Fin 8)} {operand : String}
      (hcode : m.opcode? .address = some opcode) (hindex : index ≠ some 0)
      (horder : ∀ value? value, value? operand = some value →
        m.order? value? operands = some (.instruction m first (.memory value index))) :
      Encoded m operands ⟨Word.encode opcode first.val (index.getD 0).val, some operand⟩

variable {m : Mnemonic} {operands : List String} {e : Encoding}

/-- The address and the index register of operands are those of the place that they name. -/
theorem ofOperands?_of_addressAndIndex {address : String} {x : Fin 8}
    (h : m.addressAndIndex operands = .ok (address, x)) :
    ∃ index : Option (Fin 8), index ≠ some 0 ∧ index.getD 0 = x ∧
      ∀ (value? : String → Option Int) (value : Int), value? address = some value →
        Place.ofOperands? value? operands = some (.memory value index) := by
  unfold addressAndIndex at h
  split at h
  · obtain ⟨a, ha, hresult⟩ := bind_eq_ok h
    obtain ⟨-, rfl⟩ := addressOperand_eq_ok ha
    cases hresult
    refine ⟨none, by simp, rfl, ?_⟩
    intro value? value hv
    rw [Place.ofOperands?, hv]
    rfl
  · obtain ⟨a, ha, hindexed⟩ := bind_eq_ok h
    obtain ⟨x, hx, hresult⟩ := bind_eq_ok hindexed
    obtain ⟨-, rfl⟩ := addressOperand_eq_ok ha
    obtain ⟨hr, hne⟩ := indexRegister_eq_ok hx
    cases hresult
    refine ⟨some x, by simpa using hne, rfl, ?_⟩
    intro value? value hv
    rw [Place.ofOperands?, hv, hr]
    rfl
  · cases h

theorem order?_of_registerPair {first index : Fin 8}
    (h : m.registerPair? operands = some (first, index)) (value? : String → Option Int) :
    m.order? value? operands = some (.instruction m first (.register index)) := by
  unfold registerPair? at h
  split at h
  · split at h
    · cases h
    · next hfirst =>
      split at h
      · next hr hs =>
        cases h
        rw [order?, if_neg (by simp), if_neg hfirst]
        simp [hr, hs, Place.ofSecond?]
      · cases h
  · cases h

theorem order?_of_leadingRegister {first : Fin 8} {rest : List String} {place : Place}
    {value? : String → Option Int} (hne : operands.isEmpty = false)
    (hpair : m.registerPair? operands = none)
    (h : m.leadingRegister operands = .ok (first, rest))
    (hplace : Place.ofOperands? value? rest = some place) :
    m.order? value? operands = some (.instruction m first place) := by
  unfold leadingRegister at h
  rw [order?, if_neg (by simp [hne])]
  split at h
  · next hfirst =>
    cases h
    rw [if_pos hfirst, hplace]
    rfl
  · next hfirst =>
    split at h
    · next r hr =>
      cases h
      have hsecond : Place.ofSecond? value? operands.tail = some place := by
        unfold Place.ofSecond?
        split
        · next operand htail =>
          -- a second register would have made the operands a pair of registers
          have hnone : Operand.register? operand = none := by
            cases operands with
            | nil => cases hne
            | cons o os =>
              obtain rfl : os = [operand] := htail
              have hr : Operand.register? o = some first := hr
              cases hs : Operand.register? operand with
              | none => rfl
              | some s => simp [registerPair?, hfirst, hr, hs] at hpair
          rw [hnone, ← htail]
          exact hplace
        · exact hplace
      rw [if_neg hfirst, hr, hsecond]
      rfl
    · cases h

theorem encoded_of_encode (h : m.encode operands = .ok e) : m.Encoded operands e := by
  unfold encode at h
  split at h
  · next hempty =>
    -- no operand: the register form with register zero twice
    unfold encodeRegisterForm at h
    split at h
    · next hcode =>
      cases h
      have horder : ∀ value?, m.order? value? operands =
          some (.instruction m registerZero (.register registerZero)) := by
        intro value?
        rw [order?, if_pos hempty]
      exact .register hcode horder
    · cases h
  · next hne =>
    split at h
    · next first index hpair =>
      -- two registers
      unfold encodeRegisterForm at h
      split at h
      · next hcode =>
        cases h
        exact .register hcode (order?_of_registerPair hpair)
      · cases h
    · next hpair =>
      -- anything else is the address form
      unfold encodeAddressForm at h
      split at h
      · cases h
      · next hcode =>
        obtain ⟨⟨first, rest⟩, hlead, h⟩ := bind_eq_ok h
        obtain ⟨⟨address, x⟩, hrest, h⟩ := bind_eq_ok h
        obtain ⟨index, hindex, rfl, hplace⟩ := ofOperands?_of_addressAndIndex hrest
        cases h
        refine .address hcode hindex ?_
        intro value? value hv
        exact order?_of_leadingRegister (by simpa using hne) hpair hlead (hplace value? value hv)

end Mnemonic

/-! ## Rows -/

theorem Row.not_isExecuted_of_name {r : Row} (h : r.name = "") : r.isExecuted = false := by
  rw [isExecuted, directive?, isInstruction, h]
  decide

namespace Machine

variable {σ : Type} {m : Machine σ} {r : Row} {value? : String → Option Int}

/-- The words of a row are at the program counter. -/
def Holds (m : Machine σ) (value? : String → Option Int) (r : Row) : Prop :=
  ∀ k : Nat, k < r.size → ∃ x, (r.words value?)[k]? = some (some x) ∧
    m.memory.read (m.registers.counter + k) = x

theorem Holds.word_eq (h : m.Holds value? r) {w : Int} {ws : List (Option Int)}
    (hsize : 0 < r.size) (hwords : r.words value? = some w :: ws) : m.word = w := by
  obtain ⟨_, hx, hword⟩ := h 0 hsize
  rw [hwords] at hx
  cases hx
  simpa [Core.word] using hword

theorem Holds.behind (h : m.Holds value? r) {k : Nat} {value : Option Int} (hk : k < r.size)
    (hvalue : (r.words value?)[k]? = some value) :
    value = some (m.memory.read (m.registers.counter + k)) := by
  obtain ⟨x, hx, rfl⟩ := h k hk
  exact Option.some.inj (hvalue.symm.trans hx)

variable [Terminal σ]

theorem stepped_of_call (hm : m.dispatch = Dispatch.standard) (h : m.Holds value? r) {subtype : Nat}
    (range : subtype < 16) {buffer length : String} (hsize : r.size = 3)
    (hwords : r.words value? =
      [some (Word.encode supervisorOpcode 0 subtype), value? buffer, value? length]) :
    ∃ o, Order.ofCall? value? subtype [buffer, length] = some o ∧
      m.stepped = o.run (m.registers.counter + r.size) m := by
  have hdata : value? buffer = some m.dataAddress :=
    h.behind (k := 1) (by omega) (by rw [hwords]; rfl)
  have hlength : value? length = some m.lengthAddress :=
    h.behind (k := 2) (by omega) (by rw [hwords]; rfl)
  refine ⟨.call subtype m.dataAddress m.lengthAddress, ?_, ?_⟩
  · rw [Order.ofCall?, hdata, hlength]
    rfl
  · rw [hsize]
    exact stepped_call hm (h.word_eq (by omega) hwords) range

theorem stepped_of_instruction (hm : m.dispatch = Dispatch.standard) (h : m.Holds value? r)
    {k : Mnemonic} {e : Encoding} (hd : r.directive? = none) (hk : Mnemonic.ofName? r.name = some k)
    (hret : k ≠ .ret) (hsvc : k ≠ .svc) (he : k.encode r.given = .ok e)
    (hsize : r.size = e.address.toList.length + 1)
    (hwords : r.words value? = some e.word :: e.address.toList.map value?) :
    ∃ o, r.order? value? = some o ∧ m.stepped = o.run (m.registers.counter + r.size) m := by
  have horder : r.order? value? = k.order? value? r.given := by
    rw [Row.order?, hd, hk]
    cases k <;> first | rfl | contradiction
  have hword : m.word = e.word := h.word_eq (by omega) hwords
  rw [horder]
  cases Mnemonic.encoded_of_encode he with
  | @register opcode first index hcode ho =>
    obtain ⟨rfl, hfirst, hsecond⟩ := Core.fields_of_word hword (Mnemonic.opcode_lt hcode)
    refine ⟨_, ho value?, ?_⟩
    rw [hsize]
    exact stepped_instruction hm hcode hret hsvc ⟨hfirst, .register hsecond⟩
  | @address opcode first index operand hcode hindex ho =>
    obtain ⟨rfl, hfirst, hsecond⟩ := Core.fields_of_word hword (Mnemonic.opcode_lt hcode)
    have haddress : value? operand = some m.addressWord :=
      h.behind (k := 1) (by rw [hsize]; simp) (by rw [hwords]; rfl)
    have hfits : (Place.memory m.addressWord index).Fits m.toCore .address := by
      cases index with
      | none => exact .absolute hsecond
      | some x => exact .indexed hsecond fun hx => hindex (congrArg some hx)
    refine ⟨_, ho value? _ haddress, ?_⟩
    rw [hsize]
    exact stepped_instruction hm hcode hret hsvc ⟨hfirst, hfits⟩

theorem stepped_of_ret (h : m.Holds value? r) {e : Encoding}
    (he : Mnemonic.ret.encode r.given = .ok e) (hsize : r.size = e.address.toList.length + 1)
    (hwords : r.words value? = some e.word :: e.address.toList.map value?) :
    m.stepped = (.ok false, m) := by
  have hword : m.word = e.word := h.word_eq (by omega) hwords
  cases Mnemonic.encoded_of_encode he with
  | register hcode =>
    obtain ⟨rfl, -, -⟩ := Core.fields_of_word hword (Mnemonic.opcode_lt hcode)
    exact stepped_of_return (Option.some.inj hcode).symm
  | address hcode => cases hcode

/-- The words of a row that is executed make the machine carry out what the row orders. -/
theorem stepped_of_row (hm : m.dispatch = Dispatch.standard) (h : m.Holds value? r)
    (hx : r.isExecuted = true) (hk : r.Kind) :
    ∃ o, r.order? value? = some o ∧ m.stepped = o.run (m.registers.counter + r.size) m := by
  cases hk with
  | idle hi =>
    rcases hi with hn | hd | hd
    · rw [Row.not_isExecuted_of_name hn] at hx
      cases hx
    · simp [Row.isExecuted, hd, Directive.subtype?] at hx
    · simp [Row.isExecuted, hd, Directive.subtype?] at hx
  | constant hd => simp [Row.isExecuted, hd, Directive.subtype?] at hx
  | reserve hd => simp [Row.isExecuted, hd, Directive.subtype?] at hx
  | @call d subtype buffer length hd hs hg =>
    obtain ⟨hsize, hwords⟩ := Row.words_of_call hd hs hg value?
    have hrange : subtype < 16 := by rcases hs with ⟨-, rfl⟩ | ⟨-, rfl⟩ <;> decide
    obtain ⟨o, ho, hstep⟩ := stepped_of_call hm h hrange hsize hwords
    refine ⟨o, ?_, hstep⟩
    rw [← ho, Row.order?, hd, hg]
    rcases hs with ⟨rfl, rfl⟩ | ⟨rfl, rfl⟩ <;> rfl
  | @supervisor operand buffer length subtype hd hn hg hs range =>
    obtain ⟨hsize, hwords⟩ := Row.words_of_supervisor hd hn hg hs range value?
    obtain ⟨subtype, rfl⟩ := Int.eq_ofNat_of_zero_le range.1
    obtain ⟨o, ho, hstep⟩ := stepped_of_call hm h (by omega) hsize hwords
    refine ⟨o, ?_, hstep⟩
    rw [← ho, Row.order?, hd, hn, Row.subtype?, hg]
    simp [hs]
  | @instruction k e hd hn hne he =>
    obtain ⟨hsize, hwords⟩ := Row.words_of_instruction hd hn hne he value?
    by_cases hret : k = .ret
    · subst hret
      exact ⟨.stop, by rw [Row.order?, hd, hn], stepped_of_ret h he hsize hwords⟩
    · exact stepped_of_instruction hm h hd hn hret hne he hsize hwords

end Machine

/-! ## Faults of orders -/

/-- An instruction fails only if it stores a word at a negative address. -/
theorem Mnemonic.fault_of_effect {k : Mnemonic} {first : Fin 8} {place : Place} {next : Int}
    {c : Core} {f : Fault} (h : k.effect first place next c = .error f) :
    ∃ a, f = .negativeAddress a := by
  cases k with
  | st =>
    simp only [effect, Core.store] at h
    split at h
    · cases h
    · exact ⟨_, (Except.error.inj h).symm⟩
  | _ => cases h

/-- The faults of orders: a negative address, a line that cannot be had, and a text that cannot be
written. -/
inductive Order.IsFault : Fault → Prop
  | negativeAddress (address : Int) : IsFault (.negativeAddress address)
  | inputPending : IsFault (.inputPending inputPrompt)
  | undecodable (reason : String) : IsFault (.undecodable reason)
  | unencodable (cause : Unencodable) : IsFault (.unencodable cause)

theorem Order.isFault_shortage {σ : Type} [Terminal σ] (t : σ) :
    IsFault (Terminal.shortage inputPrompt t) := by
  rcases Terminal.shortage_eq inputPrompt t with h | ⟨reason, h⟩ <;> rw [h]
  · exact .inputPending
  · exact .undecodable reason

theorem Order.isFault_of_run {σ : Type} [Terminal σ] {o : Order} {next : Int} {m : Machine σ}
    {f : Fault} (h : (o.run next m).1 = .error f) : IsFault f := by
  cases o with
  | stop => cases h
  | instruction k first place =>
    simp only [run] at h
    split at h
    · cases h
    · next he =>
      obtain ⟨a, rfl⟩ := Mnemonic.fault_of_effect he
      exact Except.error.inj h ▸ .negativeAddress a
  | call subtype data length =>
    simp only [run] at h
    split at h
    · unfold Machine.takeLine at h
      split at h
      · exact Except.error.inj h ▸ isFault_shortage _
      · split at h
        · cases h
        · exact Except.error.inj h ▸ .negativeAddress _
    · split at h
      · unfold Machine.putText at h
        split at h
        · cases h
        · exact Except.error.inj h ▸ .unencodable _
      · cases h

/-! ## Assembled programs -/

namespace Workspace

theorem rowAddress_succ (w : Workspace) {i : Nat} {r : Row} (hr : w.rows[i]? = some r) :
    w.rowAddress (i + 1) = w.rowAddress i + r.size := by
  rw [rowAddress, rowAddress, List.take_add_one, hr]
  simp
  omega

/-- **Agreement.** Let a row of an assembled program hold an instruction or a macro for input or
output, and let the machine be at the address of the row, with the words of the row as they were
assembled. Whatever else is in memory, registers and terminal, the step of the machine is what the
row orders, and the program goes on with the next row unless the order says otherwise. -/
theorem stepped_of_assemble {w w' : Workspace} {map : AddressMap} (h : w.assemble = (.ok map, w'))
    {i : Nat} {r : Row} (hr : w.rows[i]? = some r) (hx : r.isExecuted = true) {σ : Type}
    [Terminal σ] (m : Machine σ) (hm : m.dispatch = Dispatch.standard)
    (hcounter : m.registers.counter = w.rowAddress i)
    (hwords : ∀ k : Nat, k < r.size →
      m.memory.read (w.rowAddress i + k) = w'.memory.read (w.rowAddress i + k)) :
    w.rowAddress (i + 1) = w.rowAddress i + r.size ∧
      (∃ o, r.order? w'.operandValue? = some o ∧ m.stepped = o.run (w.rowAddress (i + 1)) m) ∧
      (∀ opcode a, m.step.1 ≠ .error (.undefinedOpcode opcode a)) ∧
      ∀ index, m.step.1 ≠ .error (.invalidRegister index) := by
  obtain ⟨⟨d, ha⟩, rfl⟩ := assemble_eq_ok h
  have hsound := ha.laidOut.sound r (List.mem_of_getElem? hr)
  have hholds : m.Holds w'.operandValue? r := by
    intro k hk
    obtain ⟨x, hx, hget⟩ := ha.get?_row hr hk
    exact ⟨x, hx, by rw [hcounter, hwords k hk, Memory.read, hget]; rfl⟩
  obtain ⟨o, ho, hstep⟩ := Machine.stepped_of_row hm hholds hx (Row.kind_of_sound hsound)
  have hfault {f : Fault} (hf : m.step.1 = .error f) : (o.run (m.registers.counter + r.size) m).1 =
      .error f := by
    rw [← hstep, Machine.stepped, hf]
    rfl
  refine ⟨w.rowAddress_succ hr, ⟨o, ho, ?_⟩, ?_, ?_⟩
  · rw [w.rowAddress_succ hr, ← hcounter, hstep]
  · intro opcode a hf
    cases Order.isFault_of_run (hfault hf)
  · intro index hf
    cases Order.isFault_of_run (hfault hf)

theorem stepped_crossReferences :
    ∃ map w', crossReferences.assemble = (.ok map, w') ∧
      let m : Machine Buffer :=
        { memory := w'.memory, registers := { counter := 20 }, terminal := {} }
      m.stepped = (Order.instruction .ld 1 (.memory 26 (some 2))).run 22 m := by
  have hok := isOk_assemble_crossReferences
  have horder : Row.order? crossReferences.assemble.2.operandValue?
      ⟨"", "LD", ["GR1", "=#FFFF", "GR2"]⟩ =
        some (.instruction .ld 1 (.memory 26 (some 2))) := by decide +kernel
  generalize h : crossReferences.assemble = outcome at hok horder
  rcases outcome with ⟨_ | map, w'⟩
  · cases hok
  · obtain ⟨-, ⟨o, ho, hstep⟩, -⟩ := stepped_of_assemble h (i := 3) rfl (by decide +kernel)
      { memory := w'.memory, registers := { counter := 20 }, terminal := ({} : Buffer) } rfl
      (show 20 = crossReferences.rowAddress 3 by decide +kernel) fun _ _ => rfl
    obtain rfl := Option.some.inj (ho.symm.trans horder)
    rw [show crossReferences.rowAddress (3 + 1) = 22 by decide +kernel] at hstep
    exact ⟨map, w', rfl, hstep⟩

end Workspace

end WordMachine
